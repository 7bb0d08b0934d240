import ClientGen.Proofs.Document.References
import Mathlib.Data.Finset.Card

/-! Chains of references: where a chain ends, and how many of its references are followed until it
does or a reference is met again. -/

namespace ClientGen.Pointer

/-- A value whose reference leads to a map. -/
structure Next (root node : Node) (ref : String) (target : Node) : Prop where
  reference : reference? node = some ref
  resolved : resolve root ref = .ok target
  isMap : target.isMap

/-- Some references that are followed from a value, in order, and the value they lead to. -/
inductive Chain (root : Node) : Node → List String → Node → Prop
  | here (node : Node) : Chain root node [] node
  | next {node target last : Node} {ref : String} {refs : List String}
      (hnext : Next root node ref target) (hrest : Chain root target refs last) :
      Chain root node (ref :: refs) last

/-- A chain that ends at a map without a reference. -/
def Reaches (root node last : Node) : Prop :=
  last.isMap ∧ last.get? "$ref" = none ∧ ∃ refs, Chain root node refs last

/-- A chain that can always be continued. -/
def Endless (root node : Node) : Prop :=
  ∀ refs last, Chain root node refs last → ∃ ref target, Next root last ref target

/-- Every reference along the chain is a text. -/
def Textual (root node : Node) : Prop :=
  ∀ refs last, Chain root node refs last → ∀ value, last.get? "$ref" = some value →
    ∃ ref, value = .str ref

/-- How a reference fails after those in `met`, of which it may be one. -/
inductive Fails (root : Node) (met : List String) (ref : String) : ReferenceFault → Prop
  | circular (hmet : ref ∈ met) : Fails root met ref .circular
  | dangling {fault : ReferenceFault} (hnew : ref ∉ met) (hfault : Dangling fault)
      (hresolve : resolve root ref = .error (.unresolved ref fault)) : Fails root met ref fault
  | notObject {target : Node} (hnew : ref ∉ met) (hresolve : resolve root ref = .ok target)
      (hkind : target.isMap = false) : Fails root met ref .notObject

/-- The rounds that are made from a value, where the references in `met` have been followed: there
is one for each reference, which must not have been met. -/
inductive Rounds (root : Node) : List String → Node → Nat → Except Fault Node → Prop
  | done {met : List String} {node : Node} (hnone : node.get? "$ref" = none) :
      Rounds root met node 0 (.ok node)
  | failed {met : List String} {node : Node} {ref : String} {fault : ReferenceFault}
      (href : reference? node = some ref) (hfails : Fails root met ref fault) :
      Rounds root met node 1 (.error (.unresolved ref fault))
  | next {met : List String} {node target : Node} {ref : String} {rounds : Nat}
      {outcome : Except Fault Node} (hnew : ref ∉ met) (hnext : Next root node ref target)
      (hrest : Rounds root (met ++ [ref]) target rounds outcome) :
      Rounds root met node (rounds + 1) outcome

variable {root node last : Node} {ref : String} {refs met : List String}

theorem reference?_eq_none (h : node.get? "$ref" = none) : reference? node = none := by
  rw [reference?, h]
  rfl

theorem Next.unique {target other : Node} {ref' : String} (h : Next root node ref target)
    (hother : Next root node ref' other) : ref = ref' ∧ target = other := by
  obtain rfl := Option.some.inj (h.reference.symm.trans hother.reference)
  exact ⟨rfl, Except.ok.inj (h.resolved.symm.trans hother.resolved)⟩

namespace Chain

theorem isMap (h : Chain root node refs last) (hnode : node.isMap) : last.isMap := by
  induction h with
  | here node => exact hnode
  | next hnext _ ih => exact ih hnext.isMap

/-- Chains that cannot be continued have one end. -/
theorem unique {refs' : List String} {last' : Node} (h : Chain root node refs last)
    (hother : Chain root node refs' last') (hlast : ∀ ref target, ¬ Next root last ref target)
    (hlast' : ∀ ref target, ¬ Next root last' ref target) : last = last' := by
  induction h generalizing refs' with
  | here node =>
    cases hother with
    | here _ => rfl
    | next hnext _ => exact absurd hnext (hlast _ _)
  | next hnext _ ih =>
    cases hother with
    | here _ => exact absurd hnext (hlast' _ _)
    | next hnext' hrest' =>
      obtain ⟨rfl, rfl⟩ := hnext.unique hnext'
      exact ih hrest' hlast

/-- Each reference of a chain leads to a value that the chain goes on from. -/
theorem exists_target (h : Chain root node refs last) (hmem : ref ∈ refs) :
    ∃ target after, resolve root ref = .ok target ∧ target.isMap ∧
      Chain root target after last := by
  induction h with
  | here node => cases hmem
  | next hnext hrest ih =>
    rcases List.mem_cons.mp hmem with rfl | hmem
    · exact ⟨_, _, hnext.resolved, hnext.isMap, hrest⟩
    · exact ih hmem

/-- A chain whose end leads back into it never ends. -/
theorem endless {target : Node} {after : List String} (h : Chain root node refs last)
    (hnext : Next root last ref target) (hback : Chain root target after last) :
    Endless root node := by
  intro visited reached hreached
  -- every value that is reached has a chain to `last`
  have hreturn : ∃ rest, Chain root reached rest last := by
    induction hreached generalizing refs with
    | here node => exact ⟨refs, h⟩
    | next hstep _ ih =>
      cases h with
      | here _ =>
        obtain ⟨rfl, rfl⟩ := hnext.unique hstep
        exact ih hback
      | next hstep' hrest =>
        obtain ⟨rfl, rfl⟩ := hstep'.unique hstep
        exact ih hrest
  obtain ⟨rest, hrest⟩ := hreturn
  cases hrest with
  | here _ => exact ⟨_, _, hnext⟩
  | next hstep _ => exact ⟨_, _, hstep⟩

end Chain

/-- Where a reference fails the chain ends, unless the reference has been met before. -/
theorem Fails.not_next {fault : ReferenceFault} (h : Fails root met ref fault)
    (href : reference? node = some ref) (hfault : fault ≠ .circular) {ref' : String}
    {target : Node} : ¬ Next root node ref' target := by
  intro hnext
  obtain rfl := Option.some.inj (href.symm.trans hnext.reference)
  cases h with
  | circular _ => exact hfault rfl
  | dangling _ _ hresolve => cases hresolve.symm.trans hnext.resolved
  | notObject _ hresolve hkind =>
    obtain rfl := Except.ok.inj (hresolve.symm.trans hnext.resolved)
    exact absurd hnext.isMap (by simp [hkind])

/-- The references that may still be followed, where those in `met` have been. -/
structure Pending (root node : Node) (met pending : List String) : Prop where
  fresh : ∀ ref ∈ pending, ref ∉ met
  complete : ∀ ref ∈ references root ++ references node, ref ∈ met ∨ ref ∈ pending
  nodup : pending.Nodup

namespace Pending

variable {pending : List String}

theorem start (root node : Node) :
    Pending root node [] (references root ++ references node).eraseDups :=
  ⟨fun _ _ => List.not_mem_nil, fun _ href => .inr (List.mem_eraseDups.mpr href), nodup_eraseDups _⟩

theorem next {target : Node} (h : Pending root node met pending)
    (htarget : resolve root ref = .ok target) :
    Pending root target (met ++ [ref]) (pending.erase ref) := by
  refine ⟨fun other hother => ?_, fun other hother => ?_, h.nodup.erase ref⟩
  · obtain ⟨hne, hother⟩ := h.nodup.mem_erase_iff.mp hother
    simpa using ⟨h.fresh other hother, hne⟩
  · have hroot : other ∈ references root := by
      rcases List.mem_append.mp hother with hroot | hinner
      · exact hroot
      · exact references_resolve htarget hinner
    by_cases heq : other = ref
    · exact .inl (by simp [heq])
    · refine (h.complete other (List.mem_append_left _ hroot)).imp (List.mem_append_left _) ?_
      exact (List.mem_erase_of_ne heq).mpr

theorem mem_iff (h : Pending root node met pending) (href : reference? node = some ref) :
    ref ∈ pending ↔ ref ∉ met := by
  refine ⟨h.fresh ref, fun hnew => ?_⟩
  exact (h.complete ref (List.mem_append_right _ (reference?_mem href))).resolve_left hnew

end Pending

theorem length_eraseDups (l : List String) : l.eraseDups.length = l.toFinset.card := by
  rw [← List.toFinset_card_of_nodup (nodup_eraseDups l)]
  congr 1
  ext ref
  rw [List.mem_toFinset, List.mem_toFinset, List.mem_eraseDups]

theorem Textual.next {target : Node} (h : Textual root node) (hnext : Next root node ref target) :
    Textual root target :=
  fun _ last hchain => h _ last (.next hnext hchain)

/-- A chain makes at most one round more than there are references that may be followed. -/
theorem rounds_chase {pending : List String} (h : Pending root node met pending)
    (htexts : Textual root node) :
    ∃ rounds ≤ pending.length + 1, Rounds root met node rounds (chase root pending node) := by
  -- A reference that is followed is met from then on, and no longer pending.
  induction hlength : pending.length using Nat.strongRecOn generalizing met node pending with
  | ind n ih =>
    rw [chase_eq]
    cases hget : node.get? "$ref" with
    | none => exact ⟨0, by omega, .done hget⟩
    | some value =>
      obtain ⟨ref, rfl⟩ := htexts [] node (.here node) value hget
      have href : reference? node = some ref := by
        rw [reference?, hget]
        rfl
      dsimp only
      by_cases hpending : ref ∈ pending
      · rw [if_pos hpending]
        have hnew := (h.mem_iff href).mp hpending
        cases hresolve : resolve root ref with
        | error e =>
          obtain ⟨fault, rfl, hfault⟩ := dangling_of_resolve hresolve
          exact ⟨1, by omega, .failed href (.dangling hnew hfault hresolve)⟩
        | ok target =>
          rw [ok_bind]
          cases hmap : target.isMap with
          | false => exact ⟨1, by omega, .failed href (.notObject hnew hresolve hmap)⟩
          | true =>
            have hnext : Next root node ref target := ⟨href, hresolve, hmap⟩
            have herase : (pending.erase ref).length = n - 1 := by
              rw [List.length_erase_of_mem hpending, hlength]
            have hpos := List.length_pos_of_mem hpending
            obtain ⟨rounds, hrounds, hrest⟩ := ih (n - 1) (by omega) (h.next hresolve)
              (htexts.next hnext) herase
            exact ⟨rounds + 1, by omega, .next hnew hnext hrest⟩
      · rw [if_neg hpending]
        have hmet : ref ∈ met := by simpa using mt (h.mem_iff href).mpr hpending
        exact ⟨1, by omega, .failed href (.circular hmet)⟩

/-- The rounds follow the chain to its end, or to a reference that fails. -/
theorem Rounds.outcome {rounds : Nat} {outcome : Except Fault Node}
    (h : Rounds root met node rounds outcome) :
    ∃ refs last, Chain root node refs last ∧
      (last.get? "$ref" = none ∧ outcome = .ok last ∨
        ∃ ref fault, reference? last = some ref ∧ Fails root (met ++ refs) ref fault ∧
          outcome = .error (.unresolved ref fault)) := by
  induction h with
  | done hnone => exact ⟨[], _, .here _, .inl ⟨hnone, rfl⟩⟩
  | failed href hfails =>
    refine ⟨[], _, .here _, .inr ⟨_, _, href, ?_, rfl⟩⟩
    rwa [List.append_nil]
  | @next _ _ _ ref _ _ _ hnext _ ih =>
    obtain ⟨refs, last, hchain, hend⟩ := ih
    rw [List.append_assoc, List.singleton_append] at hend
    exact ⟨ref :: refs, last, .next hnext hchain, hend⟩

theorem not_next_of_get? (h : node.get? "$ref" = none) {target : Node} :
    ¬ Next root node ref target := by
  intro hnext
  cases (reference?_eq_none h).symm.trans hnext.reference

namespace Chain

variable {fault : ReferenceFault} (h : Chain root node refs last)
include h

/-- A reference at the end of a chain fails as one that has been met exactly if the chain never
ends. -/
theorem circular_iff (href : reference? last = some ref) (hfails : Fails root refs ref fault) :
    fault = .circular ↔ Endless root node := by
  constructor
  · rintro rfl
    cases hfails with
    | circular hmet =>
      obtain ⟨target, after, hresolve, hmap, hback⟩ := h.exists_target hmet
      exact h.endless ⟨href, hresolve, hmap⟩ hback
    | dangling _ hfault _ => cases hfault
  · intro hendless
    obtain ⟨_, _, hnext⟩ := hendless refs last h
    by_contra hfault
    exact hfails.not_next href hfault hnext

/-- A chain that ends at a map without a reference has no other end. -/
theorem reaches_iff (hmap : node.isMap) (hnone : last.get? "$ref" = none) {other : Node} :
    Reaches root node other ↔ other = last := by
  constructor
  · rintro ⟨-, hother, refs', hchain⟩
    exact hchain.unique h (fun _ _ => not_next_of_get? hother) fun _ _ => not_next_of_get? hnone
  · rintro rfl
    exact ⟨h.isMap hmap, hnone, refs, h⟩

/-- A chain that fails does not end at a map without a reference. -/
theorem not_reaches (href : reference? last = some ref) (hfails : Fails root refs ref fault)
    {other : Node} : ¬ Reaches root node other := by
  rintro ⟨-, hnone, refs', hchain⟩
  by_cases hfault : fault = .circular
  · obtain ⟨_, _, hnext⟩ := (h.circular_iff href hfails).mp hfault refs' other hchain
    exact not_next_of_get? hnone hnext
  · obtain rfl := hchain.unique h (fun _ _ => not_next_of_get? hnone) fun _ _ =>
      hfails.not_next href hfault
    cases (reference?_eq_none hnone).symm.trans href

end Chain

/-- Following references ends: after at most one round more than there are references in the
document and the value, it gives the map at the end of the chain, or else fails at a reference of
the chain. It fails at a reference that has been met before exactly if the chain never ends. -/
theorem dereference_ends {root node : Node} (hmap : node.isMap) (htexts : Textual root node) :
    (∃ rounds ≤ (references root ++ references node).toFinset.card + 1,
      Rounds root [] node rounds (dereference root node)) ∧
    (∀ last, dereference root node = .ok last ↔ Reaches root node last) ∧
    ((∀ last, ¬ Reaches root node last) →
      ∃ refs last ref fault, Chain root node refs last ∧ reference? last = some ref ∧
        Fails root refs ref fault ∧ dereference root node = .error (.unresolved ref fault)) ∧
    ((∃ ref, dereference root node = .error (.unresolved ref .circular)) ↔ Endless root node) := by
  obtain ⟨rounds, hle, hrounds⟩ := rounds_chase (Pending.start root node) htexts
  rw [← dereference] at hrounds
  refine ⟨⟨rounds, length_eraseDups _ ▸ hle, hrounds⟩, ?_⟩
  obtain ⟨refs, last, hchain, ⟨hnone, hok⟩ | ⟨ref, fault, href, hfails, herror⟩⟩ := hrounds.outcome
  · have hreaches (other : Node) : Reaches root node other ↔ other = last :=
      hchain.reaches_iff hmap hnone
    rw [hok]
    refine ⟨fun other => ?_, fun hno => absurd ((hreaches last).mpr rfl) (hno last), ?_⟩
    · rw [hreaches, Except.ok.injEq, eq_comm]
    · refine iff_of_false (by simp) fun hendless => ?_
      obtain ⟨_, _, hnext⟩ := hendless refs last hchain
      exact not_next_of_get? hnone hnext
  · rw [List.nil_append] at hfails
    rw [herror]
    refine ⟨fun other => iff_of_false (by simp) (hchain.not_reaches href hfails), fun _ => ?_, ?_⟩
    · exact ⟨refs, last, ref, fault, hchain, href, hfails, rfl⟩
    · rw [← hchain.circular_iff href hfails]
      simp

namespace PetCycle

def first : Node := .map [(.str "$ref", .str "#/parameters/1")]

def second : Node := .map [(.str "$ref", .str "#/parameters/01")]

def document : Node := .map [(.str "parameters", .list [first, second])]

def start : Node := .map [(.str "$ref", .str "#/parameters/0")]

theorem next_start : Next document start "#/parameters/0" first := ⟨rfl, rfl, rfl⟩

theorem next_first : Next document first "#/parameters/1" second := ⟨rfl, rfl, rfl⟩

theorem next_second : Next document second "#/parameters/01" second := ⟨rfl, rfl, rfl⟩

theorem endless_start : Endless document start :=
  (Chain.next next_start (.next next_first (.here second))).endless next_second (.here second)

theorem textual_start : Textual document start := by
  have hreached {node last : Node} {refs : List String} (h : Chain document node refs last)
      (hnode : node = start ∨ node = first ∨ node = second) :
      last = start ∨ last = first ∨ last = second := by
    induction h with
    | here _ => exact hnode
    | next hnext _ ih =>
      refine ih ?_
      rcases hnode with rfl | rfl | rfl
      · exact .inr (.inl (next_start.unique hnext).2.symm)
      · exact .inr (.inr (next_first.unique hnext).2.symm)
      · exact .inr (.inr (next_second.unique hnext).2.symm)
  intro refs last h value hvalue
  rcases hreached h (.inl rfl) with rfl | rfl | rfl
  all_goals exact ⟨_, (Option.some.inj hvalue).symm⟩

/-- The chain goes round at its end, where two references spell the position of one value. -/
theorem dereference_cycle : (start.isMap ∧ Textual document start) ∧
    (∃ rounds ≤ (references document ++ references start).toFinset.card + 1,
      Rounds document [] start rounds (dereference document start)) ∧
    ∃ ref, dereference document start = .error (.unresolved ref .circular) := by
  obtain ⟨hrounds, -, -, hcircular⟩ := dereference_ends (rfl : start.isMap) textual_start
  exact ⟨⟨rfl, textual_start⟩, hrounds, hcircular.mpr endless_start⟩

end PetCycle

end ClientGen.Pointer
