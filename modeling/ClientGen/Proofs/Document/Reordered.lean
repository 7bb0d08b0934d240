import ClientGen.Proofs.Document.References
import ClientGen.Proofs.Text.Splitting
import Mathlib.Data.List.Nodup

/-! Documents in which the entries of one map stand in another order. -/

namespace ClientGen

namespace Entries

/-- Where no key stands twice, a key holds the value that stands with it. -/
theorem get?_eq_some_iff {es : Entries} (hnodup : (es.map Prod.fst).Nodup) {key : String}
    {value : Node} : es.get? key = some value ↔ (.str key, value) ∈ es := by
  constructor
  · exact mem_of_get?
  · intro h
    obtain ⟨found, hfound⟩ :=
      Option.isSome_iff_exists.mp (isSome_get?.mpr (List.mem_map_of_mem h))
    have hsame := List.inj_on_of_nodup_map hnodup (mem_of_get? hfound) h rfl
    rw [hfound, (Prod.mk.inj hsame).2]

/-- The order of entries with different keys does not matter for what a key holds. -/
theorem get?_perm {es fs : Entries} (h : es.Perm fs) (hnodup : (es.map Prod.fst).Nodup)
    (key : String) : es.get? key = fs.get? key := by
  have hfs : (fs.map Prod.fst).Nodup := (h.map Prod.fst).nodup_iff.mp hnodup
  ext value
  rw [get?_eq_some_iff hnodup, get?_eq_some_iff hfs, h.mem_iff]

variable {before after : Entries} {key : String} {value : Node}

theorem get?_append_cons_self (h : .str key ∉ before.map Prod.fst) :
    get? (before ++ (.str key, value) :: after) key = some value := by
  have hnone : List.find? (fun e => e.1.sameKey (.str key)) before = none :=
    List.find?_eq_none.mpr fun e he hkey =>
      h (Scalar.sameKey_str.mp hkey ▸ List.mem_map_of_mem he)
  unfold get? find?
  rw [List.find?_append, hnone, Option.none_or,
    List.find?_cons_of_pos (by exact Scalar.sameKey_str.mpr rfl)]
  rfl

theorem get?_append_cons_ne {other : String} (h : other ≠ key) :
    get? (before ++ (.str key, value) :: after) other = get? (before ++ after) other := by
  have hkey : ¬ (Scalar.str key).sameKey (.str other) := fun hsame =>
    h (Scalar.str.inj (Scalar.sameKey_str.mp hsame)).symm
  unfold get? find?
  rw [List.find?_append, List.find?_append, List.find?_cons_of_neg (by exact hkey)]

end Entries

namespace Node

/-- A document with other entries in the map that some keys lead to. -/
inductive ReplacedAt (ds es : Entries) : List String → Node → Node → Prop
  | here : ReplacedAt ds es [] (.map ds) (.map es)
  | under {key keys value other} (before : Entries) {after : Entries}
      (hkey : .str key ∉ before.map Prod.fst) (h : ReplacedAt ds es keys value other) :
      ReplacedAt ds es (key :: keys) (.map (before ++ (.str key, value) :: after))
        (.map (before ++ (.str key, other) :: after))

/-- Values of two documents whose named schemas stand in another order: the same value, or maps
with the same members, the named schemas apart, and with the same references. -/
inductive Alike : Node → Node → Prop
  | same (node : Node) : Alike node node
  | maps {es fs : Entries} (members : ∀ key ≠ "schemas", es.get? key = fs.get? key)
      (references : ∀ ref,
        ref ∈ Pointer.references (.map es) ↔ ref ∈ Pointer.references (.map fs)) :
      Alike (.map es) (.map fs)

namespace Alike

variable {a b : Node} (h : a.Alike b)
include h

theorem isMap : a.isMap = b.isMap := by
  cases h <;> rfl

theorem get? {key : String} (hkey : key ≠ "schemas") : a.get? key = b.get? key := by
  cases h with
  | same => rfl
  | maps members => exact members key hkey

theorem member {key : String} (hkey : key ≠ "schemas") : a.member key = b.member key := by
  cases h with
  | same => rfl
  | maps members => rw [Node.member, Node.member, members key hkey]

theorem required {key : String} (hkey : key ≠ "schemas") : a.required key = b.required key := by
  cases h with
  | same => rfl
  | maps members => rw [Node.required, Node.required, members key hkey]

theorem mentions {key : String} (hkey : key ≠ "schemas") : a.mentions key = b.mentions key := by
  cases h with
  | same => rfl
  | maps members => rw [Node.mentions, Node.mentions, members key hkey]

theorem reference? : Pointer.reference? a = Pointer.reference? b := by
  unfold Pointer.reference?
  rw [h.get? (by decide)]

theorem mem_references (ref : String) :
    ref ∈ Pointer.references a ↔ ref ∈ Pointer.references b := by
  cases h with
  | same => rfl
  | maps _ references => exact references ref

end Alike

namespace ReplacedAt

variable {ds es : Entries} {keys : List String} {value other : Node}

theorem isMap (h : ReplacedAt ds es keys value other) : value.isMap ∧ other.isMap := by
  cases h <;> exact ⟨rfl, rfl⟩

/-- A document has the same references in any order of its entries. -/
theorem mem_references (hperm : ds.Perm es) (h : ReplacedAt ds es keys value other)
    (ref : String) : ref ∈ Pointer.references value ↔ ref ∈ Pointer.references other := by
  induction h with
  | here => simp only [Pointer.mem_references_map, hperm.mem_iff]
  | @under key _ value other _ _ _ h ih =>
    have hentry : (.str key, value) = (Scalar.str "$ref", Node.str ref) ↔
        (.str key, other) = (Scalar.str "$ref", Node.str ref) := by
      obtain ⟨hvalue, hother⟩ := h.isMap
      constructor <;> intro heq <;> obtain ⟨-, rfl⟩ := Prod.mk.inj heq <;> contradiction
    simp only [Pointer.mem_references_map, List.mem_append, List.mem_cons, or_and_right, exists_or,
      exists_eq_left, ih, hentry]

theorem alike (hperm : ds.Perm es) (hnodup : (ds.map Prod.fst).Nodup)
    (hkeys : keys = [] ∨ keys = ["schemas"]) (h : ReplacedAt ds es keys value other) :
    value.Alike other := by
  have hreferences := h.mem_references hperm
  cases h with
  | here => exact .maps (fun key _ => Entries.get?_perm hperm hnodup key) hreferences
  | under _ _ h =>
    obtain ⟨rfl, -⟩ := List.cons.inj (hkeys.resolve_left (List.cons_ne_nil _ _))
    refine .maps (fun key hne => ?_) hreferences
    rw [Entries.get?_append_cons_ne hne, Entries.get?_append_cons_ne hne]

end ReplacedAt

end Node

namespace Pointer

open Node

/-- A local reference takes at least one step. -/
theorem segments?_ne_nil {ref : String} {segments : List String}
    (h : segments? ref = some segments) : segments ≠ [] := by
  unfold segments? at h
  split at h
  · obtain rfl := Option.some.inj h
    simpa using Text.splitOn_ne_nil _ _
  · cases h

/-- What a reference leads to in two documents with different entries in the map at a place: the
same value, or the values where it stops on the way to the place. -/
def Counterparts (ds es : Entries) (place : List String) (ref : String) (a b : Node) : Prop :=
  a = b ∨ ∃ segments rest, segments? ref = some segments ∧ place = segments ++ rest ∧
    ReplacedAt ds es rest a b

section

variable {ds es : Entries} (hget : ∀ key, ds.get? key = es.get? key) {place : List String}
  {root other : Node}
include hget

/-- The same steps into two documents end in the same way, or before the place is left behind. -/
theorem related_walk (h : ReplacedAt ds es place root other) (segments : List String) :
    Related (fun a b => a = b ∨ ∃ rest, place = segments ++ rest ∧ ReplacedAt ds es rest a b)
      (walk root segments) (walk other segments) := by
  have hsame {a b : Node} {segment : String} {rest : List String}
      {R : Node → Node → Prop} (hR : ∀ a, R a a) (hstep : step a segment = step b segment) :
      Related R (walk a (segment :: rest)) (walk b (segment :: rest)) := by
    rw [walk, walk, hstep]
    exact .refl hR _
  induction segments generalizing place root other with
  | nil => exact .ok (.inr ⟨place, rfl, h⟩)
  | cons segment rest ih =>
    cases h with
    | here =>
      refine hsame (fun _ => .inl rfl) ?_
      rw [step, step, hget]
    | @under key _ _ _ before after hkey h =>
      by_cases hseg : segment = key
      · subst hseg
        have hstep {v : Node} :
            step (.map (before ++ (.str segment, v) :: after)) segment = .ok v := by
          rw [step, Entries.get?_append_cons_self hkey]
        rw [walk, walk, hstep, hstep]
        refine (ih h).imp fun a b hab => hab.imp_right ?_
        rintro ⟨rest', rfl, hrest⟩
        exact ⟨rest', rfl, hrest⟩
      · refine hsame (fun _ => .inl rfl) ?_
        rw [step, step, Entries.get?_append_cons_ne hseg, Entries.get?_append_cons_ne hseg]

theorem related_resolve (h : ReplacedAt ds es place root other) (ref : String) :
    Related (Counterparts ds es place ref) (resolve root ref) (resolve other ref) := by
  unfold resolve
  cases hsegments : segments? ref with
  | none => exact .error _
  | some segments =>
    have hwalk := related_walk hget h segments
    dsimp only
    generalize walk root segments = x, walk other segments = y at hwalk ⊢
    cases hwalk with
    | error fault => exact .error (Fault.unresolved ref fault)
    | ok hab =>
      refine .ok (hab.imp_right ?_)
      rintro ⟨rest, hplace, hrest⟩
      exact ⟨segments, rest, hsegments, hplace, hrest⟩

end

/-- The last reference of the chain of references from a value. -/
inductive EndsAt (root : Node) : Node → String → Prop
  | last {node target ref} (hr : reference? node = some ref) (ht : resolve root ref = .ok target)
      (hend : target.get? "$ref" = none) : EndsAt root node ref
  | step {node target ref final} (hr : reference? node = some ref)
      (ht : resolve root ref = .ok target) (h : EndsAt root target final) : EndsAt root node final

section

variable {root other : Node} {R : String → Node → Node → Prop}
  (hR : ∀ ref, Related (R ref) (resolve root ref) (resolve other ref))
  (halike : ∀ {ref a b}, R ref a b → a.Alike b)
include hR halike

/-- Two chains of references from alike values have the same references and the same end: a value
without a reference is its own end, and any other end is what the last reference leads to. -/
theorem related_chase {p q : List String} (hpq : p.Perm q) {a b : Node} (h : a.Alike b) :
    Related (fun x y => a.get? "$ref" = none ∧ x = a ∧ y = b ∨ ∃ ref, EndsAt root a ref ∧ R ref x y)
      (chase root p a) (chase other q b) := by
  induction hn : p.length using Nat.strongRecOn generalizing p q a b with
  | ind n ih =>
    rw [chase_eq, chase_eq, ← h.get? (by decide)]
    cases hget : a.get? "$ref" with
    | none => exact .ok (.inl ⟨rfl, rfl, rfl⟩)
    | some value =>
    cases value with
    | list items => exact .error _
    | map es => exact .error _
    | scalar s =>
    cases s with
    | str ref =>
      have hr : reference? a = some ref := by rw [reference?, hget]; rfl
      dsimp only
      by_cases hp : ref ∈ p
      · rw [if_pos hp, if_pos (hpq.mem_iff.mp hp)]
        have hresolve := hR ref
        generalize ht : resolve root ref = x, resolve other ref = y at hresolve ⊢
        cases hresolve with
        | error e => exact .error e
        | @ok target counterpart htarget =>
          have htargets := halike htarget
          rw [ok_bind, ok_bind, ← htargets.isMap]
          split
          · have hlength : (p.erase ref).length < n := by
              rw [List.length_erase_of_mem hp]
              have hpos := List.length_pos_of_mem hp
              omega
            refine (ih _ hlength (hpq.erase ref) htargets rfl).imp fun x y hxy => .inr ?_
            rcases hxy with ⟨hend, rfl, rfl⟩ | ⟨final, hfinal, hxy⟩
            · exact ⟨ref, .last hr ht hend, htarget⟩
            · exact ⟨final, .step hr ht hfinal, hxy⟩
          · exact .error _
      · rw [if_neg hp, if_neg fun hq => hp (hpq.mem_iff.mpr hq)]
        exact .error _
    | _ => exact .error _

/-- A value that both documents hold leads to itself, or to what its last reference leads to. -/
theorem related_dereference (hreferences : ∀ ref, ref ∈ references root ↔ ref ∈ references other)
    (node : Node) :
    Related (fun x y => x = y ∨ ∃ ref, EndsAt root node ref ∧ R ref x y) (dereference root node)
      (dereference other node) := by
  have hperm : (references root ++ references node).eraseDups.Perm
      (references other ++ references node).eraseDups := by
    rw [List.perm_ext_iff_of_nodup (nodup_eraseDups _) (nodup_eraseDups _)]
    simp [hreferences]
  refine (related_chase hR halike hperm (.same node)).imp fun x y hxy => ?_
  exact hxy.imp_left fun ⟨_, hx, hy⟩ => hx.trans hy.symm

end

end Pointer

end ClientGen
