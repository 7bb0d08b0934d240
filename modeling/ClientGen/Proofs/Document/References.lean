import ClientGen.Document.Pointer
import ClientGen.Proofs.Outcome
import Mathlib.Data.List.Nodup
import Mathlib.Tactic.SplitIfs

/-! References in a value and in the parts of it. -/

namespace ClientGen

namespace Scalar

theorem sameKey_str {key : Scalar} {s : String} : key.sameKey (.str s) ↔ key = .str s := by
  cases key <;> simp [sameKey, number?]

theorem str_sameKey {key : Scalar} {s : String} : (str s).sameKey key ↔ key = .str s := by
  cases key with
  | str t => simpa [sameKey, number?] using eq_comm
  | _ => simp [sameKey, number?]

end Scalar

/-- A value that is found stands at the key itself. -/
theorem Entries.mem_of_get? {es : Entries} {key : String} {value : Node}
    (h : es.get? key = some value) : (.str key, value) ∈ es := by
  obtain ⟨⟨k, v⟩, hf, rfl⟩ := Option.map_eq_some_iff.mp h
  have hkey : k.sameKey (.str key) := by
    simpa using List.find?_some hf
  obtain rfl := Scalar.sameKey_str.mp hkey
  exact List.mem_of_find?_eq_some hf

theorem Entries.isSome_get? {es : Entries} {key : String} :
    (es.get? key).isSome ↔ .str key ∈ es.map Prod.fst := by
  constructor
  · intro h
    obtain ⟨value, hvalue⟩ := Option.isSome_iff_exists.mp h
    exact List.mem_map_of_mem (Entries.mem_of_get? hvalue)
  · intro h
    obtain ⟨⟨k, value⟩, he, rfl⟩ := List.mem_map.mp h
    unfold get? find?
    rw [Option.isSome_map, List.find?_isSome]
    exact ⟨_, he, Scalar.sameKey_str.mpr rfl⟩

theorem Node.mem_of_get? {node value : Node} {key : String} (h : node.get? key = some value) :
    ∃ es, node = .map es ∧ (.str key, value) ∈ es := by
  cases node with
  | map es => exact ⟨es, rfl, Entries.mem_of_get? h⟩
  | scalar s => cases h
  | list items => cases h

/-- A member that is not nothing stands at its key. -/
theorem Node.get?_of_member {node value : Node} {key : String} (h : node.member key = .ok value)
    (hvalue : value ≠ .null) : node.get? key = some value := by
  cases node with
  | map es =>
    obtain rfl := Except.ok.inj h
    change Entries.get? es key = some ((Entries.get? es key).getD .null)
    cases hget : Entries.get? es key with
    | none =>
      rw [hget] at hvalue
      exact absurd rfl hvalue
    | some v => rfl
  | scalar s => cases h
  | list items => cases h

theorem Node.text?_eq_some {node : Node} {s : String} : node.text? = some s ↔ node = .str s := by
  unfold text?
  split
  · simp
  · next hne =>
    simp only [reduceCtorEq, false_iff]
    exact hne s

theorem Node.get?_of_required {node value : Node} {key : String}
    (h : node.required key = .ok value) : node.get? key = some value := by
  cases node with
  | map es =>
    unfold required at h
    dsimp only at h
    split at h
    · next found hget => exact hget.trans (congrArg some (Except.ok.inj h))
    · cases h
  | scalar s => cases h
  | list items => cases h

section Found

variable {node value : Node} {key : String} (h : node.get? key = some value)
include h

theorem Node.mentions_of_get? : node.mentions key = .ok true := by
  obtain ⟨es, rfl, -⟩ := Node.mem_of_get? h
  exact congrArg (fun found => Except.ok (Option.isSome found)) h

theorem Node.required_of_get? : node.required key = .ok value := by
  obtain ⟨es, rfl, -⟩ := Node.mem_of_get? h
  rw [Node.required, show Entries.get? es key = some value from h]

theorem Node.member_of_get? : node.member key = .ok value := by
  obtain ⟨es, rfl, -⟩ := Node.mem_of_get? h
  exact congrArg (fun found => Except.ok (Option.getD found .null)) h

end Found

section Map

variable {node : Node} (h : node.isMap) (key : String)
include h

theorem Node.member_eq_ok : node.member key = .ok ((node.get? key).getD .null) := by
  cases node with
  | map es => rfl
  | scalar s => cases h
  | list items => cases h

theorem Node.mentions_eq_ok : node.mentions key = .ok (node.get? key).isSome := by
  cases node with
  | map es => rfl
  | scalar s => cases h
  | list items => cases h

end Map

namespace Pointer

theorem nodup_eraseDups (l : List String) : l.eraseDups.Nodup := by
  match l with
  | [] => exact List.nodup_nil
  | a :: rest =>
    rw [List.eraseDups_cons]
    exact List.nodup_cons.mpr ⟨by simp, nodup_eraseDups _⟩
termination_by l.length
decreasing_by
  have hle := (List.filter_sublist (p := fun b => !b == a) (l := rest)).length_le
  simp only [List.length_cons]
  omega

theorem references_item {item : Node} {items : List Node} (h : item ∈ items) :
    references item ⊆ references (.list items) := by
  rw [references]
  induction items with
  | nil => exact absurd h List.not_mem_nil
  | cons first rest ih =>
    rw [referencesOfItems]
    rcases List.mem_cons.mp h with rfl | h
    · exact List.subset_append_left _ _
    · exact List.Subset.trans (ih h) (List.subset_append_right _ _)

/-- The references in a map are those in its values, and the one at its `$ref`. -/
theorem mem_references_map {es : Entries} {ref : String} :
    ref ∈ references (.map es) ↔
      ∃ e ∈ es, e = (.str "$ref", .str ref) ∨ ref ∈ references e.2 := by
  rw [references]
  induction es with
  | nil => simp [referencesOfEntries]
  | cons first rest ih =>
    obtain ⟨key, value⟩ := first
    rw [referencesOfEntries.eq_def]
    simp only [List.mem_append, ih, List.exists_mem_cons_iff]
    refine or_congr (or_congr ?_ Iff.rfl) Iff.rfl
    split
    · simp [eq_comm]
    · next hno =>
      simp only [List.not_mem_nil, false_iff]
      exact fun heq => hno _ (congrArg Prod.fst heq) (congrArg Prod.snd heq)

theorem references_entry {key : Scalar} {value : Node} {es : Entries} (h : (key, value) ∈ es) :
    references value ⊆ references (.map es) :=
  fun _ href => mem_references_map.mpr ⟨_, h, .inr href⟩

theorem references_get? {node value : Node} {key : String} (h : node.get? key = some value) :
    references value ⊆ references node := by
  obtain ⟨es, rfl, hmem⟩ := Node.mem_of_get? h
  exact references_entry hmem

/-- The reference of a value is one of those in it. -/
theorem reference?_mem {node : Node} {ref : String} (h : reference? node = some ref) :
    ref ∈ references node := by
  obtain ⟨value, hvalue, htext⟩ := Option.bind_eq_some_iff.mp h
  obtain ⟨es, rfl, hmem⟩ := Node.mem_of_get? hvalue
  obtain rfl := Node.text?_eq_some.mp htext
  exact mem_references_map.mpr ⟨_, hmem, .inl rfl⟩

/-- A step along a chain of references. -/
theorem chase_eq (root : Node) (pending : List String) (node : Node) :
    chase root pending node =
      match node.get? "$ref" with
      | none => .ok node
      | some (.scalar (.str ref)) =>
        if ref ∈ pending then do
          let target ← resolve root ref
          if target.isMap then chase root (pending.erase ref) target
          else .error (.unresolved ref .notObject)
        else .error (.unresolved ref .circular)
      | some (.scalar _) => .error (.malformed .noFeature)
      | some _ => .error (.malformed .wrongKind) := by
  cases node with
  | map es =>
    rw [chase]
    rfl
  | _ =>
    rw [chase]
    · rfl
    · simp

theorem mem_of_itemAt? {items : List Node} {position : Int} {item : Node}
    (h : itemAt? items position = some item) : item ∈ items := by
  unfold itemAt? at h
  split_ifs at h
  · exact List.mem_of_getElem? h
  · exact List.mem_of_getElem? h

section Inherited

variable {P : Node → Prop} (items : ∀ is, P (.list is) → ∀ item ∈ is, P item)
  (values : ∀ es, P (.map es) → ∀ e ∈ es, P e.2)
include items values

theorem inherited_step {node value : Node} {segment : String} (hnode : P node)
    (h : step node segment = .ok value) : P value := by
  unfold step at h
  split at h
  · split at h
    · next hget =>
      obtain rfl := Except.ok.inj h
      exact values _ hnode _ (Entries.mem_of_get? hget)
    · cases h
  · split at h
    · next hitem =>
      obtain rfl := Except.ok.inj h
      obtain ⟨position, -, hitem⟩ := Option.bind_eq_some_iff.mp hitem
      exact items _ hnode _ (mem_of_itemAt? hitem)
    · cases h
  · cases h

theorem inherited_walk {node value : Node} {segments : List String} (hnode : P node)
    (h : walk node segments = .ok value) : P value := by
  induction segments generalizing node with
  | nil => exact Except.ok.inj h ▸ hnode
  | cons segment rest ih =>
    obtain ⟨next, hstep, hrest⟩ := bind_eq_ok.mp h
    exact ih (inherited_step items values hnode hstep) hrest

/-- What the parts of a value inherit from it holds of what its references point to. -/
theorem inherited_resolve {root value : Node} {ref : String} (hroot : P root)
    (h : resolve root ref = .ok value) : P value := by
  unfold resolve at h
  split at h
  · cases h
  · split at h
    · next hwalk => exact Except.ok.inj h ▸ inherited_walk items values hroot hwalk
    · cases h

end Inherited

/-- A reference that leads nowhere: outside of the document, or past a value on the way. -/
inductive Dangling : ReferenceFault → Prop
  | external : Dangling .external
  | missingKey (segment : String) : Dangling (.missingKey segment)
  | badIndex (segment : String) : Dangling (.badIndex segment)
  | notContainer (kind : String) : Dangling (.notContainer kind)

theorem dangling_of_step {node : Node} {segment : String} {fault : ReferenceFault}
    (h : step node segment = .error fault) : Dangling fault := by
  unfold step at h
  split at h
  · split at h
    · cases h
    · exact Except.error.inj h ▸ .missingKey segment
  · split at h
    · cases h
    · exact Except.error.inj h ▸ .badIndex segment
  · exact Except.error.inj h ▸ .notContainer _

theorem dangling_of_walk {node : Node} {segments : List String} {fault : ReferenceFault}
    (h : walk node segments = .error fault) : Dangling fault := by
  induction segments generalizing node with
  | nil => cases h
  | cons segment rest ih =>
    rw [walk] at h
    cases hstep : step node segment with
    | error e =>
      rw [hstep, error_bind] at h
      exact Except.error.inj h ▸ dangling_of_step hstep
    | ok next =>
      rw [hstep, ok_bind] at h
      exact ih h

/-- A reference that cannot be followed is reported as dangling, and in no other way. -/
theorem dangling_of_resolve {root : Node} {ref : String} {e : Fault}
    (h : resolve root ref = .error e) : ∃ fault, e = .unresolved ref fault ∧ Dangling fault := by
  unfold resolve at h
  split at h
  · exact ⟨_, (Except.error.inj h).symm, .external⟩
  · split at h
    · cases h
    · next hwalk => exact ⟨_, (Except.error.inj h).symm, dangling_of_walk hwalk⟩

/-- Following a reference leads to no references from outside of the document. -/
theorem references_resolve {root value : Node} {ref : String} (h : resolve root ref = .ok value) :
    references value ⊆ references root := by
  let inner (node : Node) : Prop := references node ⊆ references root
  have hitems (is : List Node) (his : inner (.list is)) : ∀ item ∈ is, inner item :=
    fun item hitem => List.Subset.trans (references_item hitem) his
  have hvalues (es : Entries) (hes : inner (.map es)) : ∀ e ∈ es, inner e.2 :=
    fun e he => List.Subset.trans (references_entry he) hes
  exact inherited_resolve hitems hvalues (List.Subset.refl (references root)) h

end Pointer

end ClientGen
