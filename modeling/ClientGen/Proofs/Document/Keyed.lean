import ClientGen.Proofs.Document.References

/-! Documents in which no map holds a key twice, as those that are read. -/

namespace ClientGen

namespace Entries

/-- No key stands twice among entries. -/
def Distinct (es : Entries) : Prop := es.Pairwise fun a b => a.1.sameKey b.1 = false

theorem get?_cons_self {key : String} {value : Node} {rest : Entries} :
    get? ((.str key, value) :: rest) key = some value := by
  unfold get? find?
  rw [List.find?_cons_of_pos (by exact Scalar.sameKey_str.mpr rfl)]
  rfl

theorem get?_cons_of_ne {k : Scalar} {key : String} {value : Node} {rest : Entries}
    (h : k ≠ .str key) : get? ((k, value) :: rest) key = rest.get? key := by
  unfold get? find?
  rw [List.find?_cons_of_neg (by exact mt Scalar.sameKey_str.mp h)]

variable (es : Entries)

theorem get?_insert_self (key : String) (value : Node) :
    (es.insert (.str key) value).get? key = some value := by
  induction es with
  | nil => exact get?_cons_self
  | cons e rest ih =>
    obtain ⟨k, v⟩ := e
    rw [insert]
    by_cases hk : k.sameKey (.str key) = true
    · obtain rfl := Scalar.sameKey_str.mp hk
      rw [if_pos hk, get?_cons_self]
    · rw [if_neg hk, get?_cons_of_ne (mt Scalar.sameKey_str.mpr hk), ih]

theorem get?_insert_of_ne {key : Scalar} {other : String} (value : Node) (h : key ≠ .str other) :
    (es.insert key value).get? other = es.get? other := by
  induction es with
  | nil => exact get?_cons_of_ne h
  | cons e rest ih =>
    obtain ⟨k, v⟩ := e
    rw [insert]
    by_cases hother : k = .str other
    · subst hother
      rw [if_neg (mt Scalar.str_sameKey.mp h), get?_cons_self, get?_cons_self]
    · by_cases hk : k.sameKey key = true
      · rw [if_pos hk, get?_cons_of_ne hother, get?_cons_of_ne hother]
      · rw [if_neg hk, get?_cons_of_ne hother, get?_cons_of_ne hother, ih]

end Entries

namespace Node

/-- No map of a document holds a key twice. -/
inductive Keyed : Node → Prop
  | scalar (s : Scalar) : Keyed (.scalar s)
  | list {items : List Node} (items_keyed : ∀ item ∈ items, item.Keyed) : Keyed (.list items)
  | map {es : Entries} (distinct : es.Distinct) (values : ∀ e ∈ es, e.2.Keyed) : Keyed (.map es)

namespace Keyed

theorem item {items : List Node} {item : Node} (h : (Node.list items).Keyed) (hi : item ∈ items) :
    item.Keyed := by
  cases h with | list hitems => exact hitems item hi

theorem value {es : Entries} {e : Scalar × Node} (h : (Node.map es).Keyed) (he : e ∈ es) :
    e.2.Keyed := by
  cases h with | map _ values => exact values e he

theorem distinct {es : Entries} (h : (Node.map es).Keyed) : es.Distinct := by
  cases h with | map distinct => exact distinct

theorem get? {node value : Node} {key : String} (h : node.Keyed) (hv : node.get? key = some value) :
    value.Keyed := by
  obtain ⟨es, rfl, he⟩ := Node.mem_of_get? hv
  exact h.value he

theorem resolve {root value : Node} {ref : String} (h : root.Keyed)
    (hv : Pointer.resolve root ref = .ok value) : value.Keyed :=
  Pointer.inherited_resolve (fun _ his _ hi => his.item hi) (fun _ hes _ he => hes.value he) h hv

end Keyed

end Node

end ClientGen
