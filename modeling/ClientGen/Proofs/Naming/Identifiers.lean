import ClientGen.Naming.Fresh
import ClientGen.Proofs.Number.Integers
import ClientGen.Proofs.Schema.TypeExpr

/-! When the names of classes and methods are identifiers: a letter has to be in the right place of
the text that they are made of. -/

namespace ClientGen

/-- A name that does not start with a digit. -/
def IsIdentifier (s : String) : Prop := IsName s ∧ ¬ (s.toList.headD ' ').isDigit

instance (s : String) : Decidable (IsIdentifier s) :=
  inferInstanceAs (Decidable (IsName s ∧ ¬ (s.toList.headD ' ').isDigit))

/-- An identifier that ends as the classes of services do. -/
def IsClassName (s : String) : Prop := IsIdentifier s ∧ "Service".toList <:+ s.toList

instance (s : String) : Decidable (IsClassName s) :=
  inferInstanceAs (Decidable (IsIdentifier s ∧ "Service".toList <:+ s.toList))

theorem not_isIdentifier_empty : ¬ IsIdentifier "" := fun h => h.1.1 rfl

namespace Naming

/-- Letters and digits are an identifier if the first of them is a letter. -/
theorem isIdentifier_iff {s : String} (h : ∀ c ∈ s.toList, isNameChar c) :
    IsIdentifier s ↔ s.toList.head?.any Char.isAlpha := by
  have hpart : ∀ c ∈ s.toList, isNamePart c := fun c hc =>
    Bool.or_eq_true_iff.mpr (.inl (h c hc))
  cases hs : s.toList with
  | nil =>
    have hempty : s = "" := String.toList_eq_nil_iff.mp hs
    simpa [hempty] using not_isIdentifier_empty
  | cons c rest =>
    have hne : s ≠ "" := fun hempty => by simp [hempty] at hs
    have hc : isNameChar c := h c (hs ▸ List.mem_cons_self)
    simp only [List.head?_cons, Option.any_some]
    constructor
    · intro hid
      have hdigit : ¬ c.isDigit := by simpa [hs] using hid.2
      exact (isAlpha_or_isDigit hc).resolve_right hdigit
    · intro halpha
      refine ⟨⟨hne, hpart⟩, ?_⟩
      simpa [hs] using not_isDigit_of_isAlpha halpha

/-- Whether the first letter or digit of a text is a letter. -/
def startsWithLetter (s : String) : Bool := (s.toList.find? isNameChar).any Char.isAlpha

/-- A class is named as one if the first letter or digit of its text is a letter. -/
theorem isClassName_serviceClassName_iff (s : String) :
    IsClassName (serviceClassName s) ↔ startsWithLetter s := by
  have hletter : (serviceClassName s).toList.head?.any Char.isAlpha = startsWithLetter s := by
    rw [head?_serviceClassName, startsWithLetter]
    cases hfound : s.toList.find? isNameChar with
    | none => rfl
    | some c => exact isAlpha_toUpper (List.find?_some hfound)
  have hid : IsIdentifier (serviceClassName s) ↔ startsWithLetter s := by
    rw [← hletter]
    exact isIdentifier_iff (isNameChar_of_mem_serviceClassName s)
  constructor
  · intro h
    exact hid.mp h.1
  · intro h
    have hident := hid.mpr h
    exact ⟨hident, suffix_serviceClassName hident.1.1⟩

theorem IsCamel.isIdentifier {s : String} (h : IsCamel s.toList) : IsIdentifier s := by
  obtain ⟨c, rest, heq, hc, hrest⟩ := h
  have halpha : c.isAlpha := Bool.or_eq_true_iff.mpr (.inr hc)
  have hall : ∀ d ∈ s.toList, isNameChar d := by
    rw [heq]
    exact List.forall_mem_cons.mpr ⟨isNameChar_of_isAlpha halpha, hrest⟩
  rw [isIdentifier_iff hall, heq]
  simpa using halpha

/-- A method is named by an identifier if there is a letter in its text. -/
theorem isIdentifier_operationName_iff (s : String) :
    IsIdentifier (operationName s) ↔ s.toList.any Char.isAlpha := by
  rw [List.any_eq_true]
  rcases memberName_cases s with ⟨hletter, hcamel⟩ | ⟨hnone, hempty⟩
  · exact iff_of_true hcamel.isIdentifier hletter
  · refine iff_of_false ?_ ?_
    · rw [operationName, hempty]
      exact not_isIdentifier_empty
    · rintro ⟨c, hc, halpha⟩
      exact hnone c hc halpha

/-- What follows after the first character has to be made of name characters. -/
theorem isIdentifier_append_iff {base ending : String} (hbase : base ≠ "")
    (hending : ∀ c ∈ ending.toList, isNamePart c) :
    IsIdentifier (base ++ ending) ↔ IsIdentifier base := by
  have hne : base.toList ≠ [] := fun hnil => hbase (String.toList_eq_nil_iff.mp hnil)
  have hhead : (base ++ ending).toList.headD ' ' = base.toList.headD ' ' := by
    rw [String.toList_append, List.headD_eq_head?_getD, List.head?_append_of_ne_nil _ hne,
      List.headD_eq_head?_getD]
  unfold IsIdentifier
  rw [hhead]
  constructor
  · rintro ⟨⟨-, hall⟩, hdigit⟩
    refine ⟨⟨hbase, fun c hc => hall c ?_⟩, hdigit⟩
    rw [String.toList_append]
    exact List.mem_append_left _ hc
  · rintro ⟨⟨-, hall⟩, hdigit⟩
    refine ⟨⟨by simp [hbase], fun c hc => ?_⟩, hdigit⟩
    rw [String.toList_append] at hc
    rcases List.mem_append.mp hc with hc | hc
    · exact hall c hc
    · exact hending c hc

/-- A number at its end does not make a name an identifier, nor spoil one. -/
theorem isIdentifier_numbered_iff (base : String) (k : Nat) :
    IsIdentifier (numbered base "" k) ↔ IsIdentifier base := by
  have hdigits := Numeral.isDigit_of_mem_toString k
  unfold numbered
  split_ifs with hk
  · rfl
  rw [String.append_empty]
  by_cases hbase : base = ""
  · subst hbase
    refine iff_of_false ?_ not_isIdentifier_empty
    rintro ⟨⟨hne, -⟩, hdigit⟩
    rw [String.empty_append] at hne hdigit
    cases hchars : (toString k).toList with
    | nil => exact hne (String.toList_eq_nil_iff.mp hchars)
    | cons d rest =>
      rw [hchars] at hdigit
      exact hdigit (hdigits d (hchars ▸ List.mem_cons_self))
  · refine isIdentifier_append_iff hbase fun c hc => ?_
    simp [isNamePart, Char.isAlphanum, hdigits c hc]

end Naming

end ClientGen
