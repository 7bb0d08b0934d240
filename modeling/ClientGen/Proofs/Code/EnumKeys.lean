import ClientGen.Proofs.Code.PropertyKeys
import ClientGen.Proofs.Naming.Letters

/-! The names of enumerations for the keys of properties: which of them a declaration can have, and
which keys share one. -/

namespace ClientGen

/-- Identifiers that no declaration can have for its name. -/
def reservedWords : List String :=
  ["await", "break", "case", "catch", "class", "const", "continue", "debugger", "default", "delete",
    "do", "else", "enum", "export", "extends", "false", "finally", "for", "function", "if",
    "implements", "import", "in", "instanceof", "interface", "let", "new", "null", "package",
    "private", "protected", "public", "return", "static", "super", "switch", "this", "throw",
    "true", "try", "typeof", "var", "void", "while", "with", "yield"]

namespace Lexicon

variable (x : Lexicon)

/-- A name that a declaration can have. -/
def Declarable (s : String) : Prop := x.IsIdentifier s ∧ s ∉ reservedWords

theorem isIdentifier_of_script {s : String} (h : Text.isIdentifier s) : x.IsIdentifier s := by
  rw [Text.isIdentifier] at h
  split at h
  · cases h
  · next c rest hcons =>
    obtain ⟨hc, hrest⟩ := Bool.and_eq_true_iff.mp h
    refine (Text.hasForm_iff hcons).mpr ⟨x.start_of_script c hc, fun d hd => ?_⟩
    exact x.part_of_script d (List.all_eq_true.mp hrest d hd)

theorem isPart_of_isNameChar {c : Char} (h : Naming.isNameChar c) : x.isPart c := by
  have halphanum : c.isAlphanum := h
  rw [x.part_of_ascii c (Naming.ascii_of_isNameChar h), halphanum]
  rfl

theorem isStart_iff_of_isNameChar {c : Char} (h : Naming.isNameChar c) :
    x.isStart c ↔ ¬ c.isDigit := by
  have hrange := Naming.isNameChar_iff.mp h
  have hline : c ≠ '_' := by
    rintro rfl
    revert hrange
    decide
  have hdollar : c ≠ '$' := by
    rintro rfl
    revert hrange
    decide
  rw [x.start_of_ascii c (Naming.ascii_of_isNameChar h), beq_false_of_ne hline,
    beq_false_of_ne hdollar, Bool.or_false, Bool.or_false]
  exact ⟨Naming.not_isDigit_of_isAlpha, (Naming.isAlpha_or_isDigit h).resolve_right⟩

end Lexicon

namespace EnumKey

/-- The first ASCII letter or digit of a key. -/
def firstNameChar (key : String) : Option Char := key.toList.find? Naming.isNameChar

/-- The ASCII letters and digits of a key, without capitals. -/
def letters (key : String) : List Char :=
  Naming.smallLetters (key.toList.filter Naming.isNameChar)

/-- The name of the enumeration for a key: an identifier is kept, the words of another key are
joined, and a key without words is any value. -/
inductive Names (key : String) : String → Prop
  | kept (h : Text.isIdentifier key) : Names key key
  | joined (h : ¬ Text.isIdentifier key) (hsome : firstNameChar key ≠ none) :
    Names key (Naming.camelCase key)
  | blank (h : ¬ Text.isIdentifier key) (hnone : firstNameChar key = none) : Names key "value"

variable {key name other : String}

theorem Names.unique (h : Names key name) (hother : Names key other) : name = other := by
  cases h <;> cases hother <;> first | rfl | contradiction

theorem head?_camelCase :
    (Naming.camelCase key).toList.head? = (firstNameChar key).map Char.toLower := by
  rw [Naming.camelCase, String.toList_ofList]
  exact Naming.head?_camelChars key.toList

theorem camelCase_eq_empty_iff : Naming.camelCase key = "" ↔ firstNameChar key = none := by
  rw [← Option.map_eq_none_iff, ← head?_camelCase, List.head?_eq_none_iff, String.toList_eq_nil_iff]

theorem names_enumTypeName (m : Model) : Names m.name m.enumTypeName := by
  unfold Model.enumTypeName
  dsimp only
  split_ifs with hkept hempty
  · exact .kept hkept
  · exact .blank hkept (camelCase_eq_empty_iff.mp hempty)
  · exact .joined hkept fun hnone => hempty (camelCase_eq_empty_iff.mpr hnone)

/-- A name that is joined starts as the first word of the key does, be it with a digit. -/
theorem Names.isIdentifier_iff (h : Names key name) (x : Lexicon) :
    x.IsIdentifier name ↔
      Text.isIdentifier key ∨ ∀ c, firstNameChar key = some c → ¬ c.isDigit := by
  cases h with
  | kept h => exact iff_of_true (x.isIdentifier_of_script h) (.inl h)
  | joined h hsome =>
    obtain ⟨c, hc⟩ := Option.ne_none_iff_exists'.mp hsome
    have hname : Naming.isNameChar c := List.find?_some hc
    have hhead : (Naming.camelCase key).toList.head? = some c.toLower := by
      rw [head?_camelCase, hc, Option.map_some]
    obtain ⟨rest, hrest⟩ := List.head?_eq_some_iff.mp hhead
    have hall : ∀ d ∈ (Naming.camelCase key).toList, Naming.isNameChar d := by
      rw [Naming.camelCase, String.toList_ofList]
      exact Naming.isNameChar_of_mem_camelChars
    rw [hrest] at hall
    obtain ⟨hfirst, hothers⟩ := List.forall_mem_cons.mp hall
    have hparts : ∀ d ∈ rest, x.isPart d := fun d hd => x.isPart_of_isNameChar (hothers d hd)
    rw [Lexicon.IsIdentifier, Text.hasForm_iff hrest, and_iff_left hparts,
      x.isStart_iff_of_isNameChar hfirst, Naming.isDigit_toLower hname]
    simp [h, hc]
  | blank h hnone =>
    have hvalue : Text.isIdentifier "value" := by decide +kernel
    exact iff_of_true (x.isIdentifier_of_script hvalue) (.inr (by simp [hnone]))

/-- The name has the letters and digits of the key, if there are any. -/
theorem Names.letters_eq (h : Names key name) (hsome : firstNameChar key ≠ none) :
    letters name = letters key := by
  cases h with
  | kept => rfl
  | joined =>
    unfold letters
    rw [Naming.camelCase, String.toList_ofList,
      List.filter_eq_self.mpr Naming.isNameChar_of_mem_camelChars]
    exact Naming.smallLetters_camelChars key.toList
  | blank _ hnone => exact absurd hnone hsome

theorem Names.declarable_iff (h : Names key name) (x : Lexicon) :
    x.Declarable name ↔
      (Text.isIdentifier key ∨ ∀ c, firstNameChar key = some c → ¬ c.isDigit) ∧
        ∀ word ∈ reservedWords, ¬ Names key word := by
  refine and_congr (h.isIdentifier_iff x) ⟨fun hfree word hword hnames => ?_, fun hfree hmem => ?_⟩
  · exact hfree (h.unique hnames ▸ hword)
  · exact hfree name hmem h

/-- Different keys that have the same name for their enumerations. -/
def Clash (a b : String) : Prop := a ≠ b ∧ ∃ name, Names a name ∧ Names b name

theorem enumTypeName_eq_iff {e f : Model} :
    e.enumTypeName = f.enumTypeName ↔ e.name = f.name ∨ Clash e.name f.name := by
  have he := names_enumTypeName e
  have hf := names_enumTypeName f
  constructor
  · intro heq
    by_cases hkeys : e.name = f.name
    · exact .inl hkeys
    · exact .inr ⟨hkeys, _, he, heq ▸ hf⟩
  · rintro (hkeys | ⟨-, name, hname, hother⟩)
    · exact he.unique (hkeys ▸ hf)
    · exact (he.unique hname).trans (hother.unique hf)

variable {a b : String}

/-- Identifiers clash with no identifiers. -/
theorem Clash.not_kept (h : Clash a b) : ¬ (Text.isIdentifier a ∧ Text.isIdentifier b) := by
  rintro ⟨ha, hb⟩
  obtain ⟨hne, name, hname, hother⟩ := h
  exact hne ((Names.kept ha).unique hname |>.trans (hother.unique (.kept hb)))

/-- Keys that clash have the same letters and digits, unless one has none. -/
theorem Clash.letters_eq (h : Clash a b) (ha : firstNameChar a ≠ none)
    (hb : firstNameChar b ≠ none) : letters a = letters b := by
  obtain ⟨-, name, hname, hother⟩ := h
  exact (hname.letters_eq ha).symm.trans (hother.letters_eq hb)

end EnumKey

end ClientGen
