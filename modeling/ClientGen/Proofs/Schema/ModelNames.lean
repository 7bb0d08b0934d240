import ClientGen.Proofs.Naming.Identifiers
import ClientGen.Proofs.Naming.Letters
import ClientGen.Proofs.Schema.GenericTypes

/-! The type names that references are given: identifiers in Pascal case that are neither reserved
nor built in. A name is its own name. -/

namespace ClientGen

namespace TypeExpr

open Naming

/-- The last segment of a text: what follows the last slash before any bracket. -/
structure IsLastSegment (s segment : List Char) : Prop where
  suffix : ∃ before, s = before ++ segment ∧ '[' ∉ before ∧
    (before = [] ∨ before.getLast? = some '/')
  slash : '/' ∉ segment.takeWhile (· != '[')

/-- The name of a word in Pascal case. -/
inductive Names : List Char → String → Prop
  | nothing : Names [] "any"
  | digit {c : Char} {rest : List Char} (hc : c.isDigit) :
      Names (c :: rest) (String.ofList ('_' :: c :: rest))
  | reserved {c : Char} {rest : List Char} (hc : c.isUpper)
      (h : String.ofList (c :: rest) ∈ reserved) :
      Names (c :: rest) ("Model" ++ String.ofList (c :: rest))
  | free {c : Char} {rest : List Char} (hc : c.isUpper)
      (h : String.ofList (c :: rest) ∉ reserved) : Names (c :: rest) (String.ofList (c :: rest))

/-- An identifier in Pascal case: a capital, or an underscore and a digit, and then ASCII letters
and digits. -/
inductive IsPascal : List Char → Prop
  | letter {c : Char} {rest : List Char} (hc : c.isUpper) (h : ∀ d ∈ rest, isNameChar d) :
      IsPascal (c :: rest)
  | digit {c : Char} {rest : List Char} (hc : c.isDigit) (h : ∀ d ∈ rest, isNameChar d) :
      IsPascal ('_' :: c :: rest)

theorem lastSegment_cases (s : List Char) :
    '/' ∉ lastSegment s ∧
      ∃ before, s = before ++ lastSegment s ∧ (before = [] ∨ before.getLast? = some '/') := by
  have hsplit : (s.reverse.dropWhile (· != '/')).reverse ++ lastSegment s = s := by
    have hreverse := congrArg List.reverse (s.reverse.takeWhile_append_dropWhile (p := (· != '/')))
    rwa [List.reverse_append, List.reverse_reverse] at hreverse
  constructor
  · intro hmem
    have hne := List.mem_takeWhile_imp (List.mem_reverse.mp hmem)
    simp at hne
  · refine ⟨_, hsplit.symm, ?_⟩
    rw [List.getLast?_reverse, List.reverse_eq_nil_iff]
    have hstop := List.head?_dropWhile_not (· != '/') s.reverse
    cases hdrop : s.reverse.dropWhile (· != '/') with
    | nil => exact .inl rfl
    | cons c rest =>
      rw [hdrop] at hstop
      exact .inr (by simpa using hstop)

theorem isLastSegment_stripNamespaceChars (s : List Char) :
    IsLastSegment (Text.trim s) (stripNamespaceChars s) := by
  let t := Text.trim s
  let head := t.takeWhile (· != '[')
  obtain ⟨hslash, before, hhead, hbefore⟩ := lastSegment_cases head
  have hbracket : ∀ c ∈ before ++ lastSegment head, (c != '[') = true := by
    rw [← hhead]
    exact fun c hc => List.mem_takeWhile_imp (p := (· != '[')) hc
  obtain ⟨hbracket, hsegment⟩ := List.forall_mem_append.mp hbracket
  constructor
  · refine ⟨before, ?_, fun hmem => ?_, hbefore⟩
    · change t = before ++ (lastSegment head ++ t.dropWhile (· != '['))
      rw [← List.append_assoc, ← hhead]
      exact List.takeWhile_append_dropWhile.symm
    · simpa using hbracket '[' hmem
  · have hnone : (t.dropWhile (· != '[')).takeWhile (· != '[') = [] := by
      have hstop := List.head?_dropWhile_not (· != '[') t
      cases hdrop : t.dropWhile (· != '[') with
      | nil => rfl
      | cons c rest =>
        rw [hdrop] at hstop
        exact List.takeWhile_cons_of_neg (by simpa using hstop)
    change '/' ∉ (lastSegment head ++ t.dropWhile (· != '[')).takeWhile (· != '[')
    rw [List.takeWhile_append_of_pos hsegment, hnone, List.append_nil]
    exact hslash

/-- References are named by their last segments. -/
theorem names_nameOfReference (ref : String) :
    Names (pascalChars (stripNamespaceChars ref.toList)) (nameOfReference ref) := by
  have hguarded : ∀ name ∈ TypeExpr.reserved, name.toList.head? ≠ some '_' := by decide
  have hword : pascalCase (stripNamespace ref) =
      String.ofList (pascalChars (stripNamespaceChars ref.toList)) := by
    rw [pascalCase, stripNamespace, String.toList_ofList]
  unfold nameOfReference
  rw [hword]
  rcases pascalChars_cases (stripNamespaceChars ref.toList) with ⟨hnil, -⟩ | ⟨c, rest, hcons, hc, -⟩
  · rw [hnil]
    exact .nothing
  rw [hcons]
  have hne : String.ofList (c :: rest) ≠ "" := by simp
  dsimp only
  rw [if_neg hne, String.toList_ofList, List.headD_cons]
  rcases hc with hupper | hdigit
  · have hletter : ¬ c.isDigit := not_isDigit_of_isAlpha (Bool.or_eq_true_iff.mpr (.inl hupper))
    rw [if_neg hletter]
    split_ifs with htaken
    · exact .reserved hupper htaken
    · exact .free hupper htaken
  · have hname : "_" ++ String.ofList (c :: rest) = String.ofList ('_' :: c :: rest) := by
      apply String.toList_inj.mp
      simp
    have hfree : String.ofList ('_' :: c :: rest) ∉ TypeExpr.reserved := by
      intro htaken
      exact hguarded _ htaken (by simp)
    rw [if_pos hdigit, hname, if_neg hfree]
    exact .digit hdigit

theorem Names.unique {word : List Char} {a b : String} (ha : Names word a) (hb : Names word b) :
    a = b := by
  have hclash {c : Char} (hupper : c.isUpper) (hdigit : c.isDigit) : False :=
    not_isDigit_of_isAlpha (Bool.or_eq_true_iff.mpr (.inl hupper)) hdigit
  cases ha with
  | nothing => cases hb; rfl
  | digit hc =>
    cases hb with
    | digit => rfl
    | reserved hupper => exact (hclash hupper hc).elim
    | free hupper => exact (hclash hupper hc).elim
  | reserved hc h =>
    cases hb with
    | digit hdigit => exact (hclash hc hdigit).elim
    | reserved => rfl
    | free _ hfree => exact absurd h hfree
  | free hc h =>
    cases hb with
    | digit hdigit => exact (hclash hc hdigit).elim
    | reserved _ htaken => exact absurd htaken h
    | free => rfl

theorem model_append (word : List Char) :
    "Model" ++ String.ofList word = String.ofList ('M' :: ("odel".toList ++ word)) := by
  apply String.toList_inj.mp
  simp

theorem isNameChar_of_mem_model {word : List Char} (h : ∀ c ∈ word, isNameChar c) :
    ∀ c ∈ "odel".toList ++ word, isNameChar c := by
  have hmodel : ∀ c ∈ "odel".toList, isNameChar c := List.all_eq_true.mp (by decide)
  exact List.forall_mem_append.mpr ⟨hmodel, h⟩

theorem Names.isPascal {word : List Char} {name : String} (h : Names word name) (hne : word ≠ [])
    (hword : ∀ c ∈ word, isNameChar c) : IsPascal name.toList := by
  cases h with
  | nothing => exact absurd rfl hne
  | digit hc =>
    rw [String.toList_ofList]
    exact .digit hc (List.forall_mem_cons.mp hword).2
  | reserved hc =>
    rw [model_append, String.toList_ofList]
    exact .letter (by decide) (isNameChar_of_mem_model hword)
  | free hc =>
    rw [String.toList_ofList]
    exact .letter hc (List.forall_mem_cons.mp hword).2

theorem IsPascal.isIdentifier {name : String} (h : IsPascal name.toList) : IsIdentifier name := by
  have hpart {c : Char} (hc : isNameChar c) : isNamePart c := Bool.or_eq_true_iff.mpr (.inl hc)
  have hne : name ≠ "" := by
    rintro rfl
    cases h
  generalize hchars : name.toList = chars at h
  cases h with
  | letter hc h =>
    have halpha : Char.isAlpha _ := Bool.or_eq_true_iff.mpr (.inl hc)
    refine ⟨⟨hne, ?_⟩, ?_⟩
    · rw [hchars]
      exact List.forall_mem_cons.mpr
        ⟨hpart (isNameChar_of_isAlpha halpha), fun d hd => hpart (h d hd)⟩
    · rw [hchars]
      exact not_isDigit_of_isAlpha halpha
  | digit hc h =>
    refine ⟨⟨hne, ?_⟩, ?_⟩
    · rw [hchars]
      refine List.forall_mem_cons.mpr ⟨by decide, List.forall_mem_cons.mpr ⟨hpart ?_, ?_⟩⟩
      · exact Bool.or_eq_true_iff.mpr (.inr hc)
      · exact fun d hd => hpart (h d hd)
    · rw [hchars]
      exact Bool.false_ne_true

/-- Built-in types are spelled with small letters, but for the file, which is reserved. -/
theorem IsPascal.not_mem_builtIns {name : String} (h : IsPascal name.toList)
    (hfree : name ∉ reserved) : name ∉ builtIns := by
  have hall : ∀ type ∈ builtIns, type ∈ reserved ∨ type.toList.head?.any Char.isLower := by decide
  intro hmem
  have hlower : name.toList.head?.any Char.isLower := (hall name hmem).resolve_left hfree
  generalize name.toList = chars at h hlower
  cases h with
  | @letter c rest hc =>
    have hsmall : 97 ≤ c.toNat ∧ c.toNat ≤ 122 := Text.isLower_iff.mp hlower
    have hcapital := Text.isUpper_iff.mp hc
    omega
  | digit => cases hlower

theorem stripNamespaceChars_eq_self {s : List Char} (h : ∀ c ∈ s, isKeyChar c) :
    stripNamespaceChars s = s := by
  have hnot {c : Char} (hc : isKeyChar c = false) : c ∉ s := fun hmem =>
    isKeyChar_ne (h c hmem) hc rfl
  rw [stripNamespaceChars_eq_trim (hnot (by decide)) (hnot (by decide))]
  exact Text.trim_eq_self fun c hc => isSpace_of_isKeyChar (h c hc)

/-- A name is named as it is. -/
theorem Names.again {word : List Char} {name : String} (h : Names word name) (hne : word ≠ [])
    (hword : ∀ c ∈ word, isNameChar c) :
    Names (pascalChars (stripNamespaceChars name.toList)) name := by
  have hkey {c : Char} (hc : isNameChar c) : isKeyChar c := by
    unfold isNameChar at hc
    simp [isKeyChar, hc]
  cases h with
  | nothing => exact absurd rfl hne
  | @digit c rest hc =>
    have hstrip : stripNamespaceChars ('_' :: c :: rest) = '_' :: c :: rest := by
      apply stripNamespaceChars_eq_self
      exact List.forall_mem_cons.mpr ⟨by decide, fun d hd => hkey (hword d hd)⟩
    have hskip : pascalChars ('_' :: c :: rest) = pascalChars (c :: rest) := rfl
    rw [String.toList_ofList, hstrip, hskip, pascalChars_eq_self (.inr hc) hword]
    exact .digit hc
  | @reserved c rest hc htaken =>
    have hmodel : ∀ taken ∈ TypeExpr.reserved, "Model" ++ taken ∉ TypeExpr.reserved := by decide
    have hchars : ∀ d ∈ 'M' :: ("odel".toList ++ c :: rest), isNameChar d :=
      List.forall_mem_cons.mpr ⟨by decide, isNameChar_of_mem_model hword⟩
    have hfree := hmodel _ htaken
    rw [model_append] at hfree ⊢
    rw [String.toList_ofList, stripNamespaceChars_eq_self fun d hd => hkey (hchars d hd),
      pascalChars_eq_self (.inl (by decide)) hchars]
    exact .free (by decide) hfree
  | @free c rest hc hfree =>
    rw [String.toList_ofList, stripNamespaceChars_eq_self fun d hd => hkey (hword d hd),
      pascalChars_eq_self (.inl hc) hword]
    exact .free hc hfree

/-- A reference without a letter or digit in its last segment names no type. Every other one names a
type by an identifier in Pascal case that is neither reserved nor built in, and the name is its own
name. -/
theorem nameOfReference_safe (ref : String) :
    IsLastSegment (Text.trim ref.toList) (stripNamespace ref).toList ∧
    (nameOfReference ref = "any" ↔ ∀ c ∈ (stripNamespace ref).toList, ¬ c.isAlphanum) ∧
    (nameOfReference ref = "any" ∨
      IsPascal (nameOfReference ref).toList ∧ IsIdentifier (nameOfReference ref) ∧
        nameOfReference ref ∉ reserved ∧ nameOfReference ref ∉ builtIns ∧
        nameOfReference (nameOfReference ref) = nameOfReference ref) := by
  have hnames := names_nameOfReference ref
  have hword : ∀ c ∈ pascalChars (stripNamespaceChars ref.toList), isNameChar c :=
    isNameChar_of_mem_pascalChars
  rw [stripNamespace, String.toList_ofList]
  refine ⟨isLastSegment_stripNamespaceChars ref.toList, ?_⟩
  rcases pascalChars_cases (stripNamespaceChars ref.toList) with
    ⟨hnil, hnone⟩ | ⟨c, rest, hcons, -, d, hd, hname⟩
  · have hany : nameOfReference ref = "any" := by
      rw [hnil] at hnames
      exact hnames.unique .nothing
    exact ⟨iff_of_true hany hnone, .inl hany⟩
  · have hne : pascalChars (stripNamespaceChars ref.toList) ≠ [] := by simp [hcons]
    have hfree := nameOfReference_not_mem_reserved ref
    have hpascal := hnames.isPascal hne hword
    have hopen := hpascal.not_mem_builtIns hfree
    have hany : nameOfReference ref ≠ "any" := fun h => hopen (h ▸ by decide)
    have hstable := (names_nameOfReference _).unique (hnames.again hne hword)
    refine ⟨iff_of_false hany fun hnone => hnone d hd hname, .inr ?_⟩
    exact ⟨hpascal, hpascal.isIdentifier, hfree, hopen, hstable⟩

end TypeExpr

end ClientGen
