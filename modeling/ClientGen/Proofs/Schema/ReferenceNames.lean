import ClientGen.Proofs.Naming.Words
import ClientGen.Proofs.Schema.NamedSchemas

/-! The name of a named schema's model, spelled from its key, and the name that references to the
schema use, spelled from the escaped key: they are told apart by counting digits, since each escape
brings in one. -/

namespace ClientGen

namespace Text

theorem isDigit_eq_false_of_isSpace {c : Char} (h : isSpace c) : c.isDigit = false := by
  rw [Bool.eq_false_iff, ne_eq, isDigit_iff]
  unfold isSpace at h
  simp only [Bool.or_eq_true, Bool.and_eq_true, decide_eq_true_eq, beq_iff_eq] at h
  omega

theorem digits_dropWhile_isSpace (s : List Char) :
    (s.dropWhile isSpace).countP Char.isDigit = s.countP Char.isDigit := by
  have hnone : (s.takeWhile isSpace).countP Char.isDigit = 0 :=
    List.countP_eq_zero.mpr fun c hc => by
      simp [isDigit_eq_false_of_isSpace (List.mem_takeWhile_imp hc)]
  have hsplit := congrArg (List.countP Char.isDigit) (s.takeWhile_append_dropWhile (p := isSpace))
  rw [List.countP_append, hnone] at hsplit
  omega

theorem digits_dropRightWhile_isSpace (s : List Char) :
    (dropRightWhile isSpace s).countP Char.isDigit = s.countP Char.isDigit := by
  unfold dropRightWhile
  rw [List.countP_reverse, digits_dropWhile_isSpace, List.countP_reverse]

theorem digits_trim (s : List Char) : (trim s).countP Char.isDigit = s.countP Char.isDigit := by
  unfold trim trimWhile
  rw [digits_dropRightWhile_isSpace, digits_dropWhile_isSpace]

end Text

namespace Pointer

theorem bracket_not_mem_escapeChars {s : List Char} (h : '[' ∉ s) : '[' ∉ escapeChars s := by
  intro hmem
  obtain ⟨c, hs, hc⟩ := List.mem_flatMap.mp hmem
  split_ifs at hc with htilde hslash
  · simp at hc
  · simp at hc
  · exact h (List.mem_singleton.mp hc ▸ hs)

/-- Whether a character of a key is escaped. -/
def isEscaped (c : Char) : Bool := c == '~' || c == '/'

theorem escapeChars_eq_self {s : List Char} (h : ∀ c ∈ s, isEscaped c = false) :
    escapeChars s = s := by
  have hsingle : ∀ c ∈ s,
      (if c = '~' then ['~', '0'] else if c = '/' then ['~', '1'] else [c]) = [c] := by
    intro c hc
    have hplain := h c hc
    rw [isEscaped, Bool.or_eq_false_iff, beq_eq_false_iff_ne, beq_eq_false_iff_ne] at hplain
    rw [if_neg hplain.1, if_neg hplain.2]
  rw [escapeChars, List.flatMap_congr hsingle, List.flatMap_singleton']

/-- Each escape brings in one digit. -/
theorem digits_escapeChars (s : List Char) :
    (escapeChars s).countP Char.isDigit = s.countP Char.isDigit + s.countP isEscaped := by
  have hcons (c : Char) (s : List Char) : escapeChars (c :: s) =
      (if c = '~' then ['~', '0'] else if c = '/' then ['~', '1'] else [c]) ++ escapeChars s :=
    List.flatMap_cons
  induction s with
  | nil => rfl
  | cons c s ih =>
    rw [hcons, List.countP_append, ih, List.countP_cons, List.countP_cons]
    by_cases htilde : c = '~'
    · subst htilde
      simp [isEscaped]
      omega
    · by_cases hslash : c = '/'
      · subst hslash
        simp [isEscaped]
        omega
      · simp [isEscaped, htilde, hslash]
        omega

end Pointer

namespace TypeExpr

/-- The part of a reference that names a type holds no more digits than the reference. -/
theorem digits_stripNamespaceChars_le (s : List Char) :
    (stripNamespaceChars s).countP Char.isDigit ≤ s.countP Char.isDigit := by
  have hlast (t : List Char) : (lastSegment t).Sublist t := by
    have hprefix := (t.reverse.takeWhile_sublist (p := (· != '/'))).reverse
    rwa [List.reverse_reverse] at hprefix
  have hsplit := (Text.trim s).takeWhile_append_dropWhile (p := (· != '['))
  have hsub : (stripNamespaceChars s).Sublist (Text.trim s) := by
    have happend := (hlast ((Text.trim s).takeWhile (· != '['))).append_right
      ((Text.trim s).dropWhile (· != '['))
    rwa [hsplit] at happend
  exact hsub.countP_le.trans (Text.digits_trim s).le

theorem stripNamespaceChars_eq_trim {s : List Char} (hslash : '/' ∉ s) (hbracket : '[' ∉ s) :
    stripNamespaceChars s = Text.trim s := by
  have hne {t : List Char} {x : Char} (h : x ∉ t) : ∀ c ∈ t, (c != x) = true := by
    intro c hc
    have hcx : c ≠ x := fun heq => h (heq ▸ hc)
    simpa using hcx
  have hbracket : '[' ∉ Text.trim s := fun h => hbracket (Text.trim_subset s h)
  have hslash : '/' ∉ (Text.trim s).reverse :=
    fun h => hslash (Text.trim_subset s (List.mem_reverse.mp h))
  unfold stripNamespaceChars lastSegment
  dsimp only
  rw [List.takeWhile_eq_self_iff.mpr (hne hbracket), List.dropWhile_eq_nil_iff.mpr (hne hbracket),
    List.takeWhile_eq_self_iff.mpr (hne hslash), List.reverse_reverse, List.append_nil]

/-- A type name has the digits of the text that it is made of. -/
theorem digits_nameOfReference (ref : String) :
    (nameOfReference ref).toList.countP Char.isDigit =
      (stripNamespaceChars ref.toList).countP Char.isDigit := by
  have hpascal : (Naming.pascalCase (stripNamespace ref)).toList.countP Char.isDigit =
      (stripNamespaceChars ref.toList).countP Char.isDigit := by
    rw [Naming.pascalCase, String.toList_ofList, stripNamespace, String.toList_ofList,
      Naming.digits_pascalChars]
  have hprefixed (start name : String) (h : start.toList.countP Char.isDigit = 0) :
      (start ++ name).toList.countP Char.isDigit = name.toList.countP Char.isDigit := by
    rw [String.toList_append, List.countP_append, h, Nat.zero_add]
  rw [← hpascal]
  unfold nameOfReference
  dsimp only
  split_ifs with hempty
  · rw [hempty]
    rfl
  · rw [hprefixed _ _ (by decide), hprefixed _ _ (by decide)]
  · rw [hprefixed _ _ (by decide)]
  · rw [hprefixed _ _ (by decide)]
  · rfl

/-- The base of a reference without type arguments is the name of its last segment. -/
theorem base_ofText {s : String} (hreference : isReference (String.ofList (Text.trim s.toList)))
    (hbracket : '[' ∉ s.toList) :
    (ofText s).base =
      nameOfReference (String.ofList (stripNamespaceChars (Text.trim s.toList))) := by
  have hnone : splitApplication? (stripNamespaceChars (Text.trim s.toList)) = none :=
    splitApplication?_eq_none fun h =>
      hbracket (Text.trim_subset _ (stripNamespaceChars_subset _ h))
  unfold ofText
  dsimp only
  rw [if_pos hreference, hnone]
  by_cases hempty : stripNamespaceChars (Text.trim s.toList) = []
  · rw [if_neg (by simp [hempty]), hempty, ofChars, splitApplication?_eq_none List.not_mem_nil]
    rfl
  · rw [if_pos ⟨rfl, hempty⟩, base_named]

variable (dialect : Dialect)

theorem isReference_schemaNamespace (key : List Char) : isReference
    (String.ofList (Text.trim (dialect.schemaNamespace ++ String.ofList key).toList)) := by
  rw [String.toList_append, String.toList_ofList, trim_schemaNamespace, isReference,
    String.toList_ofList]
  cases dialect <;> rfl

theorem bracket_not_mem_schemaNamespace {key : List Char} (h : '[' ∉ key) :
    '[' ∉ (dialect.schemaNamespace ++ String.ofList key).toList := by
  rw [String.toList_append, String.toList_ofList, List.mem_append, not_or]
  exact ⟨by cases dialect <;> decide, h⟩

/-- The name that is spelled from a key has no more digits than the key. -/
theorem digits_base_le {key : List Char} (h : '[' ∉ key) :
    (ofText (dialect.schemaNamespace ++ String.ofList key)).base.toList.countP Char.isDigit ≤
      key.countP Char.isDigit := by
  have hstart : dialect.schemaNamespace.toList.countP Char.isDigit = 0 := by
    cases dialect <;> decide
  rw [base_ofText (isReference_schemaNamespace dialect key)
    (bracket_not_mem_schemaNamespace dialect h), digits_nameOfReference, String.toList_ofList]
  refine (digits_stripNamespaceChars_le _).trans ((digits_stripNamespaceChars_le _).trans ?_)
  rw [Text.digits_trim, String.toList_append, String.toList_ofList, List.countP_append, hstart,
    Nat.zero_add]

/-- A segment without slashes keeps all its digits in the name. -/
theorem digits_base {key : List Char} (hslash : '/' ∉ key) (hbracket : '[' ∉ key) :
    (ofText (dialect.schemaNamespace ++ String.ofList key)).base.toList.countP Char.isDigit =
      key.countP Char.isDigit := by
  have hsub := Text.dropRightWhile_subset Text.isSpace key
  have hslash' : '/' ∉ Text.dropRightWhile Text.isSpace key := fun h => hslash (hsub h)
  have hbracket' : '[' ∉ Text.dropRightWhile Text.isSpace key := fun h => hbracket (hsub h)
  rw [base_ofText (isReference_schemaNamespace dialect key)
    (bracket_not_mem_schemaNamespace dialect hbracket), digits_nameOfReference,
    String.toList_ofList, String.toList_append, String.toList_ofList, trim_schemaNamespace,
    stripNamespaceChars_schemaNamespace dialect hslash', Text.dropRightWhile_idem,
    stripNamespaceChars_eq_trim hslash' hbracket', Text.digits_trim,
    Text.digits_dropRightWhile_isSpace]

end TypeExpr

/-- The reference to the schema of a key: the key's escaped form in the place of named schemas. -/
def Dialect.referenceTo (dialect : Dialect) (key : String) : String :=
  dialect.schemaNamespace ++ String.ofList (Pointer.escapeChars key.toList)

namespace ApiDocument

variable {doc : ApiDocument}

/-- A reference to a key of the named schemas is found. -/
theorem namedSchema?_referenceTo {key : String} (h : .str key ∈ doc.schemas.map Prod.fst) :
    (doc.namedSchema? (doc.dialect.referenceTo key)).isSome := by
  rw [Dialect.referenceTo, namedSchema?_append, Pointer.unescapeChars_escapeChars,
    String.ofList_toList]
  exact Entries.isSome_get?.mpr h

/-- The type of a reference to a named schema has the name of that schema's model exactly if the key
needs no escape. -/
theorem base_referenceTo_iff {d : Declaration} (hd : d ∈ doc.declarations) {key : String}
    (hkey : d.key = .str key) (hbracket : '[' ∉ key.toList) :
    ∃ type, doc.typeOfReference (doc.dialect.referenceTo key) = .ok type ∧
      (type.base = d.name ↔ '~' ∉ key.toList ∧ '/' ∉ key.toList) := by
  obtain ⟨⟨k, schema⟩, he, rfl⟩ := List.mem_map.mp hd
  obtain rfl : k = .str key := hkey
  have hfound := namedSchema?_referenceTo (List.mem_map_of_mem (f := Prod.fst) he)
  refine ⟨_, typeOfReference_eq_ok.mpr ⟨hfound, rfl⟩, ?_⟩
  have hname : modelName doc.dialect (.str key) =
      (TypeExpr.ofText (doc.dialect.schemaNamespace ++ key)).base := rfl
  dsimp only
  rw [hname, Dialect.referenceTo]
  constructor
  · intro heq
    have hdigits := TypeExpr.digits_base doc.dialect (Pointer.slash_not_mem_escapeChars key.toList)
      (Pointer.bracket_not_mem_escapeChars hbracket)
    have hle := TypeExpr.digits_base_le doc.dialect hbracket
    rw [String.ofList_toList, ← heq, hdigits, Pointer.digits_escapeChars] at hle
    have hnone : key.toList.countP Pointer.isEscaped = 0 := by omega
    rw [List.countP_eq_zero] at hnone
    exact ⟨fun h => hnone _ h (by decide), fun h => hnone _ h (by decide)⟩
  · rintro ⟨htilde, hslash⟩
    have hplain : ∀ c ∈ key.toList, Pointer.isEscaped c = false := by
      intro c hc
      have hct : c ≠ '~' := fun h => htilde (h ▸ hc)
      have hcs : c ≠ '/' := fun h => hslash (h ▸ hc)
      simp [Pointer.isEscaped, hct, hcs]
    rw [Pointer.escapeChars_eq_self hplain, String.ofList_toList]

namespace PetFolder

def schemas : Entries := [(.str "pet-category", .map []), (.str "pets/cat", .map [])]

def document : ApiDocument where
  dialect := .openApi3
  root := .map [(.str "components", .map [(.str "schemas", .map schemas)])]
  schemas

def category : Declaration := ⟨.str "pet-category", "PetCategory", .map []⟩

def cat : Declaration := ⟨.str "pets/cat", "Cat", .map []⟩

theorem declarations_document : document.declarations = [category, cat] := by
  have hnames : modelName .openApi3 (.str "pet-category") = "PetCategory" ∧
      modelName .openApi3 (.str "pets/cat") = "Cat" := by decide +kernel
  simp [declarations, document, schemas, category, cat, hnames]

theorem base_category : (category ∈ document.declarations ∧ category.key = .str "pet-category" ∧
      '[' ∉ "pet-category".toList) ∧
    ∃ type, document.typeOfReference (document.dialect.referenceTo "pet-category") = .ok type ∧
      (type.base = "PetCategory" ↔ '~' ∉ "pet-category".toList ∧ '/' ∉ "pet-category".toList) := by
  have hmem : category ∈ document.declarations := by simp [declarations_document]
  exact ⟨⟨hmem, rfl, by decide⟩, base_referenceTo_iff hmem rfl (by decide)⟩

/-- The schema of a key with a slash is named for what follows the slash, a reference to it for the
whole key. -/
theorem base_cat : cat ∈ document.declarations ∧
    document.dialect.referenceTo "pets/cat" = "#/components/schemas/pets~1cat" ∧
    ∃ type, document.typeOfReference "#/components/schemas/pets~1cat" = .ok type ∧
      type.base = "Pets1cat" ∧ cat.name = "Cat" ∧ type.base ≠ cat.name := by
  have hbase : (TypeExpr.ofText "#/components/schemas/pets~1cat").base = "Pets1cat" := by
    decide +kernel
  refine ⟨by simp [declarations_document], rfl, _, typeOfReference_eq_ok.mpr ⟨rfl, rfl⟩, hbase,
    rfl, ?_⟩
  rw [hbase]
  decide

end PetFolder

end ApiDocument

end ClientGen
