import ClientGen.Proofs.Number.Integers
import ClientGen.Proofs.Naming.Words
import ClientGen.Proofs.Schema.NamedSchemas
import ClientGen.Proofs.Schema.ReferenceNames

/-! References with type arguments in brackets are translated along their structure, and the reader
of the brackets ends on every text. -/

namespace ClientGen

/-- A word of a reference: characters of keys, among them a letter or digit. -/
structure Word where
  chars : List Char
  valid : ∀ c ∈ chars, isKeyChar c
  exists_isNameChar : ∃ c ∈ chars, Naming.isNameChar c

namespace Word

def text (w : Word) : String := String.ofList w.chars

/-- What a word stands for among type arguments: a keyword for its type, any other word for the type
that it names. -/
def inner (w : Word) : String :=
  match TypeExpr.ofKeyword? w.text with
  | some type => type
  | none => TypeExpr.nameOfReference w.text

/-- The types that a word names. -/
def names (w : Word) : List String :=
  if (TypeExpr.ofKeyword? w.text).isSome then [] else [TypeExpr.nameOfReference w.text]

end Word

/-- A word, or a word with an expression in brackets. -/
inductive GenericType where
  | word (w : Word)
  | application (head : Word) (argument : GenericType)

namespace GenericType

def chars : GenericType → List Char
  | word w => w.chars
  | application head argument => head.chars ++ '[' :: (argument.chars ++ [']'])

/-- The reference to an expression in the place of named schemas. -/
def reference (dialect : Dialect) (e : GenericType) : String :=
  dialect.schemaNamespace ++ String.ofList e.chars

/-- The type of an expression among type arguments. -/
def inner : GenericType → String
  | word w => w.inner
  | application head argument =>
    if head.text = "array" then argument.inner ++ "[]"
    else head.inner ++ "<" ++ argument.inner ++ ">"

/-- The type of a whole expression: a single word names a type, even where it is a keyword. -/
def type : GenericType → String
  | word w => TypeExpr.nameOfReference w.text
  | e => e.inner

/-- The types that an expression names among type arguments. -/
def innerNames : GenericType → List String
  | word w => w.names
  | application head argument => head.names ++ argument.innerNames

/-- The types that a whole expression names. -/
def names : GenericType → List String
  | word w => [TypeExpr.nameOfReference w.text]
  | e => e.innerNames

end GenericType

/-- Characters of keys are none of those that part a reference. -/
theorem isKeyChar_ne {c d : Char} (h : isKeyChar c) (hd : isKeyChar d = false) : c ≠ d := by
  rintro rfl
  rw [h] at hd
  cases hd

theorem toNat_of_isAlphanum {c : Char} (h : c.isAlphanum) : 48 ≤ c.toNat ∧ c.toNat ≤ 122 := by
  have hranges := Naming.isNameChar_iff.mp h
  omega

theorem isSpace_of_isKeyChar {c : Char} (h : isKeyChar c) : Text.isSpace c = false := by
  unfold isKeyChar at h
  simp only [Bool.or_eq_true, beq_iff_eq] at h
  rcases h with ((h | rfl) | rfl) | rfl
  · obtain ⟨hlow, hhigh⟩ := toNat_of_isAlphanum h
    by_contra hspace
    unfold Text.isSpace at hspace
    simp only [Bool.not_eq_false, Bool.or_eq_true, Bool.and_eq_true, decide_eq_true_eq,
      beq_iff_eq] at hspace
    omega
  · decide
  · decide
  · decide

namespace TypeExpr

theorem toUpper_ne_a (c : Char) : c.toUpper ≠ 'a' := by
  intro heq
  by_cases hlower : c.isLower
  · have hrange := Text.isLower_iff.mp hlower
    have hupper := Text.toNat_toUpper hlower
    have hvalue : c.toUpper.toNat = 97 := by
      rw [heq]
      rfl
    omega
  · rw [Text.toUpper_of_not_isLower hlower] at heq
    exact hlower (by rw [heq]; decide)

/-- A reference that has a letter or digit in its last segment names a type. -/
theorem nameOfReference_ne_any {ref : String}
    (h : ∃ c ∈ stripNamespaceChars ref.toList, Naming.isNameChar c) :
    nameOfReference ref ≠ "any" := by
  have hhead : ∃ c : Char,
      (Naming.pascalCase (stripNamespace ref)).toList.head? = some c.toUpper := by
    rw [Naming.pascalCase, String.toList_ofList, stripNamespace, String.toList_ofList,
      Naming.head?_pascalChars]
    obtain ⟨c, hc⟩ := Option.isSome_iff_exists.mp (List.find?_isSome.mpr h)
    exact ⟨c, by rw [hc]; rfl⟩
  obtain ⟨c, hc⟩ := hhead
  have hne (name : String) (hname : name.toList.head? ≠ some 'a') :
      (if name ∈ reserved then "Model" ++ name else name) ≠ "any" := by
    split_ifs with hreserved
    · intro heq
      have hchars := congrArg (fun s => s.toList.head?) heq
      simp at hchars
    · rintro rfl
      exact hname rfl
  unfold nameOfReference
  generalize Naming.pascalCase (stripNamespace ref) = name at hc
  dsimp only
  rw [if_neg (by rintro rfl; cases hc)]
  refine hne _ ?_
  split_ifs
  · simp
  · rw [hc]
    exact fun heq => toUpper_ne_a c (Option.some.inj heq)

/-- One keyword stands for an array. -/
theorem ofKeyword?_eq_array {keyword : String} :
    ofKeyword? keyword = some "any[]" ↔ keyword = "array" := by
  have hall : ∀ entry ∈ keywords, entry.2 = "any[]" → entry.1 = "array" := by decide
  constructor
  · intro h
    obtain ⟨before, after, heq, -⟩ := List.lookup_eq_some_iff.mp h
    exact hall (keyword, "any[]") (heq ▸ List.mem_append_right before List.mem_cons_self) rfl
  · rintro rfl
    decide

theorem isName_ne_array {name : String} (h : IsName name) : name ≠ "any[]" := by
  rintro rfl
  exact absurd (h.2 '[' (by decide)) (by decide)

end TypeExpr

namespace Word

variable (w : Word)

theorem chars_ne_nil : w.chars ≠ [] := by
  obtain ⟨c, hc, -⟩ := w.exists_isNameChar
  exact List.ne_nil_of_mem hc

theorem not_mem_chars {c : Char} (hc : isKeyChar c = false) : c ∉ w.chars :=
  fun h => isKeyChar_ne (w.valid c h) hc rfl

theorem trim_chars : Text.trim w.chars = w.chars :=
  Text.trim_eq_self fun c hc => isSpace_of_isKeyChar (w.valid c hc)

theorem nameOfReference_ne_any : TypeExpr.nameOfReference w.text ≠ "any" := by
  refine TypeExpr.nameOfReference_ne_any ?_
  have hslash : '/' ∉ w.chars := w.not_mem_chars (by decide)
  have hbracket : '[' ∉ w.chars := w.not_mem_chars (by decide)
  rw [text, String.toList_ofList, TypeExpr.stripNamespaceChars_eq_trim hslash hbracket,
    w.trim_chars]
  exact w.exists_isNameChar

theorem named_text : TypeExpr.named w.text =
    { text := TypeExpr.nameOfReference w.text, base := TypeExpr.nameOfReference w.text,
      imports := [TypeExpr.nameOfReference w.text] } := by
  rw [TypeExpr.named]
  exact if_neg w.nameOfReference_ne_any

theorem inner_eq_array_iff : w.inner = "any[]" ↔ w.text = "array" := by
  rw [← TypeExpr.ofKeyword?_eq_array, inner]
  cases TypeExpr.ofKeyword? w.text with
  | some type => simp
  | none => simpa using TypeExpr.isName_ne_array (TypeExpr.isName_nameOfReference w.text)

/-- A word is read as what it stands for among type arguments. -/
theorem ofWord_text : (TypeExpr.ofWord true w.text).text = w.inner ∧
    (TypeExpr.ofWord true w.text).imports = w.names ∧
    (TypeExpr.ofWord true w.text).template = none := by
  have hne : w.text ≠ "" := fun h => w.chars_ne_nil (String.ofList_eq_empty_iff.mp h)
  generalize hread : TypeExpr.ofWord true w.text = type
  unfold TypeExpr.ofWord at hread
  split at hread
  · next hkeyword =>
    subst hread
    exact ⟨by rw [inner, hkeyword], by rw [names, hkeyword]; rfl, rfl⟩
  · next hkeyword =>
    subst hread
    exact ⟨by rw [inner, hkeyword], by rw [names, hkeyword]; rfl, rfl⟩
  · next hkeyword =>
    rw [if_pos ⟨rfl, hne⟩, w.named_text] at hread
    subst hread
    exact ⟨by rw [inner, hkeyword], by rw [names, hkeyword]; rfl, rfl⟩

end Word

namespace GenericType

theorem chars_cases (e : GenericType) :
    ∀ c ∈ e.chars, isKeyChar c ∨ c = '[' ∨ c = ']' := by
  induction e with
  | word w => exact fun c hc => .inl (w.valid c hc)
  | application head argument ih =>
    intro c hc
    simp only [chars, List.mem_append, List.mem_cons, List.not_mem_nil, or_false] at hc
    rcases hc with hc | rfl | hc | rfl
    · exact .inl (head.valid c hc)
    · exact .inr (.inl rfl)
    · exact ih c hc
    · exact .inr (.inr rfl)

theorem not_mem_chars (e : GenericType) {c : Char} (hc : isKeyChar c = false) (hopen : c ≠ '[')
    (hclose : c ≠ ']') : c ∉ e.chars := by
  intro h
  rcases e.chars_cases c h with hkey | rfl | rfl
  · exact isKeyChar_ne hkey hc rfl
  · exact hopen rfl
  · exact hclose rfl

theorem isSpace_of_mem_chars (e : GenericType) : ∀ c ∈ e.chars, Text.isSpace c = false := by
  intro c hc
  rcases e.chars_cases c hc with hkey | rfl | rfl
  · exact isSpace_of_isKeyChar hkey
  · decide
  · decide

/-- The brackets of an application are the first opening one and the last closing one. -/
theorem splitApplication?_chars (head : Word) (argument : GenericType) :
    TypeExpr.splitApplication? (application head argument).chars =
      some (head.chars, argument.chars) := by
  have hhead : ∀ c ∈ head.chars, (c != '[') = true := fun c hc => by
    simpa using isKeyChar_ne (head.valid c hc) (by decide)
  have hdrop : (application head argument).chars.dropWhile (· != '[') =
      '[' :: (argument.chars ++ [']']) := by
    rw [chars, List.dropWhile_append_of_pos hhead, List.dropWhile_cons_of_neg (by simp)]
  have htake : (application head argument).chars.takeWhile (· != '[') = head.chars := by
    rw [chars, List.takeWhile_append_of_pos hhead, List.takeWhile_cons_of_neg (by simp),
      List.append_nil]
  have hline : '\n' ∉ (application head argument).chars :=
    not_mem_chars _ (by decide) (by decide) (by decide)
  unfold TypeExpr.splitApplication?
  rw [hdrop, htake]
  refine (if_pos ⟨List.getLast?_concat, hline⟩).trans ?_
  rw [List.dropLast_concat]

theorem inner_ne_empty (e : GenericType) : e.inner ≠ "" := by
  cases e with
  | word w =>
    have hall : ∀ entry ∈ TypeExpr.keywords, entry.2 ≠ "" := by decide
    rw [inner, Word.inner]
    cases hkeyword : TypeExpr.ofKeyword? w.text with
    | some type =>
      obtain ⟨before, after, heq, -⟩ := List.lookup_eq_some_iff.mp hkeyword
      exact hall (w.text, type) (heq ▸ List.mem_append_right before List.mem_cons_self)
    | none => exact (TypeExpr.isName_nameOfReference w.text).1
  | application head argument =>
    rw [inner]
    split_ifs <;> simp

variable (head : Word) (argument : GenericType)

theorem ofChars_application : TypeExpr.ofChars true (application head argument).chars =
    TypeExpr.apply (TypeExpr.ofWord true head.text) (TypeExpr.ofChars true argument.chars) := by
  rw [TypeExpr.ofChars, splitApplication?_chars]
  rfl

theorem ofChars_word (w : Word) : TypeExpr.ofChars true w.chars = TypeExpr.ofWord true w.text := by
  have hbracket : '[' ∉ w.chars := w.not_mem_chars (by decide)
  rw [TypeExpr.ofChars, TypeExpr.splitApplication?_eq_none hbracket]
  rfl

variable {head argument}

theorem ofChars_array (harray : head.text = "array") :
    TypeExpr.ofChars true (application head argument).chars =
      TypeExpr.arrayOf (TypeExpr.ofChars true argument.chars) := by
  rw [ofChars_application]
  exact if_pos (head.ofWord_text.1.trans (head.inner_eq_array_iff.mpr harray))

theorem ofChars_generic (harray : head.text ≠ "array")
    (hne : (TypeExpr.ofChars true argument.chars).text ≠ "") :
    TypeExpr.ofChars true (application head argument).chars =
      { text := head.inner ++ "<" ++ (TypeExpr.ofChars true argument.chars).text ++ ">"
        base := head.inner
        template := some (TypeExpr.ofChars true argument.chars).text
        imports := distinct (head.names ++ (TypeExpr.ofChars true argument.chars).imports) } := by
  obtain ⟨htext, hnames, -⟩ := head.ofWord_text
  have hhead : (TypeExpr.ofWord true head.text).text ≠ "any[]" :=
    fun h => harray (head.inner_eq_array_iff.mp (htext.symm.trans h))
  rw [ofChars_application, TypeExpr.apply, if_neg hhead, if_neg hne, htext, hnames]

/-- Among type arguments an expression is translated along its structure, and the names in it are
imported in order. -/
theorem ofChars_chars (e : GenericType) : (TypeExpr.ofChars true e.chars).text = e.inner ∧
    (TypeExpr.ofChars true e.chars).imports = distinct e.innerNames := by
  induction e with
  | word w =>
    obtain ⟨htext, himports, -⟩ := w.ofWord_text
    rw [chars, ofChars_word, inner, innerNames, htext, himports]
    refine ⟨rfl, ?_⟩
    rw [Word.names]
    split_ifs <;> rfl
  | application head argument ih =>
    obtain ⟨htext, himports⟩ := ih
    rw [inner, innerNames]
    by_cases harray : head.text = "array"
    · have hnone : head.names = [] := by
        rw [Word.names, TypeExpr.ofKeyword?_eq_array.mpr harray]
        rfl
      rw [ofChars_array harray, TypeExpr.arrayOf, htext, himports, if_pos harray, hnone]
      exact ⟨rfl, distinct_append_distinct [] _⟩
    · rw [ofChars_generic harray (htext ▸ argument.inner_ne_empty), htext, himports,
        if_neg harray]
      exact ⟨rfl, distinct_append_distinct _ _⟩

/-- A reference to an expression is read without its namespace. -/
theorem ofText_reference (dialect : Dialect) (e : GenericType) :
    TypeExpr.ofText (e.reference dialect) =
      if (TypeExpr.splitApplication? e.chars).isNone ∧ e.chars ≠ [] then
        TypeExpr.named (String.ofList e.chars)
      else TypeExpr.ofChars true e.chars := by
  have hslash : '/' ∉ e.chars := e.not_mem_chars (by decide) (by decide) (by decide)
  have hend : Text.dropRightWhile Text.isSpace e.chars = e.chars :=
    Text.dropRightWhile_eq_self e.isSpace_of_mem_chars
  have hclean : Text.trim (dialect.schemaNamespace ++ String.ofList e.chars).toList =
      dialect.schemaNamespace.toList ++ e.chars := by
    rw [String.toList_append, String.toList_ofList, TypeExpr.trim_schemaNamespace, hend]
  have hreference := TypeExpr.isReference_schemaNamespace dialect e.chars
  unfold TypeExpr.ofText reference
  dsimp only
  rw [if_pos hreference, hclean, TypeExpr.stripNamespaceChars_schemaNamespace _ hslash, hend]

theorem ofText_word (dialect : Dialect) (w : Word) :
    TypeExpr.ofText ((word w).reference dialect) =
      { text := TypeExpr.nameOfReference w.text, base := TypeExpr.nameOfReference w.text,
        imports := [TypeExpr.nameOfReference w.text] } := by
  have hbracket : '[' ∉ w.chars := w.not_mem_chars (by decide)
  rw [ofText_reference, ← w.named_text]
  exact if_pos ⟨by rw [chars, TypeExpr.splitApplication?_eq_none hbracket]; rfl, w.chars_ne_nil⟩

theorem ofText_application (dialect : Dialect) (head : Word) (argument : GenericType) :
    TypeExpr.ofText ((application head argument).reference dialect) =
      TypeExpr.ofChars true (application head argument).chars := by
  rw [ofText_reference, splitApplication?_chars]
  exact if_neg (by simp)

end GenericType

namespace TypeExpr

/-- The recursion of the reader: an expression that can be split is read after its two parts. -/
inductive Reads (fromReference : Bool) : List Char → TypeExpr → Prop
  | word {s : List Char} (h : splitApplication? s = none) :
      Reads fromReference s (ofWord fromReference (String.ofList s))
  | application {s head argument : List Char} {outer inner : TypeExpr}
      (h : splitApplication? s = some (head, argument)) (hhead : Reads fromReference head outer)
      (hargument : Reads fromReference argument inner) :
      Reads fromReference s (apply outer inner)

theorem splitApplication?_head {s head argument : List Char}
    (h : splitApplication? s = some (head, argument)) : splitApplication? head = none := by
  refine splitApplication?_eq_none fun hmem => ?_
  unfold splitApplication? at h
  split at h
  · split_ifs at h
    obtain ⟨rfl, -⟩ := Prod.mk.inj (Option.some.inj h)
    simpa using List.mem_takeWhile_imp hmem
  · cases h

/-- The recursion ends on every text. -/
theorem reads_ofChars (fromReference : Bool) (s : List Char) :
    Reads fromReference s (ofChars fromReference s) := by
  induction s using ofChars.induct with
  | case1 s head argument hs ih =>
    rw [ofChars, hs]
    exact .application hs (.word (splitApplication?_head hs)) ih
  | case2 s hs =>
    rw [ofChars, hs]
    exact .word hs

end TypeExpr

namespace GenericType

/-- A reference to an expression has the type that the structure of the expression gives, and
imports the types that are named in it, in order and without repetition; a type with arguments has
its head for a base and its argument for a template. The recursion of the reader ends on every
text. -/
theorem type_of_reference (dialect : Dialect) :
    (∀ e : GenericType, (TypeExpr.ofText (e.reference dialect)).text = e.type ∧
      (TypeExpr.ofText (e.reference dialect)).imports = e.names.eraseDups) ∧
    (∀ head argument, head.text ≠ "array" →
      (TypeExpr.ofText ((application head argument).reference dialect)).base = head.inner ∧
      (TypeExpr.ofText ((application head argument).reference dialect)).template =
        some argument.inner) ∧
    ∀ fromReference s, TypeExpr.Reads fromReference s (TypeExpr.ofChars fromReference s) := by
  refine ⟨fun e => ?_, fun head argument harray => ?_, TypeExpr.reads_ofChars⟩
  · cases e with
    | word w =>
      rw [ofText_word, type, names]
      generalize TypeExpr.nameOfReference w.text = name
      exact ⟨rfl, distinct_eq_eraseDups [name]⟩
    | application head argument =>
      obtain ⟨htext, himports⟩ := ofChars_chars (application head argument)
      rw [ofText_application]
      exact ⟨htext, himports.trans (distinct_eq_eraseDups _)⟩
  · have hargument := (ofChars_chars argument).1
    rw [ofText_application, ofChars_generic harray (hargument ▸ argument.inner_ne_empty),
      hargument]
    exact ⟨rfl, rfl⟩

namespace PetPages

def page : Word :=
  ⟨"paged-result".toList, List.all_eq_true.mp (by decide), List.any_eq_true.mp (by decide)⟩

def array : Word :=
  ⟨"array".toList, List.all_eq_true.mp (by decide), List.any_eq_true.mp (by decide)⟩

def pet : Word :=
  ⟨"pet".toList, List.all_eq_true.mp (by decide), List.any_eq_true.mp (by decide)⟩

/-- An array of pets among type arguments. -/
def pages : GenericType := .application page (.application array (.word pet))

theorem type_of_pages : page.text ≠ "array" ∧
    (TypeExpr.ofText (pages.reference .swagger2)).text = pages.type ∧
    (TypeExpr.ofText (pages.reference .swagger2)).imports = pages.names.eraseDups ∧
    (TypeExpr.ofText (pages.reference .swagger2)).base = page.inner ∧
    (TypeExpr.ofText (pages.reference .swagger2)).template =
      some (GenericType.application array (.word pet)).inner := by
  obtain ⟨htype, harguments, -⟩ := type_of_reference .swagger2
  have hpage : page.text ≠ "array" := by decide
  exact ⟨hpage, (htype pages).1, (htype pages).2, harguments page _ hpage⟩

end PetPages

end GenericType

end ClientGen
