import ClientGen.Proofs.Names
import ClientGen.Proofs.Naming.Words
import ClientGen.Schema.Builder
import Mathlib.Data.String.Basic

/-! Type expressions import the names that they mention, apart from the built-in types. -/

namespace ClientGen

/-- Characters of names: ASCII letters, digits and underscores. -/
def isNamePart (c : Char) : Bool := c.isAlphanum || c == '_'

/-- The maximal runs of name characters. -/
def runs (s : List Char) : List (List Char) :=
  (s.splitOnP fun c => !isNamePart c).filter fun run => !run.isEmpty

theorem runs_append_cons (a b : List Char) {c : Char} (hc : isNamePart c = false) :
    runs (a ++ c :: b) = runs a ++ runs b := by
  unfold runs
  rw [List.splitOnP_append_cons a b (by simp [hc]), List.filter_append]

/-- The words of a text: its maximal runs of name characters. -/
def words (text : String) : List String := (runs text.toList).map String.ofList

/-- A text of name characters, not empty. -/
def IsName (s : String) : Prop := s ≠ "" ∧ ∀ c ∈ s.toList, isNamePart c

instance (s : String) : Decidable (IsName s) :=
  decidable_of_iff (s ≠ "" ∧ s.toList.all isNamePart) (and_congr_right fun _ => List.all_eq_true)

theorem words_brackets (a : String) : words (a ++ "[]") = words a := by
  have h : (a ++ "[]").toList = a.toList ++ '[' :: ([] ++ ']' :: []) := by
    rw [String.toList_append]
    rfl
  unfold words
  rw [h, runs_append_cons _ _ (by decide), runs_append_cons _ _ (by decide)]
  simp [runs]

theorem words_application (a b : String) : words (a ++ "<" ++ b ++ ">") = words a ++ words b := by
  have h : (a ++ "<" ++ b ++ ">").toList = a.toList ++ '<' :: (b.toList ++ '>' :: []) := by
    simp only [String.toList_append, List.append_assoc]
    rfl
  unfold words
  rw [h, runs_append_cons _ _ (by decide), runs_append_cons _ _ (by decide)]
  simp [runs]

theorem IsName.words_eq {s : String} (h : IsName s) : words s = [s] := by
  unfold words runs
  rw [List.splitOnP_eq_singleton fun c hc => by simp [h.2 c hc]]
  simp [h.1]

theorem IsName.append {a b : String} (ha : IsName a) (hb : IsName b) : IsName (a ++ b) := by
  refine ⟨by simp [ha.1], ?_⟩
  intro c hc
  rw [String.toList_append] at hc
  rcases List.mem_append.mp hc with hc | hc
  · exact ha.2 c hc
  · exact hb.2 c hc

namespace TypeExpr

theorem isName_nameOfReference (ref : String) : IsName (nameOfReference ref) := by
  have hguard (name : String) (h : IsName name) :
      IsName (if name ∈ reserved then "Model" ++ name else name) := by
    split
    · exact IsName.append (by decide) h
    · exact h
  have hpart : ∀ c ∈ (Naming.pascalCase (stripNamespace ref)).toList, isNamePart c := by
    intro c hc
    have hname := Naming.isNameChar_of_mem_pascalChars c (by simpa [Naming.pascalCase] using hc)
    unfold Naming.isNameChar at hname
    simp [isNamePart, hname]
  unfold nameOfReference
  generalize Naming.pascalCase (stripNamespace ref) = name at hpart
  dsimp only
  split
  · decide
  · next hempty =>
    have hname : IsName name := ⟨hempty, hpart⟩
    split
    · exact hguard ("_" ++ name) (IsName.append (by decide) hname)
    · exact hguard name hname

/-- A named type is one imported name, unless no name is left of it. -/
theorem named_cases (expression : String) : named expression = {} ∨
    ∃ name, IsName name ∧ named expression = { text := name, base := name, imports := [name] } := by
  have hname := isName_nameOfReference expression
  unfold named
  generalize nameOfReference expression = name at hname ⊢
  dsimp only
  split
  · exact .inl rfl
  · exact .inr ⟨name, hname, rfl⟩

theorem isName_of_mem_builtIns : ∀ type ∈ builtIns, IsName type := by decide

private theorem ofKeyword?_builtIn {keyword type : String} (h : ofKeyword? keyword = some type) :
    type = "any[]" ∨ type ∈ builtIns := by
  have hall : ∀ entry ∈ keywords, entry.2 = "any[]" ∨ entry.2 ∈ builtIns := by decide
  obtain ⟨before, after, heq, -⟩ := List.lookup_eq_some_iff.mp h
  exact hall (keyword, type) (heq ▸ List.mem_append_right before List.mem_cons_self)

/-- A word is an array of any, one built-in type, or one imported name. -/
theorem ofWord_cases (fromReference : Bool) (word : String) :
    ofWord fromReference word = { text := "any[]", base := "any" } ∨
    (∃ type ∈ builtIns, ofWord fromReference word = { text := type, base := type }) ∨
    ∃ name, IsName name ∧
      ofWord fromReference word = { text := name, base := name, imports := [name] } := by
  unfold ofWord
  split
  · exact .inl rfl
  · next type hne hk => exact .inr (.inl ⟨type, (ofKeyword?_builtIn hk).resolve_left hne, rfl⟩)
  · split
    · rcases named_cases word with h | ⟨name, hname, h⟩
      · exact .inr (.inl ⟨"any", by decide, h⟩)
      · exact .inr (.inr ⟨name, hname, h⟩)
    · exact .inr (.inl ⟨"any", by decide, rfl⟩)

/-- A word that makes no array is its own base. -/
theorem text_ofWord (fromReference : Bool) (word : String) :
    (ofWord fromReference word).text = "any[]" ∨
      (ofWord fromReference word).text = (ofWord fromReference word).base := by
  rcases ofWord_cases fromReference word with h | ⟨_, _, h⟩ | ⟨_, _, h⟩ <;> simp [h]

/-- Every word of a type is built in or imported, and imports do not repeat. -/
structure Scoped (t : TypeExpr) : Prop where
  nodup : t.imports.Nodup
  base : t.base ∈ builtIns ∨ t.base ∈ t.imports
  words : ∀ w ∈ words t.text, w ∈ builtIns ∨ w ∈ t.imports

theorem scoped_builtIn (type : String) (h : type ∈ builtIns) :
    Scoped { text := type, base := type } := by
  refine ⟨List.nodup_nil, .inl h, ?_⟩
  intro w hw
  rw [(isName_of_mem_builtIns type h).words_eq] at hw
  exact .inl (List.mem_singleton.mp hw ▸ h)

theorem scoped_name {name : String} (h : IsName name) :
    Scoped { text := name, base := name, imports := [name] } := by
  refine ⟨List.nodup_singleton name, .inr List.mem_cons_self, ?_⟩
  intro w hw
  rw [h.words_eq] at hw
  exact .inr hw

theorem scoped_any : Scoped {} := scoped_builtIn "any" (by decide)

/-- The type `any` with imports that it does not mention itself. -/
theorem scoped_importing {imports : List String} (h : imports.Nodup) : Scoped { imports } :=
  ⟨h, .inl (scoped_any.base.resolve_right List.not_mem_nil),
    fun w hw => (scoped_any.words w hw).imp_right fun h => absurd h List.not_mem_nil⟩

theorem scoped_named (expression : String) : (named expression).Scoped := by
  rcases named_cases expression with h | ⟨name, hname, h⟩
  · exact h ▸ scoped_any
  · exact h ▸ scoped_name hname

theorem Scoped.arrayOf {items : TypeExpr} (h : items.Scoped) : (arrayOf items).Scoped := by
  refine ⟨nodup_distinct _, by simpa [TypeExpr.arrayOf] using h.base, ?_⟩
  intro w hw
  simp only [TypeExpr.arrayOf, words_brackets] at hw
  simpa [TypeExpr.arrayOf] using h.words w hw

theorem scoped_ofWord (fromReference : Bool) (word : String) :
    (ofWord fromReference word).Scoped := by
  rcases ofWord_cases fromReference word with h | ⟨type, htype, h⟩ | ⟨name, hname, h⟩
  · exact h ▸ scoped_any.arrayOf
  · exact h ▸ scoped_builtIn type htype
  · exact h ▸ scoped_name hname

/-- The head of an application is a word: where it makes no array, it is itself a type. -/
theorem Scoped.apply {argument : TypeExpr} (h : argument.Scoped) (fromReference : Bool)
    (word : String) : (apply (ofWord fromReference word) argument).Scoped := by
  have hhead := scoped_ofWord fromReference word
  have hbase := text_ofWord fromReference word
  generalize ofWord fromReference word = head at hhead hbase ⊢
  unfold TypeExpr.apply
  split_ifs with harray hempty
  · exact h.arrayOf
  · exact hhead
  · refine ⟨nodup_distinct _, ?_, ?_⟩
    · rw [hbase.resolve_left harray]
      exact hhead.base.imp_right fun hb => by simp [hb]
    · intro w hw
      simp only [words_application, List.mem_append] at hw
      rcases hw with hw | hw
      · exact (hhead.words w hw).imp_right fun hi => by simp [hi]
      · exact (h.words w hw).imp_right fun hi => by simp [hi]

theorem scoped_ofChars (fromReference : Bool) (s : List Char) :
    (ofChars fromReference s).Scoped := by
  induction s using ofChars.induct with
  | case1 s head argument hs ih =>
    rw [ofChars, hs]
    exact ih.apply fromReference _
  | case2 s hs =>
    rw [ofChars, hs]
    exact scoped_ofWord fromReference _

theorem nameOfReference_not_mem_reserved (ref : String) : nameOfReference ref ∉ reserved := by
  have hguard (name : String) :
      (if name ∈ reserved then "Model" ++ name else name) ∉ reserved := by
    have hprefix : ∀ taken ∈ reserved, "Model" ++ taken ∉ reserved := by decide
    split_ifs with htaken
    · exact hprefix name htaken
    · exact htaken
  unfold nameOfReference
  dsimp only
  by_cases hempty : Naming.pascalCase (stripNamespace ref) = ""
  · rw [if_pos hempty]
    decide
  · rw [if_neg hempty]
    exact hguard _

/-- The names of types: the built-in ones, and what references name. -/
inductive IsTypeName : String → Prop
  | builtIn {type : String} (h : type ∈ builtIns) : IsTypeName type
  | reference (ref : String) : IsTypeName (nameOfReference ref)

theorem IsTypeName.isName {name : String} (h : IsTypeName name) : IsName name := by
  cases h with
  | builtIn h => exact isName_of_mem_builtIns name h
  | reference ref => exact isName_nameOfReference ref

/-- The names of types are kept apart from those of the runtime, but for a file. -/
theorem IsTypeName.eq_file {name : String} (h : IsTypeName name) (hr : name ∈ reserved) :
    name = "File" := by
  have hfile : ∀ type ∈ builtIns, type ∈ reserved → type = "File" := by decide
  cases h with
  | builtIn h => exact hfile name h hr
  | reference ref => exact absurd hr (nameOfReference_not_mem_reserved ref)

theorem base_named (expression : String) :
    (named expression).base = nameOfReference expression := by
  unfold named
  generalize nameOfReference expression = name
  dsimp only
  split
  · next h => exact h.symm
  · rfl

theorem isTypeName_base_named (expression : String) : IsTypeName (named expression).base := by
  rw [base_named]
  exact .reference expression

theorem isTypeName_base_ofWord (fromReference : Bool) (word : String) :
    IsTypeName (ofWord fromReference word).base := by
  have hany : IsTypeName "any" := .builtIn (by decide)
  unfold ofWord
  split
  · exact hany
  · next type hne hk => exact .builtIn ((ofKeyword?_builtIn hk).resolve_left hne)
  · split
    · exact isTypeName_base_named word
    · exact hany

/-- The base of an application is the text of its head, which is a word, or that of its argument. -/
theorem isTypeName_base_apply {argument : TypeExpr} (h : IsTypeName argument.base)
    (fromReference : Bool) (word : String) :
    IsTypeName (apply (ofWord fromReference word) argument).base := by
  have hhead := isTypeName_base_ofWord fromReference word
  have hbase := text_ofWord fromReference word
  generalize ofWord fromReference word = head at hhead hbase ⊢
  unfold apply
  split_ifs with harray hempty
  · exact h
  · exact hhead
  · exact hbase.resolve_left harray ▸ hhead

theorem isTypeName_base_ofChars (fromReference : Bool) (s : List Char) :
    IsTypeName (ofChars fromReference s).base := by
  induction s using ofChars.induct with
  | case1 s head argument hs ih =>
    rw [ofChars, hs]
    exact isTypeName_base_apply ih fromReference _
  | case2 s hs =>
    rw [ofChars, hs]
    exact isTypeName_base_ofWord fromReference _

/-- The base of a type is the name of one, whatever the type is read from. -/
theorem isTypeName_base_ofText (s : String) : IsTypeName (ofText s).base := by
  unfold ofText
  dsimp only
  split_ifs
  · exact isTypeName_base_named _
  · exact isTypeName_base_ofChars true _
  · exact isTypeName_base_ofChars false _

theorem scoped_ofText (s : String) : (ofText s).Scoped := by
  unfold ofText
  dsimp only
  split_ifs
  · exact scoped_named _
  · exact scoped_ofChars true _
  · exact scoped_ofChars false _

end TypeExpr

theorem TypeExpr.Scoped.inDictionary {type : TypeExpr} (h : type.Scoped) :
    (Model.inDictionary type).Scoped := by
  refine ⟨nodup_distinct _, ?_, ?_⟩
  · exact h.base.imp_right fun hb => by simp [Model.inDictionary, hb]
  · intro w hw
    exact (h.words w hw).imp_right fun hi => by simp [Model.inDictionary, hi]

end ClientGen
