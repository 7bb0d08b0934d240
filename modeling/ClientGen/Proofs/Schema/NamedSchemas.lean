import ClientGen.Api.Client
import ClientGen.Proofs.Document.References
import ClientGen.Proofs.Document.Segments
import ClientGen.Proofs.Schema.Built
import ClientGen.Proofs.Schema.TypeExpr

/-! References to named schemas and the keys of these schemas spell one model name. -/

namespace ClientGen

namespace TypeExpr

theorem splitApplication?_eq_none {s : List Char} (h : '[' ∉ s) : splitApplication? s = none := by
  unfold splitApplication?
  split
  · next inner heq =>
    exact absurd (List.dropWhile_subset _ (heq ▸ List.mem_cons_self)) h
  · rfl

theorem stripNamespaceChars_subset (s : List Char) : stripNamespaceChars s ⊆ s := by
  intro c hc
  refine Text.trim_subset s ?_
  rcases List.mem_append.mp hc with hc | hc
  · unfold lastSegment at hc
    have hc := List.takeWhile_subset _ (List.mem_reverse.mp hc)
    exact List.takeWhile_subset _ (List.mem_reverse.mp hc)
  · exact List.dropWhile_subset _ hc

theorem imports_ofWord (fromReference : Bool) (word : String) :
    ∀ n ∈ (ofWord fromReference word).imports, n = (ofWord fromReference word).base := by
  rcases ofWord_cases fromReference word with h | ⟨_, _, h⟩ | ⟨_, _, h⟩ <;> simp [h]

theorem imports_named (expression : String) :
    ∀ n ∈ (named expression).imports, n = (named expression).base := by
  rcases named_cases expression with h | ⟨_, _, h⟩ <;> simp [h]

/-- A type without type arguments imports itself at most. -/
theorem imports_ofText {s : String} (h : '[' ∉ s.toList) :
    ∀ n ∈ (ofText s).imports, n = (ofText s).base := by
  have hclean : '[' ∉ Text.trim s.toList := fun hc => h (Text.trim_subset _ hc)
  have hword (fromReference : Bool) {t : List Char} (ht : '[' ∉ t) :
      ∀ n ∈ (ofChars fromReference t).imports, n = (ofChars fromReference t).base := by
    rw [ofChars, splitApplication?_eq_none ht]
    exact imports_ofWord fromReference _
  unfold ofText
  dsimp only
  split_ifs
  · exact imports_named _
  · exact hword true fun hc => hclean (stripNamespaceChars_subset _ hc)
  · exact hword false hclean

/-- Type keywords import nothing. -/
theorem imports_ofChars_false (s : List Char) : (ofChars false s).imports = [] := by
  have hword (word : String) : (ofWord false word).imports = [] := by
    unfold ofWord
    split
    · rfl
    · rfl
    · simp
  induction s using ofChars.induct with
  | case1 s head argument hs ih =>
    rw [ofChars, hs]
    dsimp only
    unfold apply
    split_ifs
    · simp [arrayOf, ih, distinct, distinct.go]
    · exact hword _
    · simp [hword, ih, distinct, distinct.go]
  | case2 s hs =>
    rw [ofChars, hs]
    exact hword _

theorem imports_ofText_keyword {s : String} (hslash : '/' ∉ s.toList) (hhash : '#' ∉ s.toList) :
    (ofText s).imports = [] := by
  have hclean : isReference (String.ofList (Text.trim s.toList)) = false := by
    rw [isReference, String.toList_ofList, Bool.or_eq_false_iff]
    constructor
    · rw [beq_eq_false_iff_ne]
      exact fun h => hhash (Text.trim_subset _ (List.mem_of_mem_head? h))
    · rw [← Bool.not_eq_true, List.contains_iff_mem]
      exact fun h => hslash (Text.trim_subset _ h)
  unfold ofText
  simp only [hclean]
  exact imports_ofChars_false _

section

variable (dialect : Dialect) (key : List Char)

theorem trim_schemaNamespace :
    Text.trim (dialect.schemaNamespace.toList ++ key) =
      dialect.schemaNamespace.toList ++ Text.dropRightWhile Text.isSpace key := by
  have hstart : dialect.schemaNamespace.toList.dropWhile Text.isSpace =
      dialect.schemaNamespace.toList := by cases dialect <;> decide
  have hlast : dialect.schemaNamespace.toList.getLast? = some '/' := by cases dialect <;> decide
  have hend : ∀ c ∈ dialect.schemaNamespace.toList.getLast?, Text.isSpace c = false := by
    intro c hc
    rw [hlast] at hc
    obtain rfl := Option.some.inj hc
    decide
  have hne : dialect.schemaNamespace.toList ≠ [] := by cases dialect <;> decide
  unfold Text.trim Text.trimWhile
  rw [List.dropWhile_append, hstart, if_neg (by simpa using hne), Text.dropRightWhile_append hend]

variable {key}

private theorem lastSegment_schemaNamespace (hslash : '/' ∉ key) :
    lastSegment (dialect.schemaNamespace.toList ++ key) = key := by
  have hkey : key.reverse.takeWhile (· != '/') = key.reverse :=
    List.takeWhile_eq_self_iff.mpr fun c hc => by
      have hne : c ≠ '/' := fun h => hslash (h ▸ List.mem_reverse.mp hc)
      simpa using hne
  have hend : dialect.schemaNamespace.toList.reverse.takeWhile (· != '/') = [] := by
    cases dialect <;> decide
  unfold lastSegment
  rw [List.reverse_append, List.takeWhile_append, hkey, if_pos rfl, hend, List.append_nil,
    List.reverse_reverse]

theorem stripNamespaceChars_schemaNamespace (hslash : '/' ∉ key) :
    stripNamespaceChars (dialect.schemaNamespace.toList ++ key) =
      Text.dropRightWhile Text.isSpace key := by
  have hsub := Text.dropRightWhile_subset Text.isSpace key
  have hnamespace : ∀ c ∈ dialect.schemaNamespace.toList, (c != '[') = true :=
    List.all_eq_true.mp (by cases dialect <;> decide)
  have hhead : '/' ∉ (Text.dropRightWhile Text.isSpace key).takeWhile (· != '[') :=
    fun h => hslash (hsub (List.takeWhile_subset _ h))
  unfold stripNamespaceChars
  dsimp only
  rw [trim_schemaNamespace, List.takeWhile_append_of_pos hnamespace,
    List.dropWhile_append_of_pos hnamespace, lastSegment_schemaNamespace _ hhead,
    List.takeWhile_append_dropWhile]

/-- The type of a reference to a named schema is that of its key, in every dialect. -/
theorem ofText_schemaNamespace (other : Dialect) (hslash : '/' ∉ key) :
    ofText (dialect.schemaNamespace ++ String.ofList key) =
      ofText (other.schemaNamespace ++ String.ofList key) := by
  have hsub := Text.dropRightWhile_subset Text.isSpace key
  have hopen (d : Dialect) : ofText (d.schemaNamespace ++ String.ofList key) =
      if (splitApplication? (Text.dropRightWhile Text.isSpace key)).isNone ∧
          Text.dropRightWhile Text.isSpace key ≠ [] then
        named (String.ofList (Text.dropRightWhile Text.isSpace key))
      else ofChars true (Text.dropRightWhile Text.isSpace key) := by
    have hreference : isReference (String.ofList
        (d.schemaNamespace.toList ++ Text.dropRightWhile Text.isSpace key)) := by
      rw [isReference, String.toList_ofList]
      cases d <;> rfl
    unfold ofText
    simp only [String.toList_append, String.toList_ofList, trim_schemaNamespace, hreference,
      if_true, Text.dropRightWhile_idem,
      stripNamespaceChars_schemaNamespace d fun h => hslash (hsub h)]
  rw [hopen, hopen]

end

end TypeExpr

/-- Characters of keys: ASCII letters, digits, dots, underscores and hyphens. -/
def isKeyChar (c : Char) : Bool := c.isAlphanum || c == '.' || c == '_' || c == '-'

/-- A key of a named schema as both dialects ask for it. -/
def IsSchemaKey (key : Scalar) : Prop :=
  ∃ s, key = .str s ∧ s ≠ "" ∧ ∀ c ∈ s.toList, isKeyChar c

theorem Dialect.schemaKey?_append (dialect : Dialect) (key : List Char) :
    dialect.schemaKey? (dialect.schemaNamespace ++ String.ofList key) = some key := by
  unfold schemaKey?
  dsimp only
  rw [String.toList_append, String.toList_ofList,
    if_pos (List.isPrefixOf_iff_prefix.mpr (List.prefix_append _ _)), List.drop_left]

theorem Dialect.isSchemaRef_append (dialect : Dialect) {key : List Char} (hne : key ≠ [])
    (hslash : '/' ∉ key) (hbracket : '[' ∉ key) :
    dialect.isSchemaRef (dialect.schemaNamespace ++ String.ofList key) := by
  have hall : key.takeWhile (· != '[') = key := List.takeWhile_eq_self_iff.mpr fun c hc => by
    have hne : c ≠ '[' := fun h => hbracket (h ▸ hc)
    simpa using hne
  simp [isSchemaRef, schemaKey?_append, hall, hne, hslash]

namespace ApiDocument

theorem namedSchema?_append (doc : ApiDocument) (key : List Char) :
    doc.namedSchema? (doc.dialect.schemaNamespace ++ String.ofList key) =
      doc.schemas.get? (String.ofList (Pointer.unescapeChars key)) := by
  unfold namedSchema?
  dsimp only
  rw [String.toList_append, String.toList_ofList, ← String.length_toList, List.drop_left]

/-- A reference to a named schema is the namespace and the key itself. -/
theorem IsNamed.eq_append {doc : ApiDocument} (hkeys : ∀ e ∈ doc.schemas, IsSchemaKey e.1)
    {ref : String} (h : doc.IsNamed ref) :
    ∃ e ∈ doc.schemas, ∃ k, e.1 = .str k ∧ (∀ c ∈ k.toList, isKeyChar c) ∧
      ref = doc.dialect.schemaNamespace ++ k := by
  obtain ⟨hs, hnamed⟩ := h
  obtain ⟨schema, hschema⟩ := Option.isSome_iff_exists.mp hnamed
  have hmem := Entries.mem_of_get? hschema
  obtain ⟨k, hk, -, hchars⟩ := hkeys _ hmem
  obtain rfl := Scalar.str.inj hk
  have hprefix : doc.dialect.schemaNamespace.toList <+: ref.toList := by
    unfold Dialect.isSchemaRef Dialect.schemaKey? at hs
    dsimp only at hs
    split at hs
    · cases hs
    · next hkey =>
      split_ifs at hkey with hstart
      exact List.isPrefixOf_iff_prefix.mp hstart
  obtain ⟨key, hkey⟩ := hprefix
  rw [← hkey, ← String.length_toList, List.drop_left, String.toList_ofList] at hchars
  rw [← hkey, ← String.length_toList, List.drop_left] at hmem
  have hplain : key = Pointer.unescapeChars key := by
    refine Pointer.eq_of_unescapeChars rfl (fun hc => ?_) fun hc => ?_
    · exact absurd (hchars '~' hc) (by decide)
    · exact absurd (hchars '/' hc) (by decide)
  rw [← hplain] at hmem hchars
  refine ⟨_, hmem, _, rfl, by rwa [String.toList_ofList], String.toList_inj.mp ?_⟩
  rw [String.toList_append, String.toList_ofList, hkey]

/-- A reference to a named schema imports the name of that schema's model at most. -/
theorem IsNamed.imports {doc : ApiDocument} (hkeys : ∀ e ∈ doc.schemas, IsSchemaKey e.1)
    {ref : String} (h : doc.IsNamed ref) :
    ∀ n ∈ (TypeExpr.ofText ref).imports, ∃ d ∈ doc.declarations, d.name = n := by
  obtain ⟨⟨key, schema⟩, he, k, rfl, hchars, rfl⟩ := h.eq_append hkeys
  have hbracket : '[' ∉ (doc.dialect.schemaNamespace ++ k).toList := by
    rw [String.toList_append, List.mem_append]
    rintro (hc | hc)
    · cases hd : doc.dialect <;> rw [hd] at hc <;> exact absurd hc (by decide)
    · exact absurd (hchars '[' hc) (by decide)
  intro n hn
  refine ⟨_, List.mem_map_of_mem he, ?_⟩
  dsimp only
  rw [modelName, show (Scalar.str k).display = k from rfl, TypeExpr.imports_ofText hbracket n hn]

end ApiDocument

end ClientGen
