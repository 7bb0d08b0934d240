import ClientGen.Proofs.Document.Keyed
import ClientGen.Proofs.Schema.EnumNames
import ClientGen.Proofs.Schema.Expansion
import ClientGen.Proofs.Schema.NumericDefaults

/-! A list of a keyword and `null` as the type of a schema, beside the keyword with the mark that
nothing is admitted. Where the schema has neither a default nor a structure that hangs on the
keyword both stand for the same model. -/

namespace ClientGen

namespace Node

/-- A map with the value of a key set. -/
def set (node : Node) (key : String) (value : Node) : Node :=
  .map (node.entries.insert (.str key) value)

@[simp] theorem get?_set_self (node : Node) (key : String) (value : Node) :
    (node.set key value).get? key = some value := Entries.get?_insert_self _ key value

theorem get?_set_of_ne (node : Node) {key other : String} (value : Node) (h : other ≠ key) :
    (node.set key value).get? other = node.get? other :=
  Entries.get?_insert_of_ne _ value fun heq => h (Scalar.str.inj heq).symm

/-- A schema of a type that admits nothing. -/
def nullable (schema : Node) (keyword : String) : Node :=
  (schema.set "type" (.str keyword)).set "nullable" (.bool true)

/-- A schema of several types. -/
def ofTypes (schema : Node) (types : List Node) : Node := schema.set "type" (.list types)

/-- Two maps that differ at most in their types and in whether they admit nothing. -/
structure SameBeside (a b : Node) : Prop where
  left : a.isMap
  right : b.isMap
  get? {key : String} (htype : key ≠ "type") (hnullable : key ≠ "nullable") :
    a.get? key = b.get? key

theorem sameBeside_ofTypes (schema : Node) (keyword : String) (types : List Node) :
    (schema.nullable keyword).SameBeside (schema.ofTypes types) where
  left := rfl
  right := rfl
  get? htype hnullable := by
    rw [nullable, ofTypes, get?_set_of_ne _ _ hnullable, get?_set_of_ne _ _ htype,
      get?_set_of_ne _ _ htype]

namespace SameBeside

variable {a b : Node} (h : a.SameBeside b)
include h

theorem member {key : String} (htype : key ≠ "type") (hnullable : key ≠ "nullable") :
    a.member key = b.member key := by
  rw [member_eq_ok h.left, member_eq_ok h.right, h.get? htype hnullable]

theorem reference? : Pointer.reference? a = Pointer.reference? b := by
  unfold Pointer.reference?
  rw [h.get? (by decide) (by decide)]

theorem constraints :
    Constraints.fieldsOfSchema a.entries = Constraints.fieldsOfSchema b.entries := by
  have hkeys : ∀ k ∈ Constraints.keywords, k.1 ≠ "type" ∧ k.1 ≠ "nullable" := by decide
  exact Constraints.fieldsOfSchema_congr fun k hk => h.get? (hkeys k hk).1 (hkeys k hk).2

theorem composition? (dialect : Dialect) :
    ApiDocument.composition? dialect a = ApiDocument.composition? dialect b := by
  unfold ApiDocument.composition? ApiDocument.branches?
  cases dialect <;> simp [Dialect.compositions, List.findSome?_cons, h.get?]

theorem properties? : ApiDocument.properties? a = ApiDocument.properties? b := by
  unfold ApiDocument.properties?
  rw [h.get? (by decide) (by decide)]

theorem requiredKeys : ApiDocument.requiredKeys a = ApiDocument.requiredKeys b := by
  unfold ApiDocument.requiredKeys
  rw [h.member (by decide) (by decide)]

theorem parts (dialect : Dialect) : ApiDocument.parts dialect a = ApiDocument.parts dialect b := by
  unfold ApiDocument.parts
  rw [h.get? (by decide) (by decide), h.get? (by decide) (by decide), h.composition?, h.properties?]

end SameBeside

/-- A list of values that is not without members: with it a schema is an enumeration, or a failure
if a value has no text, wherever its type allows one. -/
def ListsMembers (schema : Node) : Prop :=
  ∃ values, schema.get? "enum" = some (.list values) ∧ EnumEntry.ofValues values ≠ .ok []

/-- The keywords of a schema do not depend on the type `keyword` where the type must be this text,
not a list with it: there is no default besides `null`; and where the schema is no reference, a
list of members is not kept from a truth value, and otherwise nothing says what the items of an
array or the values of an object are. -/
structure IgnoresType (schema : Node) (keyword : String) : Prop where
  default : ∀ value, schema.get? "default" = some value → value = .null
  truth (hr : Pointer.reference? schema = none) (hm : schema.ListsMembers) : keyword ≠ "boolean"
  items (hr : Pointer.reference? schema = none) (hm : ¬ schema.ListsMembers)
    (ha : keyword = "array") : ∀ items, schema.get? "items" = some items → items.isMap = false
  values (hr : Pointer.reference? schema = none) (hm : ¬ schema.ListsMembers)
    (ho : keyword = "object") : ∀ values, schema.get? "additionalProperties" = some values →
      values.isMap = false ∧ values.isBool true = false

variable {schema : Node} {keyword : String} {types : List Node}

theorem type_nullable : (schema.nullable keyword).member "type" = .ok (.str keyword) := by
  rw [member_eq_ok rfl, nullable, get?_set_of_ne _ _ (by decide), get?_set_self]
  rfl

theorem type_ofTypes : (schema.ofTypes types).member "type" = .ok (.list types) := by
  rw [member_eq_ok rfl, ofTypes, get?_set_self]
  rfl

theorem isNullable_nullable :
    Dialect.openApi3.isNullable (schema.nullable keyword) = .ok true := by
  have hmark : (schema.nullable keyword).member "nullable" = .ok (.bool true) := by
    rw [member_eq_ok rfl, nullable, get?_set_self]
    rfl
  rw [Dialect.isNullable, type_nullable, hmark]
  rfl

theorem isNullable_ofTypes (hnull : .str "null" ∈ types) :
    Dialect.openApi3.isNullable (schema.ofTypes types) = .ok true := by
  have hlists : types.any (fun item => Dialect.isText item "null") = true :=
    List.any_eq_true.mpr ⟨_, hnull, rfl⟩
  rw [Dialect.isNullable, type_ofTypes, member_eq_ok rfl]
  simp only [ok_bind, hlists, Bool.or_true]
  rfl

variable (schema keyword types) in
theorem get?_nullable {key : String} (htype : key ≠ "type") (hnullable : key ≠ "nullable") :
    (schema.nullable keyword).get? key = schema.get? key := by
  rw [nullable, get?_set_of_ne _ _ hnullable, get?_set_of_ne _ _ htype]

variable (schema types) in
theorem get?_ofTypes {key : String} (htype : key ≠ "type") :
    (schema.ofTypes types).get? key = schema.get? key := get?_set_of_ne _ _ htype

/-- A default that is nothing is one whatever the type. -/
theorem IgnoresType.defaultLiteral (h : schema.IgnoresType keyword) :
    DefaultLiteral.ofSchema (schema.nullable keyword) =
      DefaultLiteral.ofSchema (schema.ofTypes types) := by
  have hsame := sameBeside_ofTypes schema keyword types
  unfold DefaultLiteral.ofSchema
  cases hdefault : schema.get? "default" with
  | none =>
    have hleft := (get?_nullable schema keyword (by decide) (by decide)).trans hdefault
    have hright := (get?_ofTypes schema types (by decide)).trans hdefault
    rw [mentions_eq_ok hsame.left, mentions_eq_ok hsame.right, hleft, hright]
    rfl
  | some value =>
    obtain rfl := h.default value hdefault
    have hleft := (get?_nullable schema keyword (by decide) (by decide)).trans hdefault
    have hright := (get?_ofTypes schema types (by decide)).trans hdefault
    rw [mentions_of_get? hleft, mentions_of_get? hright, required_of_get? hleft,
      required_of_get? hright]
    rfl

/-- The outlines are equal. -/
theorem IgnoresType.outline (h : schema.IgnoresType keyword) (hnull : .str "null" ∈ types)
    (isDefinition : Bool) (name : Option String) :
    Outline.ofSchema .openApi3 isDefinition name (schema.nullable keyword) =
      Outline.ofSchema .openApi3 isDefinition name (schema.ofTypes types) := by
  have hsame := sameBeside_ofTypes schema keyword types
  unfold Outline.ofSchema
  rw [hsame.member (by decide) (by decide), hsame.member (by decide) (by decide),
    isNullable_nullable, isNullable_ofTypes hnull, h.defaultLiteral, hsame.constraints]

end Node

namespace ApiDocument

open Node

variable {doc : ApiDocument} {schema : Node} {keyword : String} {types : List Node}

/-- The members of the values that a schema lists. -/
def valueMembers (schema : Node) : Except Fault (List EnumEntry) :=
  match schema.get? "enum" with
  | some (.list values) => do
    let entries ← EnumEntry.ofValues values
    EnumEntry.extend entries ((schema.get? "x-enum-varnames").getD .null)
      ((schema.get? "x-enum-descriptions").getD .null)
  | _ => .ok []

theorem valueMembers_eq_nil : valueMembers schema = .ok [] ↔ ¬ schema.ListsMembers := by
  unfold valueMembers Node.ListsMembers
  split
  · next values hvalues =>
    have hlists : (∃ others, schema.get? "enum" = some (.list others) ∧
        EnumEntry.ofValues others ≠ .ok []) ↔ EnumEntry.ofValues values ≠ .ok [] := by
      rw [hvalues]
      constructor
      · rintro ⟨_, heq, hne⟩
        obtain ⟨rfl⟩ := heq
        exact hne
      · exact fun hne => ⟨values, rfl, hne⟩
    rw [hlists, not_not, bind_eq_ok]
    constructor
    · rintro ⟨entries, hentries, hextended⟩
      rw [hentries, (EnumEntry.extend_eq_nil hextended).mp rfl]
    · exact fun hnil => ⟨[], hnil, EnumEntry.extend_nil _ _⟩
  · next hno =>
    refine iff_of_true rfl ?_
    rintro ⟨values, heq, -⟩
    exact hno values heq

theorem valueMembers_nullable : valueMembers (schema.nullable keyword) = valueMembers schema := by
  unfold valueMembers
  rw [get?_nullable _ _ (by decide) (by decide), get?_nullable _ _ (by decide) (by decide),
    get?_nullable _ _ (by decide) (by decide)]

theorem valueMembers_ofTypes : valueMembers (schema.ofTypes types) = valueMembers schema := by
  unfold valueMembers
  rw [get?_ofTypes _ _ (by decide), get?_ofTypes _ _ (by decide), get?_ofTypes _ _ (by decide)]

/-- The values of a schema are read unless they are truth values. -/
theorem listedMembers_openApi3 {kind : Node} (hmap : schema.isMap)
    (hkind : schema.member "type" = .ok kind) :
    listedMembers .openApi3 schema =
      if Dialect.isText kind "boolean" = true then .ok [] else valueMembers schema := by
  unfold listedMembers valueMembers Dialect.hasEnum
  rw [hkind, Node.member_eq_ok hmap "enum", Node.member_eq_ok hmap "x-enum-varnames",
    Node.member_eq_ok hmap "x-enum-descriptions"]
  cases hget : schema.get? "enum" with
  | none =>
    rw [ite_self]
    rfl
  | some value =>
    cases value with
    | scalar s =>
      rw [ite_self]
      rfl
    | map es =>
      rw [ite_self]
      rfl
    | list values =>
      cases htruth : Dialect.isText kind "boolean" <;>
      · simp only [Option.getD_some, ok_bind, htruth]
        rfl

/-- The enumeration of members that a schema lists, if there are some. -/
def listedEnum? (listed : List EnumEntry) : Option Model :=
  if listed = [] then none else some (Model.ofMembers (Model.memberType listed) listed)

/-- A schema is an enumeration where it lists members, truth values apart. -/
theorem enumModel?_openApi3 {kind : Node} (hmap : schema.isMap)
    (hkind : schema.member "type" = .ok kind) :
    enumModel? .openApi3 schema =
      if Dialect.isText kind "boolean" = true then .ok none
      else (valueMembers schema).map listedEnum? := by
  have hdescribed : describedMembers .openApi3 schema = .ok [] := rfl
  unfold enumModel?
  rw [listedMembers_openApi3 hmap hkind, hdescribed]
  split_ifs
  · rfl
  · cases valueMembers schema with
    | error fault => rfl
    | ok listed => cases listed <;> rfl

theorem reference?_nullable :
    Pointer.reference? (schema.nullable keyword) = Pointer.reference? schema := by
  unfold Pointer.reference?
  rw [get?_nullable _ _ (by decide) (by decide)]

theorem reference?_ofTypes :
    Pointer.reference? (schema.ofTypes types) = Pointer.reference? schema := by
  unfold Pointer.reference?
  rw [get?_ofTypes _ _ (by decide)]

theorem arrayItems?_nullable (kind : Node) :
    arrayItems? kind (schema.nullable keyword) = arrayItems? kind schema := by
  unfold arrayItems?
  rw [get?_nullable _ _ (by decide) (by decide)]

theorem dictionaryValues?_nullable (kind : Node) :
    dictionaryValues? kind (schema.nullable keyword) = dictionaryValues? kind schema := by
  unfold dictionaryValues?
  rw [get?_nullable _ _ (by decide) (by decide)]

theorem isText_str {s t : String} : Dialect.isText (.str s) t ↔ s = t := by
  simp [Dialect.isText, Node.text?]

theorem enumModel?_nullable :
    enumModel? .openApi3 (schema.nullable keyword) =
      if keyword = "boolean" then .ok none else (valueMembers schema).map listedEnum? := by
  rw [enumModel?_openApi3 rfl type_nullable, valueMembers_nullable]
  simp only [isText_str]

variable (types) in
/-- No list of types is that of the truth values. -/
theorem enumModel?_ofTypes :
    enumModel? .openApi3 (schema.ofTypes types) = (valueMembers schema).map listedEnum? := by
  have hlist : Dialect.isText (.list types) "boolean" = false := rfl
  rw [enumModel?_openApi3 rfl type_ofTypes, valueMembers_ofTypes, hlist, if_neg Bool.false_ne_true]

/-- Without members there is no enumeration. -/
theorem enumModel?_nullable_of_not_lists (h : ¬ schema.ListsMembers) :
    enumModel? .openApi3 (schema.nullable keyword) = .ok none := by
  rw [enumModel?_nullable, valueMembers_eq_nil.mpr h]
  split_ifs <;> rfl

theorem enumModel?_ofTypes_of_not_lists (h : ¬ schema.ListsMembers) :
    enumModel? .openApi3 (schema.ofTypes types) = .ok none := by
  rw [enumModel?_ofTypes, valueMembers_eq_nil.mpr h]
  rfl

variable (types) in
/-- A list of types keeps no members from a schema. -/
theorem enumModel?_ofTypes_ne_none (h : schema.ListsMembers) :
    enumModel? .openApi3 (schema.ofTypes types) ≠ .ok none := by
  rw [enumModel?_ofTypes]
  intro hnone
  obtain ⟨listed, hlisted, hempty⟩ := map_eq_ok.mp hnone
  unfold listedEnum? at hempty
  split_ifs at hempty with hnil
  exact valueMembers_eq_nil.mp (hnil ▸ hlisted) h

theorem arrayItems?_eq_none : arrayItems? (.str keyword) schema = none ↔
    (keyword = "array" → ∀ items, schema.get? "items" = some items → items.isMap = false) := by
  unfold arrayItems?
  rw [ite_eq_right_iff, isText_str, Option.filter_eq_none_iff]
  simp only [Bool.not_eq_true]

theorem dictionaryValues?_eq_none : dictionaryValues? (.str keyword) schema = none ↔
    (keyword = "object" → ∀ values, schema.get? "additionalProperties" = some values →
      values.isMap = false ∧ values.isBool true = false) := by
  change (if Dialect.isText (.str keyword) "object" = true then _ else none) = none ↔ _
  rw [ite_eq_right_iff, isText_str, Option.filter_eq_none_iff]
  simp only [Bool.not_eq_true, Bool.or_eq_false_iff]

/-- The keyword beside `null` is the type of a list of the two. -/
theorem keywordType_list (ht : keyword ≠ "null")
    (htypes : types = [.str keyword, .str "null"] ∨ types = [.str "null", .str keyword]) :
    keywordType (.list types) = keywordType (.str keyword) := by
  have hkeyword : Dialect.isText (.str keyword) "null" = false :=
    Bool.eq_false_iff.mpr (isText_str.not.mpr ht)
  have hfind : types.find? (fun item => !Dialect.isText item "null") = some (.str keyword) := by
    rcases htypes with rfl | rfl
    · rw [List.find?_cons_of_pos (by simp [hkeyword])]
    · rw [List.find?_cons_of_neg (by decide), List.find?_cons_of_pos (by simp [hkeyword])]
  unfold keywordType typeKeyword?
  simp only [hfind]
  rfl

section Build

variable (ht : keyword ≠ "null")
  (htypes : types = [.str keyword, .str "null"] ∨ types = [.str "null", .str keyword])
include ht htypes

/-- Neither schema says more of its structure than the other. -/
theorem buildStructure_ofTypes (h : schema.IgnoresType keyword)
    (hr : Pointer.reference? schema = none) (hm : ¬ schema.ListsMembers) (pending : List String)
    (outline : Outline) :
    doc.buildStructure pending outline (schema.nullable keyword) =
      doc.buildStructure pending outline (schema.ofTypes types) := by
  have hsame := sameBeside_ofTypes schema keyword types
  have hitems : arrayItems? (.list types) (schema.ofTypes types) = none := rfl
  have hvalues : dictionaryValues? (.list types) (schema.ofTypes types) = none := rfl
  rw [buildStructure, buildStructure, type_nullable, type_ofTypes, ok_bind, ok_bind, hitems,
    hvalues, arrayItems?_nullable, arrayItems?_eq_none.mpr (h.items hr hm),
    dictionaryValues?_nullable, dictionaryValues?_eq_none.mpr (h.values hr hm),
    hsame.composition?, hsame.properties?, hsame.requiredKeys, keywordType_list ht htypes]

/-- A schema that ignores its type has one model with the mark and with the list. -/
theorem model_ofTypes (hdialect : doc.dialect = .openApi3) (h : schema.IgnoresType keyword)
    (isDefinition : Bool) (name : String) :
    doc.model (schema.nullable keyword) isDefinition name =
      doc.model (schema.ofTypes types) isDefinition name := by
  have hsame := sameBeside_ofTypes schema keyword types
  have hnull : .str "null" ∈ types := by
    rcases htypes with rfl | rfl <;> simp
  have houtline : Outline.ofSchema doc.dialect isDefinition (some name) (schema.nullable keyword) =
      Outline.ofSchema doc.dialect isDefinition (some name) (schema.ofTypes types) := by
    rw [hdialect, h.outline hnull]
  have hp : (doc.references (schema.nullable keyword)).Nodup := nodup_references _
  have hq : (doc.references (schema.ofTypes types)).Nodup := nodup_references _
  unfold model
  cases hr : Pointer.reference? schema with
  | some ref =>
    have hleft : Pointer.reference? (schema.nullable keyword) = some ref :=
      reference?_nullable.trans hr
    have hright : Pointer.reference? (schema.ofTypes types) = some ref :=
      reference?_ofTypes.trans hr
    by_cases hs : doc.dialect.isSchemaRef ref = true
    · rw [build_named hleft hs, build_named hright hs, houtline]
    rw [Bool.not_eq_true] at hs
    have hmem {node : Node} (hnode : Pointer.reference? node = some ref) :
        ref ∈ doc.references node := mem_references.mpr ⟨.inr (Pointer.reference?_mem hnode), hs⟩
    rw [build_expand hleft hs (hmem hleft), build_expand hright hs (hmem hright), houtline]
    refine bind_congr fun _ => ?_
    cases htarget : doc.resolve ref with
    | error fault => rfl
    | ok target =>
      -- The target stands in the document, so both lists hold all that it leads to.
      refine build_pending _ target (hp.erase ref) (hq.erase ref) ?_ isDefinition _
      intro other hother
      obtain ⟨hreferences, hno⟩ := mem_references.mp hother
      have hroot := hreferences.elim id fun hin => Pointer.references_resolve htarget hin
      rw [hp.mem_erase_iff, hq.mem_erase_iff]
      simp only [mem_references, hroot, hno, true_or]
  | none =>
    rw [build_inline rfl (reference?_nullable.trans hr),
      build_inline rfl (reference?_ofTypes.trans hr), houtline, hdialect]
    refine bind_congr fun outline => ?_
    by_cases hm : schema.ListsMembers
    · have hsome := enumModel?_ofTypes_ne_none types hm
      rw [enumModel?_nullable, if_neg (h.truth hr hm), ← enumModel?_ofTypes types]
      cases hfound : enumModel? .openApi3 (schema.ofTypes types) with
      | error fault => rfl
      | ok found =>
        cases found with
        | none => exact absurd hfound hsome
        | some m => rfl
    · rw [enumModel?_nullable_of_not_lists hm, enumModel?_ofTypes_of_not_lists hm, ok_bind, ok_bind]
      change doc.buildStructure _ outline _ = doc.buildStructure _ outline _
      rw [buildStructure_ofTypes ht htypes h hr hm]
      refine buildStructure_congr rfl (fun _ => rfl) fun node hnode d n => ?_
      refine build_pending _ node hp hq (fun ref href => ?_) d n
      obtain ⟨hreferences, hno⟩ := mem_references.mp href
      have hmem {s : Node} (hpart : node ∈ parts doc.dialect s) : ref ∈ doc.references s :=
        mem_references.mpr ⟨hreferences.imp_right fun hin => references_parts hpart hin, hno⟩
      exact iff_of_true (hmem ((hsame.parts doc.dialect).symm ▸ hnode)) (hmem hnode)

end Build

/-! Where a schema does not ignore its type, the two models differ. -/

section Shapes

variable {pending : List String} {kind : Node} {m : Model}

theorem MakesStructure.shape_eq_array_iff (h : doc.MakesStructure pending schema kind m) :
    m.shape = .array ↔ arrayItems? kind schema ≠ none := by
  cases h with
  | array hi => simp [hi]
  | dictionary hi => simp [hi]
  | @composition shape _ _ _ _ hi _ hc =>
    change shape = .array ↔ _
    rcases composition?_shape hc with rfl | rfl | rfl <;> simp [hi]
  | interface hi => simp [hi, Model.ofProperties]
  | keyword hi => simp [hi]

theorem MakesStructure.shape_eq_dictionary_iff (h : doc.MakesStructure pending schema kind m) :
    m.shape = .dictionary ↔
      arrayItems? kind schema = none ∧ dictionaryValues? kind schema ≠ none := by
  cases h with
  | array hi => simp [hi]
  | dictionary hi hv => simp [hi, hv]
  | @composition shape _ _ _ _ hi hv hc =>
    change shape = .dictionary ↔ _
    rcases composition?_shape hc with rfl | rfl | rfl <;> simp [hi, hv]
  | interface hi hv => simp [hi, hv, Model.ofProperties]
  | keyword hi hv => simp [hi, hv]

/-- A schema that is no reference is an enumeration if it has members, and otherwise has the shape
that its structure makes. -/
theorem shape_of_build {isDefinition : Bool} {name : Option String}
    (h : doc.build pending isDefinition name schema = .ok m) (hmap : schema.isMap)
    (hr : Pointer.reference? schema = none) (hkind : schema.member "type" = .ok kind) :
    (∃ e, enumModel? doc.dialect schema = .ok (some e) ∧ m.shape = .enum) ∨
      enumModel? doc.dialect schema = .ok none ∧
        ∃ body, doc.MakesStructure pending schema kind body ∧ m.shape = body.shape := by
  cases step_of_build h with
  | noSchema hno =>
    rw [hmap] at hno
    cases hno
  | target hr' =>
    rw [hr] at hr'
    cases hr'
  | made _ _ _ hm =>
    cases hm with
    | named hr' =>
      rw [hr] at hr'
      cases hr'
    | again hr' =>
      rw [hr] at hr'
      cases hr'
    | enum _ he =>
      obtain ⟨base, -, members, rfl⟩ := enumModel?_cases he
      exact .inl ⟨_, he, rfl⟩
    | plain _ he hk hm =>
      obtain rfl := Except.ok.inj (hk.symm.trans hkind)
      exact .inr ⟨he, _, hm, rfl⟩

end Shapes

theorem outline_of_build {pending : List String} {isDefinition : Bool} {name : Option String}
    {m : Model} (h : doc.build pending isDefinition name schema = .ok m) (hmap : schema.isMap) :
    ∃ outline, Outline.ofSchema doc.dialect isDefinition name schema = .ok outline := by
  rw [build, hmap] at h
  obtain ⟨outline, ho, -⟩ := bind_eq_ok.mp h
  exact ⟨outline, ho⟩

section Differ

variable {isDefinition : Bool} {name : String} {m : Model} (hdialect : doc.dialect = .openApi3)
  (hleft : doc.model (schema.nullable keyword) isDefinition name = .ok m)
  (hright : doc.model (schema.ofTypes types) isDefinition name = .ok m)
  (hr : Pointer.reference? schema = none)
include hdialect hleft hright hr

/-- A list of types keeps no members from a schema. -/
theorem truth_of_model (hm : schema.ListsMembers) : keyword ≠ "boolean" := by
  rintro rfl
  have hplain := shape_of_build hleft rfl (reference?_nullable.trans hr) type_nullable
  have henum := shape_of_build hright rfl (reference?_ofTypes.trans hr) type_ofTypes
  rw [hdialect, enumModel?_nullable, if_pos rfl] at hplain
  rw [hdialect] at henum
  obtain ⟨_, hnone, -⟩ | ⟨-, body, hbody, hshape⟩ := hplain
  · cases hnone
  obtain ⟨_, -, henum⟩ | ⟨hnone, -⟩ := henum
  · exact hbody.shape_ne_enum (hshape.symm.trans henum)
  · exact enumModel?_ofTypes_ne_none types hm hnone

/-- Where there are no members the keyword asks neither for items nor for values. -/
theorem structure_of_model (hm : ¬ schema.ListsMembers) :
    arrayItems? (.str keyword) schema = none ∧ dictionaryValues? (.str keyword) schema = none := by
  have hkeyword := shape_of_build hleft rfl (reference?_nullable.trans hr) type_nullable
  have hlist := shape_of_build hright rfl (reference?_ofTypes.trans hr) type_ofTypes
  rw [hdialect, enumModel?_nullable_of_not_lists hm] at hkeyword
  rw [hdialect, enumModel?_ofTypes_of_not_lists hm] at hlist
  obtain ⟨_, hnone, -⟩ | ⟨-, body, hbody, hshape⟩ := hkeyword
  · cases hnone
  obtain ⟨_, hnone, -⟩ | ⟨-, other, hother, hshape'⟩ := hlist
  · cases hnone
  have heq : body.shape = other.shape := hshape.symm.trans hshape'
  have hitems : arrayItems? (.str keyword) (schema.nullable keyword) = none := by
    by_contra hne
    exact hother.shape_eq_array_iff.mp (heq ▸ hbody.shape_eq_array_iff.mpr hne) rfl
  have hvalues : dictionaryValues? (.str keyword) (schema.nullable keyword) = none := by
    by_contra hne
    exact (hother.shape_eq_dictionary_iff.mp
      (heq ▸ hbody.shape_eq_dictionary_iff.mpr ⟨hitems, hne⟩)).2 rfl
  exact ⟨arrayItems?_nullable _ ▸ hitems, dictionaryValues?_nullable _ ▸ hvalues⟩

end Differ

/-- A schema with one model for both ignores its type. -/
theorem ignoresType_of_model (hdialect : doc.dialect = .openApi3) {isDefinition : Bool}
    {name : String} {m : Model}
    (hleft : doc.model (schema.nullable keyword) isDefinition name = .ok m)
    (hright : doc.model (schema.ofTypes types) isDefinition name = .ok m) :
    schema.IgnoresType keyword where
  default value hdefault := by
    by_contra hvalue
    obtain ⟨outline, ho⟩ := outline_of_build hright rfl
    obtain ⟨-, -, -, -, hliteral⟩ := ofSchema_eq_ok ho
    have hfound : (schema.ofTypes types).get? "default" = some value :=
      (get?_ofTypes schema types (by decide)).trans hdefault
    rw [DefaultLiteral.ofSchema_eq_error type_ofTypes rfl hfound hvalue] at hliteral
    cases hliteral
  truth hr hm := truth_of_model hdialect hleft hright hr hm
  items hr hm := arrayItems?_eq_none.mp (structure_of_model hdialect hleft hright hr hm).1
  values hr hm := dictionaryValues?_eq_none.mp (structure_of_model hdialect hleft hright hr hm).2

/-- A list of a keyword and `null` as the type of a schema stands for the keyword with the mark that
nothing is admitted exactly where the schema ignores its type. -/
theorem nullable_type_list (hdialect : doc.dialect = .openApi3) (ht : keyword ≠ "null")
    (htypes : types = [.str keyword, .str "null"] ∨ types = [.str "null", .str keyword])
    (isDefinition : Bool) (name : String) :
    (schema.IgnoresType keyword → doc.model (schema.ofTypes types) isDefinition name =
      doc.model (schema.nullable keyword) isDefinition name) ∧
    ∀ m, doc.model (schema.nullable keyword) isDefinition name = .ok m →
      (doc.model (schema.ofTypes types) isDefinition name = .ok m ↔
        schema.IgnoresType keyword) := by
  refine ⟨fun h => (model_ofTypes ht htypes hdialect h isDefinition name).symm, fun m hm => ?_⟩
  constructor
  · intro hright
    exact ignoresType_of_model hdialect hm hright
  · intro h
    rw [← model_ofTypes ht htypes hdialect h isDefinition name]
    exact hm

namespace PetNote

def document : ApiDocument where
  dialect := .openApi3
  root := .map []
  schemas := []

/-- A text that says nothing of its default or structure. -/
def note : Node := .map [(.str "maxLength", .int 80)]

/-- A list of texts. -/
def notes : Node := .map [(.str "items", .map [(.str "type", .str "string")])]

/-- A text that is there unless another one is given. -/
def greeting : Node := .map [(.str "default", .str "hello")]

def orNull (keyword : String) : List Node := [.str keyword, .str "null"]

theorem ignoresType_note : note.IgnoresType "string" where
  default _ h := by cases h
  truth _ _ := by decide
  items _ _ ha := absurd ha (by decide)
  values _ _ ho := absurd ho (by decide)

theorem note_nullable_type_list : document.dialect = .openApi3 ∧ "string" ≠ "null" ∧
    note.IgnoresType "string" ∧
    document.model (note.ofTypes (orNull "string")) false "" =
      document.model (note.nullable "string") false "" :=
  ⟨rfl, by decide, ignoresType_note,
    (nullable_type_list rfl (by decide) (.inl rfl) false "").1 ignoresType_note⟩

def text : Model := { shape := .generic, type := keywordType (.str "string") }

theorem build_text (pending : List String) : document.build pending false (some "")
    (.map [(.str "type", .str "string")]) = .ok text :=
  (build_of_makes rfl rfl (.plain rfl rfl rfl (.keyword rfl rfl rfl rfl))).trans rfl

/-- With a list of types the items of an array are not read, and a default is refused. -/
theorem types_differ :
    document.model (notes.nullable "array") false "" =
      .ok { Model.arrayOf text with isNullable := true } ∧
    document.model (notes.ofTypes (orNull "array")) false "" =
      .ok { shape := .generic, type := keywordType (.str "array"), isNullable := true } ∧
    document.model (greeting.nullable "string") false "" =
      .ok { text with isNullable := true, defaultValue := some (.str "'hello'") } ∧
    document.model (greeting.ofTypes (orNull "string")) false "" =
      .error (.malformed .wrongKind) := by
  have hitem (pending : List String) : document.MakesPart pending
      (.map [(.str "type", .str "string")]) (.inline (.map [(.str "type", .str "string")]) text) :=
    makesPart_of_build rfl (build_text pending)
  refine ⟨?_, ?_, ?_, ?_⟩
  · exact (build_of_makes rfl rfl (.plain rfl rfl rfl (.array rfl (hitem _)))).trans rfl
  · exact (build_of_makes rfl rfl (.plain rfl rfl rfl (.keyword rfl rfl rfl rfl))).trans rfl
  · exact (build_of_makes rfl rfl (.plain rfl rfl rfl (.keyword rfl rfl rfl rfl))).trans rfl
  · unfold model
    rw [build]
    rfl

end PetNote

end ApiDocument

end ClientGen
