import ClientGen.Proofs.Api.ParameterModels
import ClientGen.Proofs.Code.Pieces
import ClientGen.Proofs.Schema.MemberLiterals
import ClientGen.Proofs.Schema.TypeNames

/-! Dictionaries as parameters. The parameter of an object with items keeps the type of the items,
not their model, so it is written as the dictionary of them only where a model prints as its
type. -/

namespace ClientGen

namespace Model

variable {m : Model} {union : Bool}

theorem orNull_eq_self {type : String} : m.orNull type = type ↔ m.isNullable = false := by
  unfold orNull
  split_ifs with hnull
  · rw [hnull]
    refine iff_of_false (fun heq => ?_) (by decide)
    have hlength := congrArg String.length heq
    rw [String.length_append] at hlength
    have hpositive : 0 < " | null".length := by decide
    omega
  · simpa using hnull

theorem typeExpression_dictionary {parent : Option String} (hshape : m.shape = .dictionary)
    (hnull : m.isNullable = false) : m.typeExpression parent union =
      "Dictionary<" ++ linkExpression union m.type m.link ++ ">" := by
  rw [typeExpression_eq, hshape, orNull, hnull]
  rfl

/-- A model that prints as its type: a keyword or a name that admits nothing else, and a composite
that prints as any value. Members, items and values are never printed so. -/
def PrintsType (m : Model) (union : Bool) : Prop :=
  match m.shape with
  | .generic | .reference => m.isNullable = false
  | .enum | .array | .dictionary => False
  | .interface | .oneOf | .anyOf | .allOf => m.typeExpression none union = "any"

end Model

namespace ApiDocument

variable {doc : ApiDocument} {isDefinition : Bool} {name : Option String} {schema : Node}
  {m : Model}

/-- What a model keeps of its shape in its type: the type of the members of an enumeration, and
nothing of a composite. -/
inductive TypeOfShape (m : Model) : Prop
  | enum (hshape : m.shape = .enum) (source : MemberSource)
      (hmembers : source.members = .ok m.members) (hsome : m.members ≠ [])
      (htype : m.type.text = source.base m.members)
  | composite (hshape : m.shape.isComposite) (htype : m.type.text = "any")
  | plain (hshape : m.shape = .generic ∨ m.shape = .reference ∨ m.shape = .array ∨
      m.shape = .dictionary)

theorem Built.typeOfShape (h : doc.Built isDefinition name schema m) : TypeOfShape m := by
  induction h with
  | noSchema => exact .plain (.inl rfl)
  | again => exact .plain (.inl rfl)
  | named => exact .plain (.inr (.inl rfl))
  | target _ _ _ _ ih => exact ih
  | enum _ _ he =>
    obtain ⟨source, members, -, hmembers, hsome, rfl⟩ := source_of_enumModel? he
    exact .enum rfl source hmembers hsome rfl
  | array => exact .plain (.inr (.inr (.inl rfl)))
  | dictionary => exact .plain (.inr (.inr (.inr rfl)))
  | @composition _ _ _ _ shape _ _ _ _ _ _ hc =>
    refine .composite ?_ rfl
    change shape.isComposite
    rcases composition?_shape hc with rfl | rfl | rfl <;> rfl
  | interface => exact .composite rfl rfl
  | keyword => exact .plain (.inl rfl)

/-- The models that print as their types. -/
theorem Built.typeExpression_eq_text (h : doc.Built isDefinition name schema m) (union : Bool) :
    m.typeExpression none union = m.type.text ↔ m.PrintsType union := by
  -- No type is the name of a container with an argument.
  have hcontainer (container rest : String) (hname : IsName container)
      (hreserved : container ∈ TypeExpr.reserved) (hfile : container ≠ "File") :
      m.orNull (container ++ "<" ++ rest ++ ">") ≠ m.type.text := by
    have hne (rest : String) := h.namesTypes.text_ne hname hreserved hfile rest
    intro heq
    unfold Model.orNull at heq
    split_ifs at heq
    · refine hne (rest ++ ">" ++ " | null") ?_
      rw [← heq]
      simp only [String.append_assoc]
    · refine hne (rest ++ ">") ?_
      rw [← heq]
      simp only [String.append_assoc]
  unfold Model.PrintsType
  cases h.typeOfShape with
  | enum hshape source hmembers hsome htype =>
    rw [Model.typeExpression_eq, hshape]
    exact iff_of_false (Model.memberUnion_ne hmembers hsome htype) id
  | composite hshape htype =>
    rw [htype]
    cases hs : m.shape <;> simp_all [Shape.isComposite]
  | plain hshape =>
    rw [Model.typeExpression_eq]
    rcases hshape with hshape | hshape | hshape | hshape
    · rw [hshape]
      exact Model.orNull_eq_self
    · rw [hshape]
      exact Model.orNull_eq_self
    · rw [hshape]
      exact iff_of_false (hcontainer "Array" _ (by decide) (by decide) (by decide)) id
    · rw [hshape]
      exact iff_of_false (hcontainer "Dictionary" _ (by decide) (by decide) (by decide)) id

/-- The parameter object of an object with items. -/
def dictionaryParameter (name : String) (location : Location) (items : Node) : Node :=
  .map [(.str "name", .str name), (.str "in", .str location.name), (.str "type", .str "object"),
    (.str "items", items)]

/-- The schema of a dictionary. -/
def dictionarySchema (values : Node) : Node :=
  .map [(.str "type", .str "object"), (.str "additionalProperties", values)]

theorem parameter_dictionary (hd : doc.dialect = .swagger2) {items : Node} (hmap : items.isMap)
    (name : String) (location : Location) :
    doc.parameter (dictionaryParameter name location items) = (do
      let value ← doc.anonymousModel items
      return {
        model := {
          name := Naming.parameterName name
          shape := .dictionary
          type := Model.inDictionary value.type
          isRequired := location == .path }
        location
        wireName := name }) := by
  cases items with
  | map es =>
    unfold parameter
    rw [hd]
    cases location <;> rfl
  | scalar s => cases hmap
  | list l => cases hmap

theorem references_dictionarySchema (values : Node) :
    doc.references (dictionarySchema values) = doc.references values := by
  have hsame : Pointer.references (dictionarySchema values) = Pointer.references values := by
    simp [dictionarySchema, Pointer.references, Pointer.referencesOfEntries]
  unfold references
  rw [hsame]

theorem model_dictionary (hd : doc.dialect = .swagger2) {values : Node} (hmap : values.isMap) :
    doc.anonymousModel (dictionarySchema values) = (do
      let (type, link) ← doc.buildItem (doc.references values) values
      return { shape := .dictionary, type := Model.inDictionary type, link }) := by
  have hvalues : dictionaryValues? (.str "object") (dictionarySchema values) = some values := by
    change Option.filter (fun node => node.isMap || node.isBool true) (some values) = some values
    rw [Option.filter_some, hmap, Bool.true_or, if_pos rfl]
  have houtline : Outline.ofSchema doc.dialect false (some "") (dictionarySchema values) =
      .ok { name := some "", isDefinition := false, description := none, isReadOnly := false,
            isNullable := false, defaultValue := none, constraints := [] } := by
    rw [hd]
    rfl
  have henum : enumModel? doc.dialect (dictionarySchema values) = .ok none := by
    rw [hd]
    rfl
  have hkind : (dictionarySchema values).member "type" = .ok (.str "object") := rfl
  have hitems : arrayItems? (.str "object") (dictionarySchema values) = none := rfl
  unfold anonymousModel model
  rw [references_dictionarySchema, build_inline rfl rfl, houtline, henum, ok_bind, ok_bind,
    buildStructure, hkind, ok_bind, hitems, hvalues]
  exact bind_congr fun item => rfl

/-- Whether a node is a reference to a named schema. -/
def NamesSchema (doc : ApiDocument) (node : Node) : Prop :=
  ∃ ref, Pointer.reference? node = some ref ∧ doc.dialect.isSchemaRef ref

/-- A dictionary has the named type of its values, or their model with its type. -/
theorem buildItem_of_anonymousModel {values : Node} {value : Model}
    (h : doc.anonymousModel values = .ok value) :
    ∃ link, doc.buildItem (doc.references values) values = .ok (value.type, link) ∧
      (doc.NamesSchema values ∧ link = none ∨ ¬ doc.NamesSchema values ∧ link = some value) := by
  by_cases hnamed : doc.NamesSchema values
  · obtain ⟨ref, hr, hs⟩ := hnamed
    unfold anonymousModel model at h
    rw [build_named hr hs] at h
    obtain ⟨outline, -, h⟩ := bind_eq_ok.mp h
    obtain ⟨type, htype, h⟩ := bind_eq_ok.mp h
    obtain ⟨hfound, rfl⟩ := typeOfReference_eq_ok.mp htype
    obtain rfl := Outline.eq_applied_of_complete h
    have hpart : doc.MakesPart (doc.references values) values (.named ref) := ⟨hr, hs, hfound⟩
    have hitem := buildItem_of_makesPart hpart
    dsimp only [Part.type, Part.link, Outline.type_applied] at hitem ⊢
    exact ⟨none, hitem, .inl ⟨⟨ref, hr, hs⟩, rfl⟩⟩
  · have hinline : IsInline doc.dialect values := fun ref hr =>
      Bool.eq_false_iff.mpr fun hs => hnamed ⟨ref, hr, hs⟩
    have hpart : doc.MakesPart (doc.references values) values (.inline values value) :=
      ⟨rfl, hinline, h⟩
    exact ⟨some value, buildItem_of_makesPart hpart, .inr ⟨hnamed, rfl⟩⟩

/-- A model that nothing is made of makes no dictionary either, unless it is not needed for one. -/
theorem buildItem_of_error {values : Node} {fault : Fault}
    (h : doc.anonymousModel values = .error fault) (hnamed : ¬ doc.NamesSchema values) :
    doc.buildItem (doc.references values) values = .error fault := by
  have hinline : IsInline doc.dialect values := fun ref hr =>
    Bool.eq_false_iff.mpr fun hs => hnamed ⟨ref, hr, hs⟩
  have hbuild : doc.build (doc.references values) false (some "") values = .error fault := h
  rw [buildItem, hinline.filter_eq_none]
  simp only [hbuild]
  rfl

/-- The parameter of an object with items and the dictionary of these items have the same imports.
They are written as the same type, with alternatives of literals or without, exactly where the items
name a schema or have a model that prints as its type. -/
theorem dictionary_parameter (hd : doc.dialect = .swagger2) {items : Node} (hmap : items.isMap)
    (name : String) (location : Location) :
    (∀ fault, doc.anonymousModel items = .error fault →
      doc.parameter (dictionaryParameter name location items) = .error fault ∧
        (doc.NamesSchema items ∨ doc.anonymousModel (dictionarySchema items) = .error fault)) ∧
    ∀ value, doc.anonymousModel items = .ok value → ∃ p m,
      doc.parameter (dictionaryParameter name location items) = .ok p ∧
      doc.anonymousModel (dictionarySchema items) = .ok m ∧
      p.model.shape = .dictionary ∧ m.shape = .dictionary ∧ p.model.imports = m.imports ∧
      ∀ parent union, p.model.typeExpression parent union = m.typeExpression parent union ↔
        doc.NamesSchema items ∨ value.PrintsType union := by
  rw [parameter_dictionary hd hmap, model_dictionary hd hmap]
  constructor
  · intro fault hfault
    rw [hfault]
    refine ⟨rfl, or_iff_not_imp_left.mpr fun hnamed => ?_⟩
    rw [buildItem_of_error hfault hnamed]
    rfl
  · intro value hvalue
    obtain ⟨link, hitem, hlink⟩ := buildItem_of_anonymousModel hvalue
    rw [hvalue, hitem]
    refine ⟨_, _, rfl, rfl, rfl, rfl, congrArg TypeExpr.imports rfl, fun parent union => ?_⟩
    rw [Model.typeExpression_dictionary rfl rfl, Model.typeExpression_dictionary rfl rfl,
      Model.linkExpression]
    rcases hlink with ⟨hnamed, rfl⟩ | ⟨hnamed, rfl⟩
    · rw [Model.linkExpression]
      exact iff_of_true rfl (.inl hnamed)
    · have hbuilt : doc.Built false (some "") items value := built_of_build hvalue
      rw [Model.linkExpression, or_iff_right hnamed, ← hbuilt.typeExpression_eq_text,
        String.append_left_inj, String.append_right_inj, eq_comm]
      rfl

namespace PetLabels

def document : ApiDocument where
  dialect := .swagger2
  root := .map []
  schemas := []

def text : Node := .map [(.str "type", .str "string")]

def texts : Node := .map [(.str "type", .str "array"), (.str "items", text)]

def textModel : Model := { shape := .generic, type := { text := "string", base := "string" } }

def textsModel : Model := Model.arrayOf textModel

theorem build_text (pending : List String) :
    document.build pending false (some "") text = .ok textModel := by
  have htype : keywordType (.str "string") = textModel.type := by decide +kernel
  have hbody : document.MakesStructure pending text (.str "string")
      { shape := .generic, type := keywordType (.str "string") } := .keyword rfl rfl rfl rfl
  rw [htype] at hbody
  exact (build_of_makes rfl rfl (.plain rfl rfl rfl hbody)).trans rfl

theorem model_texts : document.anonymousModel texts = .ok textsModel := by
  have hpart (pending : List String) : document.MakesPart pending text (.inline text textModel) :=
    makesPart_of_build rfl (build_text pending)
  exact (build_of_makes rfl rfl (.plain rfl rfl rfl (.array rfl (hpart _)))).trans rfl

theorem text_dictionary_parameter : document.dialect = .swagger2 ∧ text.isMap ∧
    document.anonymousModel text = .ok textModel ∧ ∃ p m,
      document.parameter (dictionaryParameter "labels" .query text) = .ok p ∧
      document.anonymousModel (dictionarySchema text) = .ok m ∧
      p.model.imports = m.imports ∧
      p.model.typeExpression none false = m.typeExpression none false := by
  have hmodel : document.anonymousModel text = .ok textModel := build_text _
  obtain ⟨p, m, hp, hm, -, -, himports, htypes⟩ :=
    (dictionary_parameter rfl rfl "labels" .query).2 textModel hmodel
  exact ⟨rfl, rfl, hmodel, p, m, hp, hm, himports, (htypes none false).mpr (.inr rfl)⟩

/-- The parameter of an object of lists is written as a dictionary of what is in the lists. -/
theorem dictionaries_differ : ∃ p m,
    document.parameter (dictionaryParameter "labels" .query texts) = .ok p ∧
    document.anonymousModel (dictionarySchema texts) = .ok m ∧
    p.model.typeExpression none false = "Dictionary<string>" ∧
    m.typeExpression none false = "Dictionary<Array<string>>" := by
  have hnamed : ¬ document.NamesSchema texts := by
    rintro ⟨ref, hr, -⟩
    cases hr
  obtain ⟨link, hitem, hlink⟩ := buildItem_of_anonymousModel model_texts
  obtain ⟨-, rfl⟩ := hlink.resolve_left fun h => hnamed h.1
  have hp : document.parameter (dictionaryParameter "labels" .query texts) = _ :=
    parameter_dictionary rfl rfl "labels" .query
  have hm : document.anonymousModel (dictionarySchema texts) = _ := model_dictionary rfl rfl
  rw [model_texts] at hp
  rw [hitem] at hm
  refine ⟨_, _, hp, hm, ?_, ?_⟩
  · rw [Model.typeExpression_dictionary rfl rfl, Model.linkExpression]
    rfl
  · rw [Model.typeExpression_dictionary rfl rfl, Model.linkExpression, Model.typeExpression_eq]
    change "Dictionary<" ++ ("Array<" ++ Model.linkExpression false _ (some textModel) ++ ">") ++
      ">" = _
    rw [Model.linkExpression, Model.typeExpression_eq]
    rfl

end PetLabels

end ApiDocument

end ClientGen
