import ClientGen.Proofs.Schema.Inside
import ClientGen.Schema.ModelRecord

/-! A model holds what its shape has and nothing of another shape, at any depth of a model that is
built. -/

namespace ClientGen

/-- The shapes of schemas that are made of branches. -/
def Shape.IsComposition (shape : Shape) : Prop :=
  shape = .oneOf ∨ shape = .anyOf ∨ shape = .allOf

/-- The type of the members of an enumeration. -/
def EnumEntry.commonType (members : List EnumEntry) : String :=
  if ∀ entry ∈ members, entry.type = "number" then "number" else "string"

namespace Model

/-- A model that has one shape: members are those of an enumeration, an item that of a collection,
parents those of a composition, and properties those of a composition or an interface. -/
structure OneShaped (m : Model) : Prop where
  members : m.members ≠ [] ↔ m.shape = .enum
  memberType : m.shape = .enum →
    m.type.text = EnumEntry.commonType m.members ∧ m.type.base = m.type.text
  link : ∀ item, m.link = some item → (m.shape = .array ∨ m.shape = .dictionary) ∧
    m.type.text = item.type.text ∧ m.type.base = item.type.base ∧
    m.type.template = item.type.template
  parents : m.parents ≠ [] → m.shape.IsComposition
  properties : m.properties ≠ [] → m.shape = .interface ∨ m.shape.IsComposition
  enums : m.enums = m.properties.filter fun p =>
    p.shape == .enum && (m.shape == .interface || p.name != "")

variable {m : Model}

namespace OneShaped

theorem applied (h : m.OneShaped) (outline : Outline) : (outline.applied m).OneShaped :=
  ⟨h.members, h.memberType, h.link, h.parents, h.properties, h.enums⟩

theorem asProperty (h : m.OneShaped) (required : List Scalar) (key : Scalar) :
    (ApiDocument.asProperty required key m).OneShaped :=
  ⟨h.members, h.memberType, h.link, h.parents, h.properties, h.enums⟩

theorem isShapely (h : m.OneShaped) : m.isShapely := by
  unfold Model.isShapely
  cases hp : m.properties with
  | nil => rfl
  | cons p rest =>
    have hshape : m.shape = .interface ∨ m.shape.IsComposition := h.properties (by simp [hp])
    rcases hshape with hs | hs | hs | hs <;> simp [hs, Shape.isComposite]

theorem leaf {shape : Shape} (hshape : shape ≠ .enum) (type : TypeExpr) :
    OneShaped { shape, type } where
  members := by simpa using hshape
  memberType h := absurd h hshape
  link item h := nomatch h
  parents h := absurd rfl h
  properties h := absurd rfl h
  enums := rfl

theorem enumeration {source : MemberSource} {members : List EnumEntry}
    (h : source.members = .ok members) (hne : members ≠ []) :
    (ofMembers (source.base members) members).OneShaped where
  members := by simpa [ofMembers] using hne
  memberType _ := ⟨MemberSource.base_eq h hne, rfl⟩
  link item h := nomatch h
  parents h := absurd rfl h
  properties h := absurd rfl h
  enums := rfl

/-- A collection has the type of its item, but for what it imports. -/
theorem collection {shape : Shape} (hshape : shape = .array ∨ shape = .dictionary) {part : Part}
    {type : TypeExpr} (htext : type.text = part.type.text) (hbase : type.base = part.type.base)
    (htemplate : type.template = part.type.template) :
    OneShaped { shape, type, link := part.link } where
  members := by rcases hshape with rfl | rfl <;> simp
  memberType h := by rcases hshape with rfl | rfl <;> cases h
  link item h := by
    cases part with
    | named ref => cases h
    | inline schema own =>
      obtain rfl := Option.some.inj h
      exact ⟨hshape, htext, hbase, htemplate⟩
  parents h := absurd rfl h
  properties h := absurd rfl h
  enums := rfl

theorem composition {shape : Shape} (hshape : shape.IsComposition) (c : Composition) :
    (c.model shape).OneShaped where
  members := by rcases hshape with rfl | rfl | rfl <;> simp [Composition.model]
  memberType h := by rcases hshape with rfl | rfl | rfl <;> cases h
  link item h := nomatch h
  parents _ := hshape
  properties _ := .inr hshape
  enums := by rcases hshape with rfl | rfl | rfl <;> rfl

theorem interface (properties : List Model) : (ofProperties properties).OneShaped where
  members := by simp [ofProperties]
  memberType h := nomatch h
  link item h := nomatch h
  parents h := absurd rfl h
  properties _ := .inl rfl
  enums := by simp [ofProperties]

end OneShaped

end Model

/-- Makes a model with its outline, and refuses properties where the shape has none. -/
def Outline.validated (outline : Outline) (m : Model) : Except Fault Model := do
  let made ← outline.complete m
  if made.isShapely then return made
  else throw (.invalid [⟨[], .rule made.shapeMessage⟩])

theorem Outline.validated_eq_complete {m : Model} (h : m.OneShaped) (outline : Outline) :
    outline.validated m = outline.complete m := by
  unfold validated
  cases hmade : outline.complete m with
  | error fault => rfl
  | ok made =>
    have hshapely : made.isShapely := by
      rw [eq_applied_of_complete hmade]
      exact (h.applied outline).isShapely
    change (if made.isShapely then _ else _) = _
    rw [if_pos hshapely]
    rfl

namespace ApiDocument

variable {doc : ApiDocument} {pending : List String}

theorem MakesStructure.oneShaped {schema kind : Node} {m : Model}
    (h : doc.MakesStructure pending schema kind m) : m.OneShaped := by
  cases h with
  | array => exact .collection (.inl rfl) rfl rfl rfl
  | dictionary => exact .collection (.inr rfl) rfl rfl rfl
  | composition _ _ hc => exact .composition (composition?_shape hc) _
  | interface => exact .interface _
  | keyword => exact .leaf Shape.noConfusion _

/-- Whatever is made of a schema has one shape. -/
theorem Makes.oneShaped {schema : Node} {m : Model} (h : doc.Makes pending schema m) :
    m.OneShaped := by
  cases h with
  | named => exact .leaf Shape.noConfusion _
  | again => exact .leaf Shape.noConfusion _
  | enum _ he =>
    obtain ⟨source, members, -, hmembers, hne, rfl⟩ := source_of_enumModel? he
    exact .enumeration hmembers hne
  | plain _ _ _ hm => exact hm.oneShaped

theorem oneShaped_of_build {isDefinition : Bool} {name : Option String} {schema : Node} {m : Model}
    (h : doc.build pending isDefinition name schema = .ok m) : m.OneShaped := by
  induction pending, schema using buildInduction with
  | step pending schema targets smaller =>
    cases step_of_build h with
    | noSchema => exact (Model.OneShaped.leaf Shape.noConfusion _).applied _
    | target _ _ hp _ hb => exact targets _ hp _ hb
    | made _ _ _ hm => exact hm.oneShaped.applied _

theorem MadeFrom.oneShaped {node : Node} {m : Model} (h : doc.MadeFrom node m) : m.OneShaped := by
  cases h with
  | own hb => exact oneShaped_of_build hb
  | property hb => exact (oneShaped_of_build hb).asProperty _ _

/-- Every model in a model that is built has one shape, and only the outermost one may define a
named schema. To refuse properties where a shape has none changes nothing: all that is made of
schemas passes. -/
theorem oneShape_of_model {schema : Node} {isDefinition : Bool} {name : String} {m : Model}
    (h : doc.model schema isDefinition name = .ok m) :
    (∀ s, m.Holds s → s.OneShaped ∧ s.isShapely) ∧
    m.isDefinition = isDefinition ∧ (∀ s, m.Nested s → s.isDefinition = false) ∧
    ∀ pending node made (outline : Outline), doc.Makes pending node made →
      outline.validated made = outline.complete made := by
  refine ⟨fun s hs => ?_, isDefinition_of_build h, fun s hs => isDefinition_of_nested h hs, ?_⟩
  · obtain ⟨node, -, hmade⟩ := inside_of_holds h hs
    have hone := hmade.oneShaped
    exact ⟨hone, hone.isShapely⟩
  · intro pending node made outline hmade
    exact Outline.validated_eq_complete hmade.oneShaped outline

namespace PetTags

def document : ApiDocument where
  dialect := .openApi3
  root := .map []
  schemas := []

def tag : Node := .map [(.str "enum", .list [.int 1, .str "new"])]

def tags : Node := .map [(.str "type", .str "array"), (.str "items", tag)]

def pet : Node := .map [(.str "properties", .map [(.str "tags", tags)])]

def tagModel : Model :=
  Model.ofMembers "string"
    [{ name := "_1", value := "1", type := "number" }, { name := "NEW", value := "new" }]

def tagsModel : Model :=
  { name := "tags", shape := .array, type := tagModel.type, link := some tagModel }

def petModel : Model := { Model.ofProperties [tagsModel] with name := "Pet", isDefinition := true }

theorem build_tag (pending : List String) :
    document.build pending false (some "") tag = .ok tagModel := by
  have hlisted : listedMembers .openApi3 tag = .ok tagModel.members := by decide +kernel
  have henum : enumModel? .openApi3 tag = .ok (some tagModel) :=
    enumModel?_eq_ok.mpr ⟨_, hlisted, .inl ⟨List.cons_ne_nil _ _, rfl⟩⟩
  exact (build_of_makes rfl rfl (.enum rfl henum)).trans rfl

theorem model_pet : document.model pet true "Pet" = .ok petModel := by
  have htags (pending : List String) :
      document.build pending false (some "tags") tags = .ok tagsModel :=
    (build_of_makes rfl rfl (.plain rfl rfl rfl
      (.array rfl (makesPart_of_build rfl (build_tag pending))))).trans rfl
  have hmembers (pending : List String) : document.MakesMembers pending [(.str "tags", tags)]
      [⟨.str "tags", tags, tagsModel⟩] :=
    ⟨rfl, List.forall_mem_singleton.mpr (htags pending)⟩
  exact (build_of_makes rfl rfl
    (.plain rfl rfl rfl (.interface rfl rfl rfl rfl (hmembers _) rfl))).trans rfl

theorem oneShape_tag : document.model pet true "Pet" = .ok petModel ∧ petModel.Nested tagModel ∧
    tagModel.OneShaped ∧ tagModel.type.text = "string" ∧ petModel.isDefinition = true ∧
    tagModel.isDefinition = false := by
  have hnested : petModel.Nested tagModel :=
    .tail (.single (.property List.mem_cons_self)) (.link rfl)
  obtain ⟨hshapes, hroot, hinner, -⟩ := oneShape_of_model model_pet
  have htag : tagModel.OneShaped := (hshapes tagModel hnested.to_reflTransGen).1
  have htext : tagModel.type.text = "string" := (htag.memberType rfl).1.trans (by decide)
  exact ⟨model_pet, hnested, htag, htext, hroot, hinner tagModel hnested⟩

end PetTags

end ApiDocument

end ClientGen
