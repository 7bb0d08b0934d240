import ClientGen.Proofs.Api.ParameterModels
import ClientGen.Proofs.Schema.Intersections
import ClientGen.Proofs.Schema.Records

/-! What a caller must give: a property or a parameter is required if the document says so or if it
has a default. -/

namespace ClientGen

namespace Node

/-- What counts as absent has no items. -/
theorem eq_nil_of_walk {node : Node} {items : List Node} (h : node.walk = .ok items)
    (habsent : node.isPresent = false) : items = [] := by
  cases node with
  | list l =>
    obtain rfl := Except.ok.inj h
    simpa [isPresent] using habsent
  | map es =>
    obtain rfl := Except.ok.inj h
    have hnil : es = [] := by simpa [isPresent] using habsent
    rw [hnil, List.map_nil]
  | scalar s =>
    cases s with
    | str s =>
      obtain rfl := Except.ok.inj h
      have hempty : s = "" := by simpa [isPresent, Scalar.isPresent] using habsent
      rw [hempty]
      rfl
    | _ => cases h

theorem isBool_iff {node : Node} {b : Bool} : node.isBool b ↔ node = .bool b := by
  cases node with
  | scalar s =>
    cases s with
    | bool c => exact beq_iff_eq.trans (by simp [eq_comm])
    | _ => simp [isBool]
  | list items => simp [isBool]
  | map es => simp [isBool]

theorem isBool_of_member {node value : Node} {key : String} {b : Bool}
    (h : node.member key = .ok value) : value.isBool b ↔ node.get? key = some (.bool b) := by
  rw [isBool_iff]
  constructor
  · rintro rfl
    exact get?_of_member h (by simp)
  · intro hget
    exact Except.ok.inj (h.symm.trans (member_of_get? hget))

end Node

namespace ApiDocument

/-- A key is among the items of the `required` list of a schema. -/
def ListsKey (schema : Node) (key : String) : Prop :=
  ∃ value items, schema.get? "required" = some value ∧ value.walk = .ok items ∧ .str key ∈ items

/-- A model has a property for each entry of a schema's `properties`, in their order; these are
required if the schema lists their keys or if they have a default. -/
structure HasFields (doc : ApiDocument) (schema : Node) (m : Model) : Prop where
  fields : ∃ es, properties? schema = some es ∧
    List.Forall₂ (doc.IsPropertyOf schema) es m.properties
  required : ∀ key, Requires schema key ↔ ListsKey schema key

/-- A reference points to a named schema with a default. -/
def NamedDefault (doc : ApiDocument) (ref : Option String) (text : String) : Prop :=
  ∃ r schema, ref = some r ∧ doc.dialect.isSchemaRef r ∧ doc.namedSchema? r = some schema ∧
    DefaultLiteral.ofSchema schema = .ok (some text)

/-- The first default that there is: of a model, of the object that it is for, which has the default
`own`, or of the named schema that `ref` points to. -/
inductive FirstDefault (doc : ApiDocument) (m : Model) (own : Except Fault (Option String))
    (ref : Option String) : Option Node → Prop
  | model {value} (hm : m.defaultValue = some value) : FirstDefault doc m own ref (some value)
  | object {text} (hm : m.defaultValue = none) (ho : own = .ok (some text)) :
      FirstDefault doc m own ref (some (.str text))
  | named {text} (hm : m.defaultValue = none) (ho : own = .ok none)
      (hn : doc.NamedDefault ref text) : FirstDefault doc m own ref (some (.str text))
  | absent (hm : m.defaultValue = none) (ho : own = .ok none)
      (hn : ∀ text, ¬ doc.NamedDefault ref text) : FirstDefault doc m own ref none

/-- A parameter made from a model: it takes the first default that there is, is required if its
object says so, in a path, or with a default, and is otherwise the model under a name of its own. -/
structure IsParameterOf (doc : ApiDocument) (m : Model) (own : Except Fault (Option String))
    (ref : Option String) (marked : Prop) (p : Parameter) : Prop where
  default : doc.FirstDefault m own ref p.model.defaultValue
  required : p.model.isRequired ↔ marked ∨ p.location = .path ∨ p.model.defaultValue.isSome
  others : p.model = { m with
    name := p.model.name
    description := p.model.description
    isDefinition := p.model.isDefinition
    defaultValue := p.model.defaultValue
    isRequired := p.model.isRequired }

variable {doc : ApiDocument} {pending : List String} {schema node : Node} {m s : Model}

/-- The keys that a schema requires are the items of its list. -/
theorem items_of_requiredKeys {required : List Scalar} (h : requiredKeys schema = .ok required) :
    ∃ value, schema.member "required" = .ok value ∧
      (value.orElse (.list [])).walk = .ok (required.map .scalar) := by
  obtain ⟨value, hvalue, h⟩ := bind_eq_ok.mp h
  obtain ⟨items, hitems, h⟩ := bind_eq_ok.mp h
  have hkeys : List.Forall₂ (fun item key => item = Node.scalar key) items required := by
    refine (mapM_eq_ok.mp h).imp fun item key hkey => ?_
    cases item with
    | scalar s => exact congrArg Node.scalar (Except.ok.inj hkey)
    | list l => cases hkey
    | map es => cases hkey
  rw [← List.forall₂_map_right_iff, List.forall₂_eq_eq_eq] at hkeys
  exact ⟨value, hvalue, hkeys ▸ hitems⟩

theorem requires_iff {required : List Scalar} (h : requiredKeys schema = .ok required)
    (key : String) : Requires schema key ↔ ListsKey schema key := by
  obtain ⟨value, hvalue, hwalk⟩ := items_of_requiredKeys h
  have hmem : .str key ∈ required ↔ Node.str key ∈ required.map Node.scalar := by simp
  rw [requires_iff_mem h, hmem]
  unfold Node.orElse at hwalk
  constructor
  · intro hmem
    split_ifs at hwalk with hpresent
    · have hget : schema.get? "required" = some value := by
        refine Node.get?_of_member hvalue ?_
        rintro rfl
        cases hpresent
      exact ⟨value, _, hget, hwalk, hmem⟩
    · rw [← Except.ok.inj hwalk] at hmem
      exact absurd hmem List.not_mem_nil
  · rintro ⟨found, items, hget, hitems, hmem⟩
    obtain rfl := Except.ok.inj (hvalue.symm.trans (Node.member_of_get? hget))
    split_ifs at hwalk with hpresent
    · exact Except.ok.inj (hitems.symm.trans hwalk) ▸ hmem
    · rw [Node.eq_nil_of_walk hitems (by simpa using hpresent)] at hmem
      exact absurd hmem List.not_mem_nil

/-- The properties of an object are its fields. -/
theorem OfObject.hasFields (h : doc.OfObject schema m.properties)
    (hobject : (properties? schema).isSome) : doc.HasFields schema m := by
  obtain ⟨pending, required, members, hm, hq, hproperties⟩ := h
  obtain ⟨es, hes⟩ := Option.isSome_iff_exists.mp hobject
  replace hq : requiredKeys schema = .ok required := hq.resolve_left (by simp [hes])
  refine ⟨⟨es, hes, ?_⟩, requires_iff hq⟩
  have hentries := hm.entries
  rw [hes, Option.getD_some] at hentries
  rw [hentries, hproperties, List.forall₂_map_left_iff, List.forall₂_map_right_iff,
    List.forall₂_same]
  exact fun p hp => isPropertyOf_member hm hq hp

theorem MadeFrom.hasFields (h : doc.MadeFrom node m) (hshape : m.shape = .interface) :
    ∃ object, doc.Follows node object ∧ doc.HasFields object m := by
  obtain ⟨_, _, _, r, hb, hr, -, hproperties⟩ := h.exists_build
  obtain ⟨object, hfollows, hobject, hof⟩ := interface_of_build hb (hr ▸ hshape)
  rw [← hproperties] at hof
  exact ⟨object, hfollows, hof.hasFields hobject⟩

theorem not_isSchemaRef_empty (dialect : Dialect) : dialect.isSchemaRef "" = false := by
  cases dialect <;> decide

theorem namedDefault_of_referencedDefault {ref : String} {literal : Option String}
    (h : doc.referencedDefault ref = .ok literal) (text : String) :
    doc.NamedDefault (some ref) text ↔ literal = some text := by
  unfold referencedDefault at h
  constructor
  · rintro ⟨r, schema, hr, hs, hschema, hdefault⟩
    obtain rfl := Option.some.inj hr
    rw [if_pos hs, hschema, Option.getD_some, hdefault] at h
    exact (Except.ok.inj h).symm
  · rintro rfl
    split_ifs at h with hs
    · cases hschema : doc.namedSchema? ref with
      | none =>
        rw [hschema] at h
        cases h
      | some schema =>
        rw [hschema] at h
        exact ⟨ref, schema, rfl, hs, hschema, h⟩
    · cases h

theorem firstDefault_of_parameterDefault {ref : Option String} {defaultValue : Option Node}
    (h : doc.parameterDefault node m ref = .ok defaultValue) :
    doc.FirstDefault m (DefaultLiteral.ofSchema node) ref defaultValue := by
  unfold parameterDefault at h
  cases hm : m.defaultValue with
  | some value =>
    rw [hm] at h
    exact pure_eq_ok.mp h ▸ .model hm
  | none =>
    rw [hm] at h
    obtain ⟨own, hown, h⟩ := bind_eq_ok.mp h
    cases own with
    | some text => exact pure_eq_ok.mp h ▸ .object hm hown
    | none =>
      have habsent (h : (pure none : Except Fault (Option Node)) = .ok defaultValue)
          (hn : ∀ text, ¬ doc.NamedDefault ref text) :
          doc.FirstDefault m (DefaultLiteral.ofSchema node) ref defaultValue :=
        pure_eq_ok.mp h ▸ .absent hm hown hn
      dsimp only at h
      split at h
      · refine habsent h ?_
        rintro text ⟨r, _, hr, -⟩
        cases hr
      · refine habsent h ?_
        rintro text ⟨r, _, hr, hs, -⟩
        rw [← Option.some.inj hr, not_isSchemaRef_empty] at hs
        cases hs
      · obtain ⟨literal, hliteral, h⟩ := bind_eq_ok.mp h
        obtain rfl := pure_eq_ok.mp h
        have hnamed := namedDefault_of_referencedDefault hliteral
        cases literal with
        | some text => exact .named hm hown ((hnamed text).mpr rfl)
        | none =>
          refine .absent hm hown fun text h => ?_
          cases (hnamed text).mp h

theorem isParameterOf_of_parameterOf {location : Location} {ref : Option String} {p : Parameter}
    (h : doc.parameterOf node m location ref = .ok p) :
    p.location = location ∧ doc.IsParameterOf m (DefaultLiteral.ofSchema node) ref
      (node.get? "required" = some (.bool true)) p := by
  obtain ⟨_, _, _, defaultValue, required, -, -, -, hdefault, hrequired, rfl⟩ :=
    parameterOf_eq_ok h
  refine ⟨rfl, firstDefault_of_parameterDefault hdefault, ?_, rfl⟩
  rw [← Node.isBool_of_member hrequired]
  change (required.isBool true || location == .path || defaultValue.isSome) = true ↔ _
  rw [Bool.or_eq_true, Bool.or_eq_true, or_assoc, beq_iff_eq]

/-- Everything that a caller gives is required if the document says so or if it has a default. The
properties of an interface, at any depth of a model, are those of its schema in the order of the
keys. A parameter has the model of its schema, and the first default of that model, of its own
object and of the named schema that its schema refers to; so does a body, whose object has no
default. -/
theorem required_or_default (doc : ApiDocument) :
    (∀ pending isDefinition name schema m s, doc.build pending isDefinition name schema = .ok m →
      m.Holds s → s.shape = .interface → ∃ node object, doc.LeadsTo schema node ∧
        doc.MadeFrom node s ∧ doc.Follows node object ∧ doc.HasFields object s) ∧
    (∀ node p, doc.parameter node = .ok p →
      Location.ofParameter node = .ok p.location ∧ ∃ m ref, doc.ChoosesModel node m ref ∧
        doc.IsParameterOf m (DefaultLiteral.ofSchema node) ref
          (node.get? "required" = some (.bool true)) p) ∧
    ∀ operation p, doc.bodyParameter? operation = .ok (some p) → ∃ raw body m ref,
      operation.get? requestBody = some raw ∧ doc.dereference raw = .ok body ∧
      doc.ChoosesBodyModel body m ref ∧
      doc.IsParameterOf m (.ok none) ref (body.get? "required" = some (.bool true)) p := by
  refine ⟨?_, ?_, ?_⟩
  · intro pending isDefinition name schema m s hb hs hshape
    obtain ⟨node, hl, hmade⟩ := inside_of_holds hb hs
    obtain ⟨object, hfollows, hfields⟩ := hmade.hasFields hshape
    exact ⟨node, object, hl, hmade, hfollows, hfields⟩
  · intro node p hp
    obtain ⟨location, m, ref, hlocation, hm, hp⟩ := model_of_parameter hp
    obtain ⟨rfl, hrule⟩ := isParameterOf_of_parameterOf hp
    exact ⟨hlocation, m, ref, hm, hrule⟩
  · intro operation p hp
    obtain ⟨-, raw, body, required, description, m, location, ref, q, mediaType, hraw, hbody,
      hrequired, -, hm, hq, rfl⟩ := model_of_bodyParameter? hp
    obtain ⟨-, hdefault, hmarked, hothers⟩ := isParameterOf_of_parameterOf hq
    refine ⟨raw, body, m, ref, hraw, hbody, hm, hdefault, ?_, hothers⟩
    rw [← Node.isBool_of_member hrequired]
    refine hmarked.trans (or_congr_left ?_)
    change some (Node.bool (required.isBool true)) = some (.bool true) ↔ _
    simp

namespace Paging

def size : Node := .map [(.str "type", .str "integer"), (.str "default", .int 20)]

def document : ApiDocument where
  dialect := .openApi3
  root := .map []
  schemas := [(.str "Size", size)]

def link : Node := .map [(.str "$ref", .str "#/components/schemas/Size")]

/-- A parameter whose schema refers to a named schema with a default. -/
def limit : Node :=
  .map [(.str "name", .str "limit"), (.str "in", .str "query"), (.str "schema", link)]

def page : Node :=
  .map [(.str "required", .list [.str "size"]), (.str "properties", .map [(.str "size", link)])]

def content : Node := .map [(.str "application/json", .map [(.str "schema", page)])]

def body : Node := .map [(.str "required", .bool true), (.str "content", content)]

def operation : Node := .map [(.str "requestBody", body)]

def linkModel (name : String) : Model :=
  { name, shape := .reference, type := TypeExpr.ofText "#/components/schemas/Size" }

def pageModel : Model := Model.ofProperties [{ linkModel "size" with isRequired := true }]

theorem build_link (pending : List String) (name : String) :
    document.build pending false (some name) link = .ok (linkModel name) :=
  (build_of_makes rfl rfl (.named rfl ⟨rfl, rfl⟩)).trans rfl

theorem model_page : document.anonymousModel page = .ok pageModel := by
  have hmembers (pending : List String) : document.MakesMembers pending [(.str "size", link)]
      [⟨.str "size", link, linkModel "size"⟩] :=
    ⟨rfl, List.forall_mem_singleton.mpr (build_link pending "size")⟩
  exact (build_of_makes rfl rfl
    (.plain rfl rfl rfl (.interface rfl rfl rfl rfl (hmembers _) rfl))).trans rfl

def limitParameter : Parameter where
  model := { linkModel "limit" with defaultValue := some (.str "20"), isRequired := true }
  location := .query
  wireName := "limit"

theorem parameter_limit : document.parameter limit = .ok limitParameter := by
  have hsource : document.parameter limit = (document.anonymousModel link).bind fun m =>
      document.parameterOf limit m .query (some "#/components/schemas/Size") := rfl
  have hmodel : document.anonymousModel link = .ok (linkModel "") := build_link _ ""
  rw [hsource, hmodel]
  rfl

def pageParameter : Parameter where
  model := { pageModel with name := "requestBody", isRequired := true }
  location := .body
  wireName := "requestBody"
  mediaType := some "application/json"

theorem parameter_page : document.bodyParameter? operation = .ok (some pageParameter) := by
  have hbody : document.dereference body = .ok body := dereference_eq_self rfl
  have hcontent : content? content = .ok (some (.str "application/json", page)) := rfl
  refine bind_eq_ok.mpr ⟨body, rfl, bind_eq_ok.mpr ⟨body, hbody, ?_⟩⟩
  refine bind_eq_ok.mpr ⟨content, rfl, bind_eq_ok.mpr ⟨_, hcontent, ?_⟩⟩
  exact bind_eq_ok.mpr ⟨pageModel, model_page, rfl⟩

/-- The property and the body are required as the document says, the parameter because the schema
that it refers to has a default. -/
theorem page_required_or_default :
    (document.build (document.references page) false (some "") page = .ok pageModel ∧
      pageModel.Holds pageModel ∧ pageModel.shape = .interface ∧
      ∃ node object, document.LeadsTo page node ∧ document.MadeFrom node pageModel ∧
        document.Follows node object ∧ document.HasFields object pageModel) ∧
    (document.parameter limit = .ok limitParameter ∧
      ∃ m ref, document.ChoosesModel limit m ref ∧
        document.IsParameterOf m (DefaultLiteral.ofSchema limit) ref
          (limit.get? "required" = some (.bool true)) limitParameter) ∧
    document.bodyParameter? operation = .ok (some pageParameter) ∧
      ∃ raw body m ref, operation.get? requestBody = some raw ∧
        document.dereference raw = .ok body ∧ document.ChoosesBodyModel body m ref ∧
        document.IsParameterOf m (.ok none) ref (body.get? "required" = some (.bool true))
          pageParameter := by
  obtain ⟨hinterfaces, hparameters, hbodies⟩ := required_or_default document
  refine ⟨⟨model_page, .refl, rfl, ?_⟩, ⟨parameter_limit, ?_⟩, parameter_page, ?_⟩
  · exact hinterfaces _ _ _ page pageModel pageModel model_page .refl rfl
  · exact (hparameters limit limitParameter parameter_limit).2
  · exact hbodies operation pageParameter parameter_page

end Paging

end ApiDocument

end ClientGen
