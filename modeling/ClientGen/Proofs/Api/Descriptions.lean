import ClientGen.Code.ModelFile
import ClientGen.Proofs.Api.ParameterOrder
import ClientGen.Proofs.Api.ServiceNames
import ClientGen.Proofs.Schema.EnumNames
import ClientGen.Proofs.Schema.OneShape

/-! The descriptions of a client that are written into block comments, and where they come from. -/

namespace ClientGen

/-- The texts of a client that describe something in a comment, but for those of the members of
enumerations. -/
inductive Client.Remark (client : Client) : Option String → Prop
  | model {m s : Model} (hm : m ∈ client.models) (hs : m.Holds s) : Remark client s.description
  | summary {s : Service} {op : Operation} (hs : s ∈ client.services) (hop : op ∈ s.operations) :
      Remark client op.summary
  | operation {s : Service} {op : Operation} (hs : s ∈ client.services) (hop : op ∈ s.operations) :
      Remark client op.description
  | parameter {s : Service} {op : Operation} {p : Parameter} (hs : s ∈ client.services)
      (hop : op ∈ s.operations) (hp : p ∈ op.parameters) : Remark client p.model.description
  | result {s : Service} {op : Operation} {r : Response} (hs : s ∈ client.services)
      (hop : op ∈ s.operations) (hr : r ∈ op.results) : Remark client r.model.description

namespace ApiDocument

variable {doc : ApiDocument} {pending : List String}

theorem harmless_of_ofSchema {dialect : Dialect} {isDefinition : Bool} {name : Option String}
    {schema : Node} {outline : Outline}
    (h : Outline.ofSchema dialect isDefinition name schema = .ok outline) :
    Harmless outline.description := by
  obtain ⟨-, -, ⟨_, -, hcomment⟩, -⟩ := ofSchema_eq_ok h
  exact Node.harmless_comment hcomment

/-- A model has the description of its own schema, or that of the schema that it refers to. -/
theorem harmless_of_build {isDefinition : Bool} {name : Option String} {schema : Node} {m : Model}
    (h : doc.build pending isDefinition name schema = .ok m) : Harmless m.description := by
  induction pending, schema using buildInduction with
  | step pending schema targets smaller =>
    cases step_of_build h with
    | noSchema _ ho => exact harmless_of_ofSchema ho
    | target _ _ hp _ hb => exact targets _ hp _ hb
    | made _ ho => exact harmless_of_ofSchema ho

theorem MadeFrom.harmless {node : Node} {m : Model} (h : doc.MadeFrom node m) :
    Harmless m.description := by
  cases h with
  | own hb => exact harmless_of_build hb
  | property hb =>
    have hm := harmless_of_build hb
    exact hm

theorem harmless_of_parameterOf {node : Node} {m : Model} {location : Location}
    {ref : Option String} {p : Parameter} (hm : Harmless m.description)
    (h : doc.parameterOf node m location ref = .ok p) : Harmless p.model.description := by
  obtain ⟨_, _, _, _, _, -, -, hcomment, -, -, rfl⟩ := parameterOf_eq_ok h
  exact (Node.harmless_comment hcomment).or hm

theorem harmless_of_parameter {node : Node} {p : Parameter} (h : doc.parameter node = .ok p) :
    Harmless p.model.description := by
  obtain ⟨_, _, _, -, hm, h⟩ := parameter_eq_ok h
  cases hm with
  | schema _ hm => exact harmless_of_parameterOf (harmless_of_build hm) h
  | dictionary _ _ _ hcomment _ => exact harmless_of_parameterOf (Node.harmless_comment hcomment) h
  | any => exact harmless_of_parameterOf .none h

theorem harmless_of_bodyParameter? {node : Node} {p : Parameter}
    (h : doc.bodyParameter? node = .ok (some p)) : Harmless p.model.description := by
  obtain ⟨-, _, _, _, _, _, _, q, _, -, -, hm, hq, rfl⟩ := bodyParameter?_eq_ok h
  change Harmless q.model.description
  cases hm with
  | schema _ _ hm => exact harmless_of_parameterOf (harmless_of_build hm) hq
  | any => exact harmless_of_parameterOf .none hq

theorem harmless_of_response {code : Option Int} {node : Node} {result : Response}
    (h : doc.response code node = .ok result) : Harmless result.model.description := by
  obtain ⟨schema, -, h⟩ := bind_eq_ok.mp h
  cases schema with
  | none =>
    obtain ⟨_, -, h⟩ := bind_eq_ok.mp h
    obtain ⟨_, hcomment, h⟩ := bind_eq_ok.mp h
    obtain rfl := pure_eq_ok.mp h
    exact Node.harmless_comment hcomment
  | some schema =>
    obtain ⟨m, hm, h⟩ := bind_eq_ok.mp h
    obtain ⟨_, -, h⟩ := bind_eq_ok.mp h
    obtain ⟨_, hcomment, h⟩ := bind_eq_ok.mp h
    obtain rfl := pure_eq_ok.mp h
    exact (Node.harmless_comment hcomment).or (harmless_of_build hm)

theorem harmless_of_results {responses : Node} {results : List Response}
    {errors : List ErrorResponse} (h : doc.results responses = .ok (results, errors)) :
    ∀ r ∈ results, Harmless r.model.description := by
  obtain ⟨_, _, result, _, -, -, rfl, hchosen, -⟩ := results_eq_ok h
  refine List.forall_mem_singleton.mpr ?_
  cases hchosen with
  | success _ made => exact harmless_of_response made
  | default _ _ made => exact harmless_of_response made
  | nothing => exact .none

/-- The texts that describe an operation, its parameters and its results stay in comments. -/
structure QuietOperation (op : Operation) : Prop where
  summary : Harmless op.summary
  description : Harmless op.description
  parameters : ∀ p ∈ op.parameters, Harmless p.model.description
  results : ∀ r ∈ op.results, Harmless r.model.description

theorem quiet_operation {path : String} {method : HttpMethod} {node shared : Node}
    {op : Operation} (h : doc.operation path method node shared = .ok op) : QuietOperation op := by
  have hparameters : ∀ p ∈ op.parameters, Harmless p.model.description := by
    intro p hp
    rcases parameter_of_operation h hp with ⟨_, hparameter⟩ | hbody
    · exact harmless_of_parameter hparameter
    · exact harmless_of_bodyParameter? hbody
  obtain ⟨_, _, hcomposed⟩ := operation_eq_ok.mp h
  obtain ⟨_, -, hsummary⟩ := hcomposed.summary
  obtain ⟨_, -, hdescription⟩ := hcomposed.description
  obtain ⟨_, -, hresults⟩ := hcomposed.responses
  exact ⟨Node.harmless_comment hsummary, Node.harmless_comment hdescription, hparameters,
    harmless_of_results hresults⟩

/-- Renaming keeps the texts of an operation. -/
theorem quiet_of_service {services : List Service} (h : doc.services = .ok services)
    {s : Service} (hs : s ∈ services) {op : Operation} (hop : op ∈ s.operations) :
    QuietOperation op := by
  obtain ⟨e, own, -, hown, -, k, rfl⟩ := (operations_of_service h hs).2 op hop
  obtain ⟨hsummary, hdescription, hparameters, hresults⟩ := quiet_operation hown
  exact ⟨hsummary, hdescription, hparameters, hresults⟩

theorem schema_of_model {ms : List Model} (h : doc.models = .ok ms) {m : Model} (hm : m ∈ ms) :
    ∃ key schema name, (key, schema) ∈ doc.schemas ∧ doc.model schema true name = .ok m := by
  obtain ⟨d, hd, hb⟩ := (exists_mem_of_forall₂ (mapM_eq_ok.mp (models_eq_ok.mp h).2)).2 m hm
  obtain ⟨⟨key, schema⟩, he, rfl⟩ := List.mem_map.mp (keepFirst_subset _ _ hd)
  exact ⟨key, schema, _, he, hb⟩

theorem harmless_of_remark {client : Client} (h : doc.client = .ok client)
    {description : Option String} (hd : client.Remark description) : Harmless description := by
  obtain ⟨ms, hms, h⟩ := bind_eq_ok.mp h
  obtain ⟨services, hservices, h⟩ := bind_eq_ok.mp h
  obtain ⟨_, -, h⟩ := bind_eq_ok.mp h
  obtain ⟨_, -, h⟩ := bind_eq_ok.mp h
  obtain rfl := pure_eq_ok.mp h
  cases hd with
  | model hm hs =>
    obtain ⟨_, _, _, -, hb⟩ := schema_of_model hms hm
    obtain ⟨_, -, hmade⟩ := inside_of_holds hb hs
    exact hmade.harmless
  | summary hs hop => exact (quiet_of_service hservices hs hop).summary
  | operation hs hop => exact (quiet_of_service hservices hs hop).description
  | parameter hs hop hp => exact (quiet_of_service hservices hs hop).parameters _ hp
  | result hs hop hr => exact (quiet_of_service hservices hs hop).results _ hr

/-- No description of a client ends its comment, but for those of the members of enumerations: an
extension of the schema gives them as they are, and they stay in comments if its items do. -/
theorem descriptions_of_client {client : Client} (h : doc.client = .ok client) :
    (∀ description, client.Remark description → Harmless description) ∧
    ∀ m ∈ client.models, ∀ s, m.Holds s → s.members ≠ [] →
      ∃ key schema node source, (key, schema) ∈ doc.schemas ∧ doc.LeadsTo schema node ∧
        MemberSource.StandsIn doc.dialect node source ∧ source.members = .ok s.members ∧
        ((∀ entry ∈ s.members, Harmless entry.description) ↔ source.Quiet) := by
  refine ⟨fun _ hd => harmless_of_remark h hd, fun m hm s hs hmembers => ?_⟩
  obtain ⟨ms, hms, h⟩ := bind_eq_ok.mp h
  obtain ⟨_, -, h⟩ := bind_eq_ok.mp h
  obtain ⟨_, -, h⟩ := bind_eq_ok.mp h
  obtain ⟨_, -, h⟩ := bind_eq_ok.mp h
  obtain rfl := pure_eq_ok.mp h
  obtain ⟨key, schema, _, he, hb⟩ := schema_of_model hms hm
  obtain ⟨place, hplace, hmade⟩ := inside_of_holds hb hs
  have henum : s.shape = .enum := hmade.oneShaped.members.mp hmembers
  obtain ⟨_, _, _, r, hr, hshape, hown, -⟩ := hmade.exists_build
  obtain ⟨node, source, hnode, hstands, hsource⟩ := source_of_build hr (hshape ▸ henum)
  rw [← hown] at hsource
  exact ⟨key, schema, node, source, he, hplace.trans hnode, hstands, hsource,
    MemberSource.quiet_members hsource⟩

namespace PetKindTexts

/-- The same text for the enumeration and for its member. -/
def pet : Node :=
  .map [(.str "enum", .list [.str "cat"]), (.str "description", .str "a */ b"),
    (.str "x-enum-descriptions", .list [.str "a */ b"])]

def document : ApiDocument where
  dialect := .openApi3
  root := .map [(.str "paths", .map []),
    (.str "components", .map [(.str "schemas", .map [(.str "Pet", pet)])])]
  schemas := [(.str "Pet", pet)]

def entry : EnumEntry := { name := "CAT", value := "cat", description := some "a */ b" }

def petModel : Model :=
  { Model.ofMembers "string" [entry] with
    name := "Pet", isDefinition := true, description := some "a *\\/ b" }

def client : Client := { models := [petModel] }

theorem client_document : document.client = .ok client := by
  have hname : modelName .openApi3 (.str "Pet") = "Pet" := by decide +kernel
  have hkept : keepFirst [] document.declarations = [⟨.str "Pet", "Pet", pet⟩] := by
    simp [declarations, document, keepFirst, hname]
  have henum : enumModel? .openApi3 pet = .ok (some (Model.ofMembers "string" [entry])) := by
    rfl
  have hmodel : document.model pet true "Pet" = .ok petModel := by
    have houtline : Outline.ofSchema .openApi3 true (some "Pet") pet =
        .ok ⟨some "Pet", true, some "a *\\/ b", false, false, none, []⟩ := by
      rfl
    exact (build_of_makes rfl houtline (.enum rfl henum)).trans rfl
  have hmodels : document.models = .ok [petModel] := by
    refine models_eq_ok.mpr ⟨by decide, ?_⟩
    rw [hkept]
    exact mapM_eq_ok.mpr (.cons hmodel .nil)
  have hservices : document.services = .ok [] :=
    bind_eq_ok.mpr ⟨[], rfl, rfl⟩
  exact bind_eq_ok.mpr ⟨_, hmodels, bind_eq_ok.mpr ⟨_, hservices,
    bind_eq_ok.mpr ⟨"", rfl, bind_eq_ok.mpr ⟨"1.0", rfl, rfl⟩⟩⟩⟩

theorem descriptions_pet : document.client = .ok client ∧
    (∀ description, client.Remark description → Harmless description) ∧
    ∀ m ∈ client.models, ∀ s, m.Holds s → s.members ≠ [] →
      ∃ key schema node source, (key, schema) ∈ document.schemas ∧
        document.LeadsTo schema node ∧ MemberSource.StandsIn document.dialect node source ∧
        source.members = .ok s.members ∧
        ((∀ entry ∈ s.members, Harmless entry.description) ↔ source.Quiet) :=
  ⟨client_document, descriptions_of_client client_document⟩

/-- The text that the model itself has is broken, and that of its member ends the comment. -/
theorem member_ends_comment : ofRoot .openApi3 document.root = .ok document ∧
    document.client = .ok client ∧ petModel ∈ client.models ∧ entry ∈ petModel.members ∧
    petModel.description = some "a *\\/ b" ∧ entry.description = some "a */ b" ∧
    " * a */ b" ∈ Code.modelFile .typescript petModel false ∧ ¬ Harmless entry.description := by
  refine ⟨rfl, client_document, List.mem_singleton_self _, List.mem_singleton_self _, rfl, rfl,
    ?_, fun h => ?_⟩
  · decide +kernel
  · exact h _ rfl (by decide)

end PetKindTexts

end ApiDocument

end ClientGen
