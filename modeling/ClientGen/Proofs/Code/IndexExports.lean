import ClientGen.Proofs.Code.SourcePaths

/-! The names that the index of a client exports: those of the runtime, of the models and of the
services meet in one scope. -/

namespace ClientGen

namespace Naming

/-- Only names that end as classes do, or the empty one, are those of services. -/
theorem serviceClassName_ne {name : String} (hne : name ≠ "")
    (hends : ¬ "Service".toList <:+ name.toList) (text : String) :
    serviceClassName text ≠ name := by
  rintro rfl
  exact hends (suffix_serviceClassName hne)

end Naming

namespace Export

/-- The names that the index exports. -/
def names (client : Client) (options : Options) : List String :=
  (groups client options).flatten.map (·.name)

/-- What the runtime exports. -/
def coreNames : List String := ["ApiError", "OpenAPI", "OpenAPIConfig"]

variable {client : Client} {options : Options}

theorem names_typescript (hlanguage : options.language = .typescript)
    (hcore : options.exportCore) (hmodels : options.exportModels)
    (hservices : options.exportServices) :
    names client options =
      coreNames ++ (client.models.map (·.name) ++ client.services.map (·.name)) := by
  have hofCore : (ofCore .typescript).map (·.name) = coreNames := rfl
  have hofModels : (ofModels options client.models).map (·.name) = client.models.map (·.name) := by
    rw [ofModels, hlanguage]
    simp [Code.choose]
  have hofServices :
      (ofServices client.services).map (·.name) = client.services.map (·.name) := by
    simp [ofServices]
  simp only [names, groups, hlanguage, hcore, hmodels, hservices, if_true, List.flatten_cons,
    List.flatten_nil, List.append_nil, List.map_append, hofCore, hofModels, hofServices]

end Export

namespace ApiDocument

variable {doc : ApiDocument}

/-- A model has the name of none of the values of the runtime. -/
theorem model_name_ne {client : Client} (h : doc.client = .ok client) {name : String}
    (hreserved : name ∈ TypeExpr.reserved) (hfile : name ≠ "File") :
    name ∉ client.models.map (·.name) := by
  intro hmem
  obtain ⟨m, hm, rfl⟩ := List.mem_map.mp hmem
  have htype := (names_models (parts_of_client h).1).2 m hm
  exact hfile (htype.eq_file hreserved)

/-- A service has no name of the runtime. -/
theorem service_name_ne {client : Client} (h : doc.client = .ok client) :
    ∀ name ∈ Export.coreNames, name ∉ client.services.map (·.name) := by
  have hapart : ∀ name ∈ Export.coreNames, name ≠ "" ∧ ¬ "Service".toList <:+ name.toList := by
    decide
  intro name hname hmem
  obtain ⟨s, hs, rfl⟩ := List.mem_map.mp hmem
  obtain ⟨text, heq⟩ := (names_services (parts_of_client h).2).2 s hs
  obtain ⟨hne, hends⟩ := hapart s.name hname
  exact Naming.serviceClassName_ne hne hends text heq.symm

/-- The index of a client in TypeScript exports a name twice in two cases only: a model is called as
the settings of the runtime, or as a service. -/
theorem exports_nodup_iff {client : Client} (h : doc.client = .ok client) {options : Options}
    (hlanguage : options.language = .typescript) (hcore : options.exportCore)
    (hmodels : options.exportModels) (hservices : options.exportServices) :
    (Export.names client options).Nodup ↔
      "OpenAPIConfig" ∉ client.models.map (·.name) ∧
        (client.models.map (·.name)).Disjoint (client.services.map (·.name)) := by
  have hwell := Client.wellNamed_of_document h
  have hguarded : "ApiError" ∈ TypeExpr.reserved ∧ "OpenAPI" ∈ TypeExpr.reserved := by decide
  have herror := model_name_ne h hguarded.1 (by decide)
  have hsettings := model_name_ne h hguarded.2 (by decide)
  have hclasses := service_name_ne h
  have hruntime : Export.coreNames.Nodup := by decide
  rw [Export.names_typescript hlanguage hcore hmodels hservices, List.nodup_append',
    List.nodup_append']
  constructor
  · rintro ⟨-, ⟨-, -, happart⟩, hdisjoint⟩
    refine ⟨fun hmem => ?_, happart⟩
    exact hdisjoint (by decide) (List.mem_append_left _ hmem)
  · rintro ⟨hconfig, hapart⟩
    refine ⟨hruntime, ⟨hwell.models, hwell.services, hapart⟩, ?_⟩
    intro name hname hmem
    rcases List.mem_append.mp hmem with hmodel | hservice
    · simp only [Export.coreNames, List.mem_cons, List.not_mem_nil, or_false] at hname
      rcases hname with rfl | rfl | rfl
      · exact herror hmodel
      · exact hsettings hmodel
      · exact hconfig hmodel
    · exact hclasses name hname hservice

theorem PetStore.exports_store : (PetStore.document.client = .ok PetStore.client ∧
      ({} : Options).language = .typescript ∧ ({} : Options).exportCore ∧
      ({} : Options).exportModels ∧ ({} : Options).exportServices) ∧
    (Export.names PetStore.client {}).Nodup ∧
    Export.names PetStore.client {} =
      ["ApiError", "OpenAPI", "OpenAPIConfig", "Pet", "Home", "PetsService"] := by
  have h := PetStore.client_document
  have hnodup : (Export.names PetStore.client {}).Nodup := by
    refine (exports_nodup_iff h rfl rfl rfl rfl).mpr ⟨?_, ?_⟩
    · decide
    · exact List.disjoint_left.mpr (by decide)
  exact ⟨⟨h, rfl, rfl, rfl, rfl⟩, hnodup, rfl⟩

namespace PetService

def schemas : Entries := [(.str "OpenAPIConfig", .map []), (.str "petService", .map [])]

def item : Node := .map [(.str "get", .map [])]

def document : ApiDocument where
  dialect := .openApi3
  root := .map [(.str "paths", .map [(.str "/pet", item)]),
    (.str "components", .map [(.str "schemas", .map schemas)])]
  schemas

def operation : Operation :=
  { service := "PetService", name := "getPet", method := .get, path := "/pet",
    results := [Response.void none none] }

def client : Client :=
  { models := [{ name := "OpenAPIConfig", shape := .generic, isDefinition := true },
      { name := "PetService", shape := .generic, isDefinition := true }]
    services := [{ name := "PetService", operations := [operation] }] }

theorem models_document : document.models = .ok client.models := by
  have hkept : keepFirst [] document.declarations =
      [⟨.str "OpenAPIConfig", "OpenAPIConfig", .map []⟩,
        ⟨.str "petService", "PetService", .map []⟩] := by
    have hnames : modelName .openApi3 (.str "OpenAPIConfig") = "OpenAPIConfig" ∧
        modelName .openApi3 (.str "petService") = "PetService" := by decide +kernel
    simp [declarations, document, schemas, keepFirst, hnames]
  refine models_eq_ok.mpr ⟨by decide, ?_⟩
  rw [hkept]
  exact mapM_eq_ok.mpr (.cons (model_empty _ _) (.cons (model_empty _ _) .nil))

theorem operation_get : document.operation "/pet" .get (.map []) (.list []) = .ok operation := by
  have hname : operationName (.map []) .get "/pet" = .ok "getPet" := by
    have hmember : Naming.operationName "get-/pet" = "getPet" := by decide +kernel
    exact bind_eq_ok.mpr ⟨.null, rfl, pure_eq_ok.mpr hmember⟩
  have hservice : serviceName (.map []) "/pet" = .ok "PetService" := by
    have hclass : Naming.serviceClassName
        (((firstSegment? "/pet").map String.ofList).getD defaultService) = "PetService" := by
      decide +kernel
    exact bind_eq_ok.mpr ⟨.null, rfl, pure_eq_ok.mpr hclass⟩
  exact operation_of_call rfl (by decide) hservice hname

theorem services_document : document.services = .ok client.services := by
  have hget : HttpMethod.ofKey? "get" = some .get := by decide
  have hitem : document.operationsOfItem (.str "/pet") (.list []) item.entries =
      .ok [operation] := by
    simp only [item, Node.entries, operationsOfItem, hget]
    exact bind_eq_ok.mpr ⟨_, operation_get, rfl⟩
  have hoperations : document.operations = .ok [operation] :=
    operations_of_path rfl rfl rfl hitem
  have hgroup : Service.group [operation] = client.services := by
    have hname : Naming.fresh [] "getPet" "" = "getPet" := by decide
    simp [Service.group, Service.ofOperations, Service.renameClashes, sortNames, operation,
      distinct, distinct.go, hname, client]
  exact bind_eq_ok.mpr ⟨_, hoperations, pure_eq_ok.mpr hgroup⟩

/-- The name of the settings is not kept from models, nor that of a service. -/
theorem exports_twice : ofRoot .openApi3 document.root = .ok document ∧
    document.client = .ok client ∧
    Export.names client {} =
      ["ApiError", "OpenAPI", "OpenAPIConfig", "OpenAPIConfig", "PetService", "PetService"] ∧
    ¬ (Export.names client {}).Nodup := by
  have hclient : document.client = .ok client :=
    bind_eq_ok.mpr ⟨_, models_document, bind_eq_ok.mpr ⟨_, services_document,
      bind_eq_ok.mpr ⟨"", rfl, bind_eq_ok.mpr ⟨"1.0", rfl, rfl⟩⟩⟩⟩
  exact ⟨rfl, hclient, rfl, by decide⟩

end PetService

end ApiDocument

end ClientGen
