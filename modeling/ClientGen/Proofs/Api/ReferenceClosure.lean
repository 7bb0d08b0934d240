import ClientGen.Proofs.Api.NamedModels
import ClientGen.Proofs.Api.OperationImports

/-! What the models and services of a client import is in the client. -/

namespace ClientGen.ApiDocument

variable {doc : ApiDocument}

/-- The models of a document are those of its kept declarations. -/
theorem forall₂_models {ms : List Model} (h : doc.models = .ok ms) :
    List.Forall₂ (fun d m => Built doc true (some d.name) d.schema m ∧ m.name = d.name)
      (keepFirst [] doc.declarations) ms := by
  refine (mapM_eq_ok.mp (models_eq_ok.mp h).2).imp fun d m hm => ?_
  exact ⟨built_of_build hm, (Option.some.inj (name_of_build hm)).symm⟩

/-- A declared name is that of a model, also if its own schema was left out. -/
theorem exists_model_of_declares {ms : List Model} (h : doc.models = .ok ms) {n : String}
    (hn : doc.Declares n) : n = TypeExpr.dictionary ∨ ∃ m ∈ ms, m.name = n := by
  refine hn.imp_right ?_
  rintro ⟨d, hd, rfl⟩
  obtain ⟨k, hk, heq⟩ := (exists_mem_keepFirst [] hd).resolve_left List.not_mem_nil
  obtain ⟨m, hm, -, hname⟩ := (exists_mem_of_forall₂ (forall₂_models h)).1 k hk
  exact ⟨m, hm, hname.trans heq⟩

theorem schemaAt_declaration {d : Declaration} (h : d ∈ keepFirst [] doc.declarations) :
    doc.SchemaAt d.schema := by
  obtain ⟨⟨key, schema⟩, he, rfl⟩ := List.mem_map.mp (keepFirst_subset _ _ h)
  exact .named he

namespace Conventional

variable (h : doc.Conventional)
include h

theorem declares_models {ms : List Model} (hms : doc.models = .ok ms) :
    ∀ m ∈ ms, ∀ n ∈ m.imports, doc.Declares n := by
  intro m hm
  obtain ⟨d, hd, hb, -⟩ := (exists_mem_of_forall₂ (forall₂_models hms)).2 m hm
  exact h.declares_of_built hb (schemaAt_declaration hd)

theorem declares_services {services : List Service} (hs : doc.services = .ok services) :
    ∀ s ∈ services, ∀ n ∈ s.imports, doc.Declares n := by
  obtain ⟨ops, hops, hs⟩ := bind_eq_ok.mp hs
  obtain rfl := pure_eq_ok.mp hs
  obtain ⟨es, hes, hmade⟩ := forall₂_operations hops
  intro s hs n hn
  obtain ⟨hunnamed, -, -, himports⟩ := Service.mem_group hs
  obtain ⟨op, hop, hn⟩ := (himports n).mp hn
  -- Renaming keeps imports, so an operation imports what the one before renaming does.
  have hmem : op.unnamed ∈ (ops.filter (·.service == s.name)).map Operation.unnamed :=
    hunnamed ▸ List.mem_map_of_mem hop
  obtain ⟨own, hown, heq⟩ := List.mem_map.mp hmem
  obtain ⟨e, he, hmade⟩ := (exists_mem_of_forall₂ hmade).2 own (List.mem_filter.mp hown).1
  refine h.declares_operation ⟨es, hes, he⟩ hmade n ?_
  rw [← Operation.imports_unnamed, heq]
  exact hn

end Conventional

/-- What the models and the services of a client import is the dictionary or a model of it. -/
theorem imports_closed (h : doc.Conventional) {client : Client} (hc : doc.client = .ok client) :
    (∀ m ∈ client.models, ∀ n ∈ m.imports,
      n = TypeExpr.dictionary ∨ ∃ k ∈ client.models, k.name = n) ∧
    ∀ s ∈ client.services, ∀ n ∈ s.imports,
      n = TypeExpr.dictionary ∨ ∃ k ∈ client.models, k.name = n := by
  obtain ⟨ms, hms, hc⟩ := bind_eq_ok.mp hc
  obtain ⟨services, hservices, hc⟩ := bind_eq_ok.mp hc
  obtain ⟨_, -, hc⟩ := bind_eq_ok.mp hc
  obtain ⟨_, -, hc⟩ := bind_eq_ok.mp hc
  obtain rfl := pure_eq_ok.mp hc
  constructor
  · intro m hm n hn
    exact exists_model_of_declares hms (h.declares_models hms m hm n hn)
  · intro s hs n hn
    exact exists_model_of_declares hms (h.declares_services hservices s hs n hn)

namespace PetStore

def pet : Node := .map [(.str "$ref", .str "#/components/schemas/pet")]

def home : Node := .map [(.str "type", .str "object"), (.str "additionalProperties", pet)]

def schemas : Entries := [(.str "Pet", .map []), (.str "pet", .map []), (.str "Home", home)]

def found : Node :=
  .map [(.str "content", .map [(.str "application/json", .map [(.str "schema", pet)])])]

def listing : Node := .map [(.str "responses", .map [(.str "200", found)])]

def item : Node := .map [(.str "get", listing)]

def document : ApiDocument where
  dialect := .openApi3
  root := .map [(.str "paths", .map [(.str "/pets", item)]),
    (.str "components", .map [(.str "schemas", .map schemas)])]
  schemas

def petModel : Model := { name := "Pet", shape := .generic, isDefinition := true }

def homeModel : Model :=
  { name := "Home", shape := .dictionary, isDefinition := true,
    type := { text := "Pet", base := "Pet", imports := ["Pet", "Dictionary"] } }

def resultModel : Model :=
  { name := "", shape := .reference, type := { text := "Pet", base := "Pet", imports := ["Pet"] } }

def result : Response := { model := resultModel, code := some 200 }

def operation : Operation :=
  { service := "PetsService", name := "getPets", method := .get, path := "/pets",
    imports := ["Pet"], results := [result] }

def client : Client :=
  { server := "", version := "1.0", models := [petModel, homeModel],
    services := [{ name := "PetsService", operations := [operation], imports := ["Pet"] }] }

theorem typeOf_pet : TypeExpr.ofText "#/components/schemas/pet" = resultModel.type := by
  decide +kernel

theorem typeOfReference_pet :
    document.typeOfReference "#/components/schemas/pet" = .ok resultModel.type :=
  typeOfReference_eq_ok.mpr ⟨rfl, typeOf_pet⟩

theorem buildItem_pet (pending : List String) :
    document.buildItem pending pet = .ok (resultModel.type, none) := by
  rw [buildItem]
  change (do return (← document.typeOfReference "#/components/schemas/pet", none)) = _
  rw [typeOfReference_pet]
  rfl

theorem model_pet : document.anonymousModel pet = .ok resultModel := by
  unfold anonymousModel model
  rw [build_named rfl (by decide), typeOfReference_pet]
  rfl

theorem model_home : document.model home true "Home" = .ok homeModel := by
  let outline : Outline := ⟨some "Home", true, none, false, false, none, []⟩
  have htype : Model.inDictionary resultModel.type = homeModel.type := by decide
  have hbuild (pending : List String) :
      document.build pending true (some "Home") home = .ok homeModel :=
    calc document.build pending true (some "Home") home
      _ = document.buildStructure pending outline home := by
        rw [build]
        rfl
      _ = (do
          let item ← document.buildItem pending pet
          outline.complete
            { shape := .dictionary, type := Model.inDictionary item.1, link := item.2 }) := by
        rw [buildStructure]
        rfl
      _ = outline.complete { shape := .dictionary, type := homeModel.type } := by
        rw [buildItem_pet, ← htype]
        rfl
      _ = .ok homeModel := rfl
  exact hbuild _

theorem models_document : document.models = .ok [petModel, homeModel] := by
  have hkept : keepFirst [] document.declarations =
      [⟨.str "Pet", "Pet", .map []⟩, ⟨.str "Home", "Home", home⟩] := by
    have hnames : modelName .openApi3 (.str "Pet") = "Pet" ∧
        modelName .openApi3 (.str "pet") = "Pet" ∧
        modelName .openApi3 (.str "Home") = "Home" := by decide +kernel
    simp [declarations, document, schemas, keepFirst, hnames]
  refine models_eq_ok.mpr ⟨by decide, ?_⟩
  rw [hkept]
  exact mapM_eq_ok.mpr (.cons (model_empty _ _) (.cons model_home .nil))

theorem results_listing :
    document.results (.map [(.str "200", found)]) = .ok ([result], []) := by
  let table : ResponseTable := { numbered := [(200, found)] }
  have htable : document.tabulate {} [(.str "200", found)] = .ok table := by
    have hfound : document.dereference found = .ok found := dereference_eq_self rfl
    unfold tabulate
    exact bind_eq_ok.mpr ⟨found, hfound, rfl⟩
  have hsuccess : table.success? = some (200, found) := by
    simp [ResponseTable.success?, table, isSuccess]
  have hfailures : table.failures = [] := by
    simp [ResponseTable.failures, table, isSuccess]
  have hresult : document.response (some 200) found = .ok result :=
    bind_eq_ok.mpr ⟨some pet, rfl, bind_eq_ok.mpr ⟨_, model_pet, rfl⟩⟩
  refine bind_eq_ok.mpr ⟨_, rfl, bind_eq_ok.mpr ⟨table, htable, ?_⟩⟩
  rw [hsuccess, hfailures]
  exact bind_eq_ok.mpr ⟨result, hresult, rfl⟩

theorem operation_listing :
    document.operation "/pets" .get listing (.list []) = .ok operation := by
  have hservice : serviceName listing "/pets" = .ok "PetsService" := by
    have hclass : Naming.serviceClassName "pets" = "PetsService" := by decide +kernel
    rw [← hclass]
    rfl
  have hname : operationName listing .get "/pets" = .ok "getPets" := by
    have hmember : Naming.operationName "get-/pets" = "getPets" := by decide +kernel
    exact bind_eq_ok.mpr ⟨.null, rfl, pure_eq_ok.mpr hmember⟩
  exact bind_eq_ok.mpr ⟨.null, rfl, bind_eq_ok.mpr ⟨[], parameters_nil _, bind_eq_ok.mpr ⟨none, rfl,
    bind_eq_ok.mpr ⟨_, rfl, bind_eq_ok.mpr ⟨_, results_listing, bind_eq_ok.mpr ⟨_, hservice,
      bind_eq_ok.mpr ⟨_, hname, rfl⟩⟩⟩⟩⟩⟩⟩

theorem services_document : document.services = .ok client.services := by
  have hget : HttpMethod.ofKey? "get" = some .get := by decide
  have hitem : document.operationsOfItem (.str "/pets") (.list []) item.entries =
      .ok [operation] := by
    simp only [item, Node.entries, operationsOfItem, hget]
    exact bind_eq_ok.mpr ⟨_, operation_listing, rfl⟩
  have hoperations : document.operations = .ok [operation] :=
    operations_of_path rfl rfl rfl hitem
  have hgroup : Service.group [operation] = client.services := by
    have hname : Naming.fresh [] "getPets" "" = "getPets" := by decide
    simp [Service.group, Service.ofOperations, Service.renameClashes, sortNames, operation,
      distinct, distinct.go, hname, client]
  exact bind_eq_ok.mpr ⟨_, hoperations, pure_eq_ok.mpr hgroup⟩

theorem client_document : document.client = .ok client :=
  bind_eq_ok.mpr ⟨_, models_document, bind_eq_ok.mpr ⟨_, services_document,
    bind_eq_ok.mpr ⟨"", rfl, bind_eq_ok.mpr ⟨"1.0", rfl, rfl⟩⟩⟩⟩

def endpoint : Endpoint := ⟨.str "/pets", "get", .get, listing, .list []⟩

theorem eq_endpoint {e : Endpoint} (h : document.HasEndpoint e) : e = endpoint := by
  have hendpoints : document.endpoints = .ok [endpoint] :=
    bind_eq_ok.mpr ⟨.map [(.str "/pets", item)], rfl, bind_eq_ok.mpr ⟨_, rfl,
      bind_eq_ok.mpr ⟨[[endpoint]], mapM_eq_ok.mpr (.cons (bind_eq_ok.mpr
        ⟨item, dereference_eq_self rfl, rfl⟩) .nil), rfl⟩⟩⟩
  obtain ⟨es, hes, hmem⟩ := h
  rw [hendpoints] at hes
  obtain rfl := Except.ok.inj hes
  exact List.mem_singleton.mp hmem

theorem not_isParameter (node : Node) : ¬ document.IsParameter node := by
  rintro ⟨e, he, list, hlist, items, hitems, raw, hraw, -⟩
  obtain rfl := eq_endpoint he
  rcases hlist with rfl | hlist
  · obtain rfl := Except.ok.inj hitems
    exact absurd hraw List.not_mem_nil
  · cases hlist

theorem schemaAt_cases {schema : Node} (h : document.SchemaAt schema) :
    schema = .map [] ∨ schema = pet ∨ schema = home := by
  induction h with
  | @named key schema h =>
    have hmem : schema ∈ schemas.map Prod.snd := List.mem_map_of_mem h
    have hmem : schema = .map [] ∨ schema = home := by simpa [schemas] using hmem
    exact hmem.imp_right .inr
  | part _ hr hp ih =>
    rcases ih with rfl | rfl | rfl
    · cases hp
    · cases hr
    · exact .inr (.inl (List.mem_singleton.mp hp))
  | target _ hr hs _ ih =>
    rcases ih with rfl | rfl | rfl
    · cases hr
    · obtain rfl := Option.some.inj hr
      exact absurd hs (by decide)
    · cases hr
  | parameter h => exact absurd h (not_isParameter _)
  | parameterSchema h => exact absurd h (not_isParameter _)
  | parameterItems h => exact absurd h (not_isParameter _)
  | parameterContent h => exact absurd h (not_isParameter _)
  | body h _ hb =>
    obtain rfl := eq_endpoint h
    cases hb
  | response h hr hc ht hs =>
    obtain rfl := eq_endpoint h
    obtain rfl := Option.some.inj hr
    obtain ⟨-, rfl⟩ := Prod.mk.inj (List.mem_singleton.mp hc)
    have hfound : document.dereference found = .ok found := dereference_eq_self rfl
    rw [hfound] at ht
    obtain rfl := Except.ok.inj ht
    exact .inr (.inl (List.mem_singleton.mp hs))

theorem conventional : document.Conventional where
  keys := by
    have hplain (s : String) (h : s ≠ "" ∧ s.toList.all isKeyChar) : IsSchemaKey (.str s) :=
      ⟨s, rfl, h.1, List.all_eq_true.mp h.2⟩
    simp only [document, schemas, List.forall_mem_cons]
    exact ⟨hplain _ (by decide), hplain _ (by decide), hplain _ (by decide),
      fun e he => absurd he List.not_mem_nil⟩
  types := by
    intro schema h
    rcases schemaAt_cases h with rfl | rfl | rfl <;> decide

/-- The dropped schema of a clashing name is imported under the name of the one that was kept. -/
theorem imports_petStore : ofRoot .openApi3 document.root = .ok document ∧
    document.client = .ok client ∧
    (∀ m ∈ client.models, ∀ n ∈ m.imports,
      n = TypeExpr.dictionary ∨ ∃ k ∈ client.models, k.name = n) ∧
    ∀ s ∈ client.services, ∀ n ∈ s.imports,
      n = TypeExpr.dictionary ∨ ∃ k ∈ client.models, k.name = n :=
  ⟨rfl, client_document, imports_closed conventional client_document⟩

end PetStore

end ClientGen.ApiDocument
