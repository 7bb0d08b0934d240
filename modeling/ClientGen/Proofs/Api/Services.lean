import ClientGen.Proofs.Document.References
import ClientGen.Proofs.Names
import ClientGen.Proofs.Naming.Fresh
import ClientGen.Proofs.Outcome

/-! Every method of every path becomes one operation of one service. -/

namespace ClientGen

namespace HttpMethod

/-- Whether a key is the word for a method in any case. -/
def isKey (key : String) (method : HttpMethod) : Bool :=
  String.ofList (key.toList.map Char.toLower) == method.name

theorem ofKey?_eq_find? (key : String) : ofKey? key = all.find? (isKey key) := by
  unfold ofKey? words
  induction all with
  | nil => rfl
  | cons m rest ih =>
    rw [List.map_cons, List.lookup_cons, List.find?_cons, ih]
    rfl

end HttpMethod

namespace Operation

/-- An operation regardless of its name. -/
def unnamed (op : Operation) : Operation := { op with name := "" }

@[simp] theorem imports_unnamed (op : Operation) : op.unnamed.imports = op.imports := rfl

end Operation

namespace Service

/-- Renaming changes names only. -/
theorem unnamed_renameClashes (taken : List String) (ops : List Operation) :
    (renameClashes taken ops).map Operation.unnamed = ops.map Operation.unnamed := by
  induction ops generalizing taken with
  | nil => rfl
  | cons op rest ih =>
    rw [renameClashes, List.map_cons, List.map_cons, ih]
    rfl

/-- Renamed operations have free names that differ from each other. -/
theorem names_renameClashes (taken : List String) (ops : List Operation) :
    ((renameClashes taken ops).map (·.name)).Nodup ∧
      ∀ op ∈ renameClashes taken ops, op.name ∉ taken := by
  induction ops generalizing taken with
  | nil => exact ⟨List.nodup_nil, by simp [renameClashes]⟩
  | cons op rest ih =>
    obtain ⟨hnodup, hfree⟩ := ih (Naming.fresh taken op.name "" :: taken)
    have hfresh := Naming.fresh_not_mem taken op.name ""
    constructor
    · refine List.nodup_cons.mpr ⟨?_, hnodup⟩
      intro hmem
      obtain ⟨other, hother, heq⟩ := List.mem_map.mp hmem
      exact hfree other hother (heq ▸ List.mem_cons_self)
    · intro other hother
      rcases List.mem_cons.mp hother with rfl | hother
      · exact hfresh
      · exact fun h => hfree other hother (List.mem_cons_of_mem _ h)

/-- Grouping by distinct keys keeps each item once. -/
private theorem perm_flatMap_filter {names : List String} (hnodup : names.Nodup)
    {ops : List Operation} (h : ∀ op ∈ ops, op.service ∈ names) :
    (names.flatMap fun name => ops.filter (·.service == name)).Perm ops := by
  induction names generalizing ops with
  | nil =>
    have hops : ops = [] := List.eq_nil_iff_forall_not_mem.mpr fun op hop => by simpa using h op hop
    simp [hops]
  | cons name rest ih =>
    obtain ⟨hname, hrest⟩ := List.nodup_cons.mp hnodup
    -- The other groups lose nothing when the operations of the first name are taken out.
    have hothers : rest.flatMap (fun n => ops.filter (·.service == n)) =
        rest.flatMap fun n => (ops.filter fun op => !(op.service == name)).filter
          (·.service == n) := by
      refine List.flatMap_congr fun n hn => ?_
      rw [List.filter_filter]
      refine List.filter_congr fun op _ => ?_
      by_cases heq : op.service = n
      · have hne : n ≠ name := fun h => hname (h ▸ hn)
        simp [heq, hne]
      · simp [heq]
    have hmem : ∀ op ∈ ops.filter (fun op => !(op.service == name)), op.service ∈ rest := by
      intro op hop
      obtain ⟨hop, hne⟩ := List.mem_filter.mp hop
      exact (List.mem_cons.mp (h op hop)).resolve_left (by simpa using hne)
    rw [List.flatMap_cons, hothers]
    exact ((ih hrest hmem).append_left _).trans (List.filter_append_perm _ ops)

variable (ops : List Operation)

theorem names_group : (group ops).map (·.name) = distinct (ops.map (·.service)) := by
  simp [group, ofOperations, Function.comp_def]

/-- Services share out the operations. -/
theorem perm_group :
    (((group ops).flatMap (·.operations)).map Operation.unnamed).Perm
      (ops.map Operation.unnamed) := by
  have hgroup : ((group ops).flatMap (·.operations)).map Operation.unnamed =
      ((distinct (ops.map (·.service))).flatMap fun name =>
        ops.filter (·.service == name)).map Operation.unnamed := by
    simp [group, ofOperations, List.flatMap_map, List.map_flatMap, unnamed_renameClashes]
  rw [hgroup]
  refine (perm_flatMap_filter (nodup_distinct _) fun op hop => ?_).map _
  exact mem_distinct.mpr (List.mem_map_of_mem hop)

variable {ops}

/-- What a service holds. -/
theorem mem_group {s : Service} (h : s ∈ group ops) :
    s.operations.map Operation.unnamed =
      (ops.filter (·.service == s.name)).map Operation.unnamed ∧
    (s.operations.map (·.name)).Nodup ∧ s.imports.Pairwise (· < ·) ∧
    ∀ n, n ∈ s.imports ↔ ∃ op ∈ s.operations, n ∈ op.imports := by
  obtain ⟨name, -, rfl⟩ := List.mem_map.mp h
  have hunnamed := unnamed_renameClashes [] (ops.filter (·.service == name))
  refine ⟨hunnamed, (names_renameClashes [] _).1, pairwise_sortNames (nodup_distinct _), ?_⟩
  intro n
  have himports (l : List Operation) : (∃ op ∈ l, n ∈ op.imports) ↔
      ∃ op ∈ l.map Operation.unnamed, n ∈ op.imports := by simp
  rw [ofOperations, himports, hunnamed, ← himports]
  simp

end Service

/-- A key of a path item that is a method, with the parameters that the item shares. -/
structure Endpoint where
  path : Scalar
  key : String
  method : HttpMethod
  node : Node
  shared : Node

/-- The endpoint of an entry of a path item. -/
def Endpoint.ofEntry? (path : Scalar) (shared : Node) (entry : Scalar × Node) : Option Endpoint :=
  entry.1.text?.bind fun key => (HttpMethod.all.find? (HttpMethod.isKey key)).map fun method =>
    ⟨path, key, method, entry.2, shared⟩

namespace ApiDocument

/-- The endpoints of a path item. -/
def endpointsOfItem (doc : ApiDocument) (entry : Scalar × Node) : Except Fault (List Endpoint) := do
  let item ← doc.dereference entry.2
  let shared := orEmptyList (← item.member "parameters")
  return (← item.members).filterMap (Endpoint.ofEntry? entry.1 shared)

/-- The endpoints of a document in its order. -/
def endpoints (doc : ApiDocument) : Except Fault (List Endpoint) := do
  let paths ← (orEmptyMap (← doc.root.member "paths")).members
  return (← paths.mapM doc.endpointsOfItem).flatten

variable {doc : ApiDocument}

/-- An operation belongs to the endpoint that it is made of. -/
def IsOperation (doc : ApiDocument) (e : Endpoint) (op : Operation) : Prop :=
  doc.operation e.path.display e.method e.node e.shared = .ok op

/-- What an operation is put together from: the parameters that are declared for it, its body, its
responses, and what its node says of it. -/
structure Composes (doc : ApiDocument) (path : String) (method : HttpMethod) (node shared : Node)
    (declared : List Parameter) (body : Option Parameter) (op : Operation) : Prop where
  parameters : ∃ own, node.member "parameters" = .ok own ∧
    doc.parameters path shared (orEmptyList own) = .ok declared
  requestBody : doc.bodyParameter? node = .ok body
  responses : ∃ responses, node.member "responses" = .ok responses ∧
    doc.results (orEmptyMap responses) = .ok (op.results, op.errors)
  service : serviceName node path = .ok op.service
  name : operationName node method path = .ok op.name
  summary : ∃ text, node.member "summary" = .ok text ∧ text.comment = .ok op.summary
  description : ∃ text, node.member "description" = .ok text ∧ text.comment = .ok op.description
  deprecated : ∃ flag, node.member "deprecated" = .ok flag ∧ op.deprecated = flag.isBool true
  call : op.method = method ∧ op.path = path
  signature : op.parameters = withBody declared body
  imports : op.imports = distinct
    (op.parameters.flatMap (·.model.imports) ++ op.results.flatMap (·.model.imports))

theorem operation_eq_ok {path : String} {method : HttpMethod} {node shared : Node}
    {op : Operation} : doc.operation path method node shared = .ok op ↔
      ∃ declared body, doc.Composes path method node shared declared body op := by
  constructor
  · intro h
    obtain ⟨own, hown, h⟩ := bind_eq_ok.mp h
    obtain ⟨declared, hdeclared, h⟩ := bind_eq_ok.mp h
    obtain ⟨body, hbody, h⟩ := bind_eq_ok.mp h
    obtain ⟨responses, hresponses, h⟩ := bind_eq_ok.mp h
    obtain ⟨⟨results, errors⟩, hresults, h⟩ := bind_eq_ok.mp h
    obtain ⟨service, hservice, h⟩ := bind_eq_ok.mp h
    obtain ⟨name, hname, h⟩ := bind_eq_ok.mp h
    obtain ⟨_, hsummary, h⟩ := bind_eq_ok.mp h
    obtain ⟨summary, hsummarized, h⟩ := bind_eq_ok.mp h
    obtain ⟨_, hdescription, h⟩ := bind_eq_ok.mp h
    obtain ⟨description, hdescribed, h⟩ := bind_eq_ok.mp h
    obtain ⟨flag, hflag, h⟩ := bind_eq_ok.mp h
    obtain rfl := pure_eq_ok.mp h
    exact ⟨declared, body, {
      parameters := ⟨own, hown, hdeclared⟩
      requestBody := hbody
      responses := ⟨responses, hresponses, hresults⟩
      service := hservice
      name := hname
      summary := ⟨_, hsummary, hsummarized⟩
      description := ⟨_, hdescription, hdescribed⟩
      deprecated := ⟨flag, hflag, rfl⟩
      call := ⟨rfl, rfl⟩
      signature := rfl
      imports := rfl }⟩
  · rintro ⟨declared, body, ⟨own, hown, hdeclared⟩, hbody, ⟨responses, hresponses, hresults⟩,
      hservice, hname, ⟨_, hsummary, hsummarized⟩, ⟨_, hdescription, hdescribed⟩,
      ⟨flag, hflag, hdeprecated⟩, ⟨hmethod, hpath⟩, hsignature, himports⟩
    obtain ⟨service, name, summary, description, deprecated, _, _, parameters, imports, results,
      errors⟩ := op
    dsimp only at hdeprecated hmethod hpath hsignature himports
    subst hdeprecated hmethod hpath hsignature himports
    exact bind_eq_ok.mpr ⟨own, hown, bind_eq_ok.mpr ⟨declared, hdeclared,
      bind_eq_ok.mpr ⟨body, hbody, bind_eq_ok.mpr ⟨responses, hresponses,
        bind_eq_ok.mpr ⟨(results, errors), hresults, bind_eq_ok.mpr ⟨service, hservice,
          bind_eq_ok.mpr ⟨name, hname, bind_eq_ok.mpr ⟨_, hsummary,
            bind_eq_ok.mpr ⟨summary, hsummarized, bind_eq_ok.mpr ⟨_, hdescription,
              bind_eq_ok.mpr ⟨description, hdescribed,
                bind_eq_ok.mpr ⟨flag, hflag, rfl⟩⟩⟩⟩⟩⟩⟩⟩⟩⟩⟩⟩

/-- The response of a table that an operation returns. -/
inductive Chooses (doc : ApiDocument) (table : ResponseTable) : Response → Prop
  | success {code node result} (hs : table.success? = some (code, node))
      (made : doc.response (some code) node = .ok result) : Chooses doc table result
  | default {node result} (hs : table.success? = none) (hd : table.default = some node)
      (made : doc.response none node = .ok result) : Chooses doc table result
  | nothing (hs : table.success? = none) (hd : table.default = none) :
      Chooses doc table (.void none none)

/-- The errors of a table: those of its failures, and that of the default response if a success is
returned. -/
inductive Collects (table : ResponseTable) (failures : List ErrorResponse) :
    List ErrorResponse → Prop
  | failures (h : table.success? = none ∨ table.default = none) : Collects table failures failures
  | default {r node e} (hs : table.success? = some r) (hd : table.default = some node)
      (made : defaultError node = .ok e) : Collects table failures (failures ++ [e])

/-- What the result and the errors of an operation are made of. -/
theorem results_eq_ok {responses : Node} {results : List Response} {errors : List ErrorResponse}
    (h : doc.results responses = .ok (results, errors)) :
    ∃ es table result failures,
      responses.members = .ok es ∧ doc.tabulate {} es = .ok table ∧
      results = [result] ∧ doc.Chooses table result ∧
      (table.failures.mapM fun (code, node) => errorOf code node) = .ok failures ∧
      Collects table failures errors := by
  obtain ⟨es, hes, h⟩ := bind_eq_ok.mp h
  obtain ⟨table, htable, h⟩ := bind_eq_ok.mp h
  cases hs : table.success? with
  | some r =>
    rw [hs] at h
    obtain ⟨result, hresult, h⟩ := bind_eq_ok.mp h
    obtain ⟨failures, hfailures, h⟩ := bind_eq_ok.mp h
    refine ⟨es, table, result, failures, hes, htable, ?_⟩
    cases hd : table.default with
    | none =>
      rw [hd] at h
      obtain ⟨rfl, rfl⟩ := Prod.mk.inj (pure_eq_ok.mp h)
      exact ⟨rfl, .success hs hresult, hfailures, .failures (.inr hd)⟩
    | some node =>
      rw [hd] at h
      obtain ⟨e, he, h⟩ := bind_eq_ok.mp h
      obtain ⟨rfl, rfl⟩ := Prod.mk.inj (pure_eq_ok.mp h)
      exact ⟨rfl, .success hs hresult, hfailures, .default hs hd he⟩
  | none =>
    rw [hs] at h
    cases hd : table.default with
    | none =>
      rw [hd] at h
      obtain ⟨result, hresult, h⟩ := bind_eq_ok.mp h
      obtain ⟨failures, hfailures, h⟩ := bind_eq_ok.mp h
      obtain ⟨rfl, rfl⟩ := Prod.mk.inj (pure_eq_ok.mp h)
      obtain rfl := pure_eq_ok.mp hresult
      exact ⟨es, table, _, _, hes, htable, rfl, .nothing hs hd, hfailures, .failures (.inl hs)⟩
    | some node =>
      rw [hd] at h
      obtain ⟨result, hresult, h⟩ := bind_eq_ok.mp h
      obtain ⟨failures, hfailures, h⟩ := bind_eq_ok.mp h
      obtain ⟨rfl, rfl⟩ := Prod.mk.inj (pure_eq_ok.mp h)
      exact ⟨es, table, _, _, hes, htable, rfl, .default hs hd hresult, hfailures,
        .failures (.inl hs)⟩

theorem forall₂_operationsOfItem {path : Scalar} {shared : Node} {es : Entries}
    {ops : List Operation} (h : doc.operationsOfItem path shared es = .ok ops) :
    List.Forall₂ doc.IsOperation (es.filterMap (Endpoint.ofEntry? path shared)) ops := by
  induction es generalizing ops with
  | nil =>
    obtain rfl := pure_eq_ok.mp h
    exact .nil
  | cons entry rest ih =>
    obtain ⟨key, node⟩ := entry
    unfold operationsOfItem at h
    split at h
    · next heq => cases heq
    · next key' node' rest' heq =>
      obtain ⟨⟨rfl, rfl⟩, rfl⟩ : (key = .str key' ∧ node = node') ∧ rest = rest' := by
        simpa using heq
      split at h
      · next hkey =>
        have hnone : Endpoint.ofEntry? path shared (.str key', node) = none := by
          simp [Endpoint.ofEntry?, Scalar.text?, ← HttpMethod.ofKey?_eq_find?, hkey]
        rw [List.filterMap_cons_none hnone]
        exact ih h
      · next method hkey =>
        have hsome : Endpoint.ofEntry? path shared (.str key', node) =
            some ⟨path, key', method, node, shared⟩ := by
          simp [Endpoint.ofEntry?, Scalar.text?, ← HttpMethod.ofKey?_eq_find?, hkey]
        rw [List.filterMap_cons_some hsome]
        obtain ⟨op, hop, h⟩ := bind_eq_ok.mp h
        split at h
        · obtain ⟨others, hothers, h⟩ := bind_eq_ok.mp h
          obtain rfl := pure_eq_ok.mp h
          exact .cons hop (ih hothers)
        · cases h
    · cases h

theorem forall₂_operationsOfPaths {paths : Entries} {ops : List Operation}
    (h : doc.operationsOfPaths paths = .ok ops) :
    ∃ items, paths.mapM doc.endpointsOfItem = .ok items ∧
      List.Forall₂ doc.IsOperation items.flatten ops := by
  induction paths generalizing ops with
  | nil =>
    obtain rfl := pure_eq_ok.mp h
    exact ⟨[], rfl, .nil⟩
  | cons entry rest ih =>
    obtain ⟨path, raw⟩ := entry
    obtain ⟨item, hitem, h⟩ := bind_eq_ok.mp h
    obtain ⟨parameters, hparameters, h⟩ := bind_eq_ok.mp h
    obtain ⟨es, hes, h⟩ := bind_eq_ok.mp h
    obtain ⟨own, hown, h⟩ := bind_eq_ok.mp h
    obtain ⟨others, hothers, h⟩ := bind_eq_ok.mp h
    obtain rfl := pure_eq_ok.mp h
    obtain ⟨items, hitems, hrest⟩ := ih hothers
    have hfirst : doc.endpointsOfItem (path, raw) =
        .ok (es.filterMap (Endpoint.ofEntry? path (orEmptyList parameters))) :=
      bind_eq_ok.mpr ⟨item, hitem, bind_eq_ok.mpr ⟨parameters, hparameters,
        bind_eq_ok.mpr ⟨es, hes, rfl⟩⟩⟩
    refine ⟨_, mapM_eq_ok.mpr (.cons hfirst (mapM_eq_ok.mp hitems)), ?_⟩
    exact List.rel_append (forall₂_operationsOfItem hown) hrest

/-- The operations of a document are those of its endpoints. -/
theorem forall₂_operations {ops : List Operation} (h : doc.operations = .ok ops) :
    ∃ es, doc.endpoints = .ok es ∧ List.Forall₂ doc.IsOperation es ops := by
  obtain ⟨root, hroot, h⟩ := bind_eq_ok.mp h
  obtain ⟨paths, hpaths, h⟩ := bind_eq_ok.mp h
  obtain ⟨items, hitems, hops⟩ := forall₂_operationsOfPaths h
  refine ⟨items.flatten, ?_, hops⟩
  exact bind_eq_ok.mpr ⟨root, hroot, bind_eq_ok.mpr ⟨paths, hpaths,
    bind_eq_ok.mpr ⟨items, hitems, rfl⟩⟩⟩

/-- Services share out the operations of a document: no endpoint is lost or doubled, each operation
is in the service of its tag or path, and only its name may differ, so that the names in a service
differ. Services stand in the order in which they occur, and import what their operations do. -/
theorem services_share_operations {services : List Service} (h : doc.services = .ok services) :
    ∃ es ops, doc.endpoints = .ok es ∧
      List.Forall₂ (fun e op => doc.operation e.path.display e.method e.node e.shared = .ok op ∧
        serviceName e.node e.path.display = .ok op.service) es ops ∧
      ((services.flatMap (·.operations)).map Operation.unnamed).Perm
        (ops.map Operation.unnamed) ∧
      (services.map (·.name)).Nodup ∧
      (∀ name, name ∈ services.map (·.name) ↔ name ∈ ops.map (·.service)) ∧
      (services.map (·.name)).Pairwise (fun a b =>
        (ops.map (·.service)).idxOf a < (ops.map (·.service)).idxOf b) ∧
      ∀ s ∈ services,
        s.operations.map Operation.unnamed =
          (ops.filter (·.service == s.name)).map Operation.unnamed ∧
        (s.operations.map (·.name)).Nodup ∧ s.imports.Pairwise (· < ·) ∧
        ∀ n, n ∈ s.imports ↔ ∃ op ∈ s.operations, n ∈ op.imports := by
  obtain ⟨ops, hops, h⟩ := bind_eq_ok.mp h
  obtain rfl := pure_eq_ok.mp h
  obtain ⟨es, hes, hmade⟩ := forall₂_operations hops
  refine ⟨es, ops, hes, hmade.imp fun e op hop => ?_, Service.perm_group ops, ?_⟩
  · obtain ⟨_, _, hcomposed⟩ := operation_eq_ok.mp hop
    exact ⟨hop, hcomposed.service⟩
  rw [Service.names_group]
  exact ⟨nodup_distinct _, fun name => mem_distinct, pairwise_distinct _,
    fun s hs => Service.mem_group hs⟩

/-- A value that is no reference stands for itself. -/
theorem dereference_eq_self {es : Entries} (h : es.get? "$ref" = none) :
    doc.dereference (.map es) = .ok (.map es) := by
  have hget : (Node.map es).get? "$ref" = none := h
  unfold dereference Pointer.dereference
  rw [Pointer.chase_eq, hget]

/-- A reference to a map without another reference stands for that map. -/
theorem dereference_eq_target {es : Entries} {ref : String} {target : Node}
    (hr : Entries.get? es "$ref" = some (.str ref)) (ht : doc.resolve ref = .ok target)
    (hmap : target.isMap) (hend : target.get? "$ref" = none) :
    doc.dereference (.map es) = .ok target := by
  have hget : (Node.map es).get? "$ref" = some (.str ref) := hr
  have hmem : ref ∈ Pointer.references (.map es) :=
    Pointer.mem_references_map.mpr ⟨_, Entries.mem_of_get? hr, .inl rfl⟩
  unfold dereference Pointer.dereference
  rw [Pointer.chase_eq, hget]
  dsimp only
  rw [if_pos (by simp [hmem])]
  refine bind_eq_ok.mpr ⟨target, ht, ?_⟩
  rw [if_pos hmap, Pointer.chase_eq, hend]

theorem parameters_nil (path : String) : doc.parameters path (.list []) (.list []) = .ok [] := by
  have hsorted : doc.parameters path (.list []) (.list []) =
      .ok (List.mergeSort [] (precedes path)) := rfl
  rw [hsorted, List.mergeSort_nil]

/-- An operation without responses gives nothing. -/
theorem results_nil : doc.results (.map []) = .ok ([Response.void none none], []) := by
  have hsuccess : ResponseTable.success? {} = none := by simp [ResponseTable.success?]
  have hfailures : ResponseTable.failures {} = [] := by simp [ResponseTable.failures]
  refine bind_eq_ok.mpr ⟨[], rfl, bind_eq_ok.mpr ⟨{}, rfl, ?_⟩⟩
  rw [hsuccess, hfailures]
  rfl

/-- The operations of a document with one path. -/
theorem operations_of_item {path : String} {raw : Node} {es : Entries} {ops : List Operation}
    (hpaths : doc.root.member "paths" = .ok (.map [(.str path, raw)]))
    (hraw : doc.dereference raw = .ok (.map es)) (hshared : Entries.get? es "parameters" = none)
    (hops : doc.operationsOfItem (.str path) (.list []) es = .ok ops) :
    doc.operations = .ok ops := by
  have hmember : (Node.map es).member "parameters" = .ok .null := by
    rw [Node.member, hshared, Option.getD_none]
  have hitem : doc.operationsOfPaths [(.str path, raw)] = .ok (ops ++ []) :=
    bind_eq_ok.mpr ⟨_, hraw, bind_eq_ok.mpr ⟨_, hmember,
      bind_eq_ok.mpr ⟨es, rfl, bind_eq_ok.mpr ⟨ops, hops, rfl⟩⟩⟩⟩
  rw [List.append_nil] at hitem
  exact bind_eq_ok.mpr ⟨_, hpaths, bind_eq_ok.mpr ⟨_, rfl, hitem⟩⟩

/-- The operations of a document with one path, whose item refers to no other. -/
theorem operations_of_path {path : String} {es : Entries} {ops : List Operation}
    (hpaths : doc.root.member "paths" = .ok (.map [(.str path, .map es)]))
    (href : Entries.get? es "$ref" = none) (hshared : Entries.get? es "parameters" = none)
    (hops : doc.operationsOfItem (.str path) (.list []) es = .ok ops) :
    doc.operations = .ok ops := operations_of_item hpaths (dereference_eq_self href) hshared hops

namespace PetListing

def listing : Node := .map [(.str "tags", .list [.str "pets"]), (.str "operationId", .str "list")]

def item : Node :=
  .map [(.str "get", listing), (.str "POST", listing), (.str "summary", .str "Pets")]

def document : ApiDocument where
  dialect := .openApi3
  root := .map [(.str "paths", .map [(.str "/pets", item)])]
  schemas := []

def operation (method : HttpMethod) : Operation :=
  { service := "PetsService", name := "list", method, path := "/pets",
    results := [Response.void none none] }

def services : List Service :=
  [{ name := "PetsService",
     operations := [operation .get, { operation .post with name := "list2" }] }]

theorem operation_listing (method : HttpMethod) :
    document.operation "/pets" method listing (.list []) = .ok (operation method) := by
  have hservice : serviceName listing "/pets" = .ok "PetsService" := by
    have hclass : Naming.serviceClassName "pets" = "PetsService" := by decide +kernel
    rw [← hclass]
    rfl
  have hname : operationName listing method "/pets" = .ok "list" := by
    have hmember : Naming.operationName "list" = "list" := by decide +kernel
    exact bind_eq_ok.mpr ⟨.str "list", rfl, pure_eq_ok.mpr hmember⟩
  exact bind_eq_ok.mpr ⟨.null, rfl, bind_eq_ok.mpr ⟨[], parameters_nil _, bind_eq_ok.mpr ⟨none, rfl,
    bind_eq_ok.mpr ⟨.null, rfl, bind_eq_ok.mpr ⟨_, results_nil, bind_eq_ok.mpr ⟨_, hservice,
      bind_eq_ok.mpr ⟨_, hname, rfl⟩⟩⟩⟩⟩⟩⟩

theorem services_document : document.services = .ok services := by
  have hget : HttpMethod.ofKey? "get" = some .get := by decide
  have hpost : HttpMethod.ofKey? "POST" = some .post := by decide
  have hsummary : HttpMethod.ofKey? "summary" = none := by decide
  have hitem : document.operationsOfItem (.str "/pets") (.list []) item.entries =
      .ok [operation .get, operation .post] := by
    simp only [item, Node.entries, operationsOfItem, hget, hpost, hsummary]
    exact bind_eq_ok.mpr ⟨_, operation_listing .get, bind_eq_ok.mpr ⟨[operation .post],
      bind_eq_ok.mpr ⟨_, operation_listing .post, rfl⟩, rfl⟩⟩
  have hoperations : document.operations = .ok [operation .get, operation .post] :=
    operations_of_path rfl rfl rfl hitem
  have hgroup : Service.group [operation .get, operation .post] = services := by
    have hfirst : Naming.fresh [] "list" "" = "list" := by decide
    have hsecond : Naming.fresh ["list"] "list" "" = "list2" := by decide
    simp [Service.group, Service.ofOperations, Service.renameClashes, sortNames, operation,
      distinct, distinct.go, hfirst, hsecond, services]
  exact bind_eq_ok.mpr ⟨_, hoperations, pure_eq_ok.mpr hgroup⟩

/-- Two methods of one path with one identifier become two operations of one service. -/
theorem services_listing : document.services = .ok services ∧
    (["list", "list2"] : List String).Nodup ∧
    ∃ es, document.endpoints = .ok es ∧ es.length = 2 := by
  obtain ⟨es, ops, hes, hmade, hperm, -, -, -, hwithin⟩ :=
    services_share_operations services_document
  refine ⟨services_document, (hwithin _ List.mem_cons_self).2.1, es, hes, ?_⟩
  rw [hmade.length_eq]
  simpa [services] using hperm.length_eq.symm

end PetListing

end ApiDocument

end ClientGen
