import ClientGen.Proofs.Api.ReferenceClosure
import ClientGen.Proofs.Naming.Identifiers

/-! The names of classes and methods: which texts they are made of, and when they are
identifiers. -/

namespace ClientGen

namespace Service

/-- A renamed operation is one of those before, but for a number at the end of its name. -/
theorem exists_of_mem_renameClashes {taken : List String} {ops : List Operation} {op : Operation}
    (h : op ∈ renameClashes taken ops) :
    ∃ own ∈ ops, ∃ k, op = { own with name := Naming.numbered own.name "" k } := by
  induction ops generalizing taken with
  | nil => exact absurd h List.not_mem_nil
  | cons first rest ih =>
    obtain ⟨k, hk⟩ := Naming.exists_fresh_eq taken first.name ""
    rcases List.mem_cons.mp h with heq | h
    · exact ⟨first, List.mem_cons_self, k, hk ▸ heq⟩
    · obtain ⟨own, hown, hop⟩ := ih h
      exact ⟨own, List.mem_cons_of_mem _ hown, hop⟩

/-- A service has operations, all of them called by its name. -/
theorem operations_of_mem_group {ops : List Operation} {s : Service} (h : s ∈ group ops) :
    s.operations ≠ [] ∧ ∀ op ∈ s.operations, ∃ own ∈ ops, own.service = s.name ∧
      ∃ k, op = { own with name := Naming.numbered own.name "" k } := by
  obtain ⟨name, hname, rfl⟩ := List.mem_map.mp h
  constructor
  · intro hnil
    obtain ⟨own, hown, hservice⟩ := List.mem_map.mp (mem_distinct.mp hname)
    have hmem : own ∈ ops.filter (·.service == name) := List.mem_filter.mpr ⟨hown, by simpa⟩
    have hunnamed := unnamed_renameClashes [] (ops.filter (·.service == name))
    have hempty : renameClashes [] (ops.filter (·.service == name)) = [] := hnil
    rw [hempty, List.map_nil] at hunnamed
    rw [List.map_eq_nil_iff.mp hunnamed.symm] at hmem
    exact absurd hmem List.not_mem_nil
  · intro op hop
    obtain ⟨own, hown, hk⟩ := exists_of_mem_renameClashes hop
    obtain ⟨hmem, hservice⟩ := List.mem_filter.mp hown
    exact ⟨own, hmem, beq_iff_eq.mp hservice, hk⟩

end Service

namespace ApiDocument

/-- The first tag of an operation, unless it is blank. -/
def firstTag? (operation : Node) : Option String :=
  match operation.get? "tags" with
  | some (.list (tag :: _)) => if Text.isBlank tag.display.toList then none else some tag.display
  | _ => none

/-- The text that the class of an operation is named for: its tag, else a segment of its path. -/
def classText (operation : Node) (path : String) : String :=
  (firstTag? operation).getD (((firstSegment? path).map String.ofList).getD defaultService)

/-- The identifier that an operation has in the document, unless it is empty. -/
def operationId? (operation : Node) : Option String :=
  ((operation.get? "operationId").bind Node.text?).filter (· ≠ "")

/-- The text that the method of an operation is named for: its identifier, else its call. -/
def methodText (operation : Node) (method : HttpMethod) (path : String) : String :=
  (operationId? operation).getD (method.name ++ "-" ++ path)

/-- A class is named for the tag of an operation, else for its path. -/
theorem serviceName_eq_ok {operation : Node} {path name : String}
    (h : serviceName operation path = .ok name) :
    name = Naming.serviceClassName (classText operation path) := by
  obtain ⟨tags, htags, h⟩ := bind_eq_ok.mp h
  cases operation with
  | scalar s => cases htags
  | list items => cases htags
  | map es =>
    obtain rfl := Except.ok.inj htags
    have hget : (Node.map es).get? "tags" = Entries.get? es "tags" := rfl
    unfold classText firstTag?
    rw [hget]
    cases hes : Entries.get? es "tags" with
    | none =>
      rw [hes] at h
      exact (pure_eq_ok.mp h).symm
    | some tags =>
      rw [hes, Option.getD_some] at h
      cases tags with
      | scalar s => exact (pure_eq_ok.mp h).symm
      | map entries => exact (pure_eq_ok.mp h).symm
      | list items =>
        cases items with
        | nil => exact (pure_eq_ok.mp h).symm
        | cons tag more =>
          obtain ⟨text, htext, h⟩ := bind_eq_ok.mp h
          obtain ⟨-, rfl⟩ := Node.shown_eq_ok.mp htext
          dsimp only
          split_ifs at h ⊢ <;> exact (pure_eq_ok.mp h).symm

/-- Where a text has to stand, a text that is not empty does, or else the one in its place. -/
theorem str_of_orElse {node : Node} {other s : String} (h : node.orElse (.str other) = .str s) :
    s = (node.text?.filter (· ≠ "")).getD other := by
  have hstr (t : String) : (Node.str t).isPresent = (t != "") := rfl
  unfold Node.orElse at h
  split_ifs at h with hpresent
  · subst h
    have hne : s ≠ "" := by simpa [hstr] using hpresent
    have hkept : (Node.str s).text?.filter (· ≠ "") = some s :=
      Option.filter_eq_some_iff.mpr ⟨rfl, by simpa using hne⟩
    rw [hkept, Option.getD_some]
  · have habsent : node.text?.filter (· ≠ "") = none := by
      refine Option.filter_eq_none_iff.mpr fun t ht => ?_
      have hnode : node = .str t := by
        cases node with
        | list items => cases ht
        | map es => cases ht
        | scalar value =>
          cases value with
          | str u => exact congrArg Node.str (Option.some.inj ht)
          | _ => cases ht
      rw [hnode, hstr] at hpresent
      simpa using hpresent
    rw [habsent]
    simpa using h.symm

/-- A method is named for the identifier of an operation, else for its call. -/
theorem operationName_eq_ok {operation : Node} {method : HttpMethod} {path name : String}
    (h : operationName operation method path = .ok name) :
    name = Naming.operationName (methodText operation method path) := by
  obtain ⟨value, hvalue, h⟩ := bind_eq_ok.mp h
  have hid : operationId? operation = value.text?.filter (· ≠ "") := by
    cases operation with
    | scalar s => cases hvalue
    | list items => cases hvalue
    | map es =>
      obtain rfl := Except.ok.inj hvalue
      have hget : (Node.map es).get? "operationId" = Entries.get? es "operationId" := rfl
      unfold operationId?
      rw [hget]
      cases Entries.get? es "operationId" <;> rfl
  split at h
  · next s hs =>
    rw [methodText, hid, ← str_of_orElse hs]
    exact (pure_eq_ok.mp h).symm
  · cases h

variable {doc : ApiDocument}

/-- What an operation and its service are called. -/
theorem called_of_operation {path : String} {method : HttpMethod} {node shared : Node}
    {op : Operation} (h : doc.operation path method node shared = .ok op) :
    op.service = Naming.serviceClassName (classText node path) ∧
      op.name = Naming.operationName (methodText node method path) := by
  obtain ⟨_, _, hcomposed⟩ := operation_eq_ok.mp h
  exact ⟨serviceName_eq_ok hcomposed.service, operationName_eq_ok hcomposed.name⟩

/-- The method and the path of a call have a letter, as the method has one. -/
theorem any_isAlpha_call (method : HttpMethod) (path : String) :
    (method.name ++ "-" ++ path).toList.any Char.isAlpha := by
  have hmethod : method.name.toList.any Char.isAlpha := by cases method <;> decide
  rw [String.toList_append, String.toList_append, List.any_append, List.any_append, hmethod]
  rfl

/-- A method is named by an identifier unless it has an identifier without a letter. -/
theorem isIdentifier_methodText_iff (operation : Node) (method : HttpMethod) (path : String) :
    IsIdentifier (Naming.operationName (methodText operation method path)) ↔
      ∀ id, operationId? operation = some id → id.toList.any Char.isAlpha := by
  rw [Naming.isIdentifier_operationName_iff, methodText]
  cases operationId? operation with
  | none => simpa using any_isAlpha_call method path
  | some id => simp

/-- A service has operations, each of which is made of an endpoint and called by the service. -/
theorem operations_of_service {services : List Service} (h : doc.services = .ok services)
    {s : Service} (hs : s ∈ services) :
    s.operations ≠ [] ∧ ∀ op ∈ s.operations, ∃ e own, doc.HasEndpoint e ∧ doc.IsOperation e own ∧
      own.service = s.name ∧ ∃ k, op = { own with name := Naming.numbered own.name "" k } := by
  obtain ⟨ops, hops, h⟩ := bind_eq_ok.mp h
  obtain rfl := pure_eq_ok.mp h
  obtain ⟨es, hes, hmade⟩ := forall₂_operations hops
  obtain ⟨hne, hheld⟩ := Service.operations_of_mem_group hs
  refine ⟨hne, fun op hop => ?_⟩
  obtain ⟨own, hown, hservice, hk⟩ := hheld op hop
  obtain ⟨e, he, hoperation⟩ := (exists_mem_of_forall₂ hmade).2 own hown
  exact ⟨e, own, ⟨es, hes, he⟩, hoperation, hservice, hk⟩

/-- A service is named as the class of some text. -/
theorem class_of_service {services : List Service} (h : doc.services = .ok services) {s : Service}
    (hs : s ∈ services) : ∃ text, s.name = Naming.serviceClassName text := by
  obtain ⟨hne, hoperations⟩ := operations_of_service h hs
  obtain ⟨op, hop⟩ := List.exists_mem_of_ne_nil _ hne
  obtain ⟨e, own, -, hown, hservice, -⟩ := hoperations op hop
  exact ⟨_, hservice.symm.trans (called_of_operation hown).1⟩

/-- A client has the models and the services of its document. -/
theorem parts_of_client {client : Client} (h : doc.client = .ok client) :
    doc.models = .ok client.models ∧ doc.services = .ok client.services := by
  obtain ⟨models, hmodels, h⟩ := bind_eq_ok.mp h
  obtain ⟨services, hservices, h⟩ := bind_eq_ok.mp h
  obtain ⟨_, -, h⟩ := bind_eq_ok.mp h
  obtain ⟨_, -, h⟩ := bind_eq_ok.mp h
  obtain rfl := pure_eq_ok.mp h
  exact ⟨hmodels, hservices⟩

/-- A service has operations, and is named for the first tag of each one, else for the first segment
of its path. This name is that of a class exactly if the first letter or digit of the tag or segment
is a letter. An operation is named for its identifier, else for its method and path, but for a
number; this name is an identifier exactly if the identifier that it is named for has a letter. -/
theorem names_of_client {client : Client} (h : doc.client = .ok client) :
    ∀ s ∈ client.services, s.operations ≠ [] ∧ ∀ op ∈ s.operations, ∃ e own,
      doc.HasEndpoint e ∧ doc.IsOperation e own ∧ op.unnamed = own.unnamed ∧
      s.name = Naming.serviceClassName (classText e.node e.path.display) ∧
      (IsClassName s.name ↔ Naming.startsWithLetter (classText e.node e.path.display)) ∧
      (∃ k, op.name = Naming.numbered
        (Naming.operationName (methodText e.node e.method e.path.display)) "" k) ∧
      (IsIdentifier op.name ↔
        ∀ id, operationId? e.node = some id → id.toList.any Char.isAlpha) := by
  intro s hs
  obtain ⟨hne, hoperations⟩ := operations_of_service (parts_of_client h).2 hs
  refine ⟨hne, fun op hop => ?_⟩
  obtain ⟨e, own, he, hown, hservice, k, rfl⟩ := hoperations op hop
  obtain ⟨hclass, hname⟩ := called_of_operation hown
  rw [hservice] at hclass
  refine ⟨e, own, he, hown, rfl, hclass, ?_, ⟨k, ?_⟩, ?_⟩
  · rw [hclass]
    exact Naming.isClassName_serviceClassName_iff _
  · rw [← hname]
  · rw [Naming.isIdentifier_numbered_iff, hname]
    exact isIdentifier_methodText_iff _ _ _

theorem PetStore.names_store : PetStore.document.client = .ok PetStore.client ∧
    IsClassName "PetsService" ∧ IsIdentifier "getPets" ∧
    ∃ e, PetStore.document.HasEndpoint e ∧
      "PetsService" = Naming.serviceClassName (classText e.node e.path.display) ∧
      Naming.startsWithLetter (classText e.node e.path.display) ∧
      ∀ id, operationId? e.node = some id → id.toList.any Char.isAlpha := by
  have hclass : IsClassName "PetsService" := by decide
  have hmethod : IsIdentifier "getPets" := by decide
  obtain ⟨-, hoperations⟩ := names_of_client PetStore.client_document _ List.mem_cons_self
  obtain ⟨e, _, he, -, -, hname, hletter, -, hid⟩ := hoperations _ List.mem_cons_self
  exact ⟨PetStore.client_document, hclass, hmethod, e, he, hname, hletter.mp hclass,
    hid.mp hmethod⟩

/-- The keys of what an operation may say beside how it is called. -/
def detailKeys : List String :=
  ["parameters", "requestBody", "responses", "summary", "description", "deprecated"]

/-- An operation that says only how it is called. -/
theorem operation_of_call {es : Entries} {path service name : String} {method : HttpMethod}
    (hdialect : doc.dialect = .openApi3) (hes : ∀ key ∈ detailKeys, Entries.get? es key = none)
    (hservice : serviceName (.map es) path = .ok service)
    (hname : operationName (.map es) method path = .ok name) :
    doc.operation path method (.map es) (.list []) =
      .ok { service, name, method, path, results := [Response.void none none] } := by
  have hmember : ∀ key ∈ detailKeys, (Node.map es).member key = .ok .null := by
    intro key hkey
    rw [Node.member, hes key hkey, Option.getD_none]
  simp only [detailKeys, List.forall_mem_cons] at hmember
  obtain ⟨hparameters, hbody, hresponses, hsummary, hdescription, hdeprecated, -⟩ := hmember
  have hnobody : doc.bodyParameter? (.map es) = .ok none := by
    unfold bodyParameter?
    rw [hdialect]
    exact bind_eq_ok.mpr ⟨_, hbody, rfl⟩
  exact operation_eq_ok.mpr ⟨[], none, {
    parameters := ⟨_, hparameters, parameters_nil path⟩
    requestBody := hnobody
    responses := ⟨_, hresponses, results_nil⟩
    service := hservice
    name := hname
    summary := ⟨_, hsummary, rfl⟩
    description := ⟨_, hdescription, rfl⟩
    deprecated := ⟨_, hdeprecated, rfl⟩
    call := ⟨rfl, rfl⟩
    signature := rfl
    imports := rfl }⟩

namespace PetCheck

def adopt : Entries := [(.str "tags", .list [.str "猫"]), (.str "operationId", .str "123")]

def check : Entries := [(.str "tags", .list [.str "2fa"])]

def item : Node := .map [(.str "get", .map adopt), (.str "post", .map check)]

def document : ApiDocument where
  dialect := .openApi3
  root := .map [(.str "paths", .map [(.str "/pets", item)])]
  schemas := []

def adoption : Operation :=
  { service := "", name := "", method := .get, path := "/pets",
    results := [Response.void none none] }

def checking : Operation :=
  { service := "2faService", name := "postPets", method := .post, path := "/pets",
    results := [Response.void none none] }

def client : Client :=
  { services := [{ name := "", operations := [adoption] },
      { name := "2faService", operations := [checking] }] }

theorem operation_adopt :
    document.operation "/pets" .get (.map adopt) (.list []) = .ok adoption := by
  have hname : operationName (.map adopt) .get "/pets" = .ok "" := by
    have hmember : Naming.operationName "123" = "" := by decide +kernel
    exact bind_eq_ok.mpr ⟨.str "123", rfl, pure_eq_ok.mpr hmember⟩
  have hservice : serviceName (.map adopt) "/pets" = .ok "" := by
    have hclass : Naming.serviceClassName "猫" = "" := by
      rw [Naming.serviceClassName_eq]
      decide +kernel
    rw [← hclass]
    rfl
  exact operation_of_call rfl (by decide) hservice hname

theorem operation_check :
    document.operation "/pets" .post (.map check) (.list []) = .ok checking := by
  have hname : operationName (.map check) .post "/pets" = .ok "postPets" := by
    have hmember : Naming.operationName "post-/pets" = "postPets" := by decide +kernel
    exact bind_eq_ok.mpr ⟨.null, rfl, pure_eq_ok.mpr hmember⟩
  have hservice : serviceName (.map check) "/pets" = .ok "2faService" := by
    have hclass : Naming.serviceClassName "2fa" = "2faService" := by decide +kernel
    rw [← hclass]
    rfl
  exact operation_of_call rfl (by decide) hservice hname

theorem services_document : document.services = .ok client.services := by
  have hget : HttpMethod.ofKey? "get" = some .get := by decide
  have hpost : HttpMethod.ofKey? "post" = some .post := by decide
  have hitem : document.operationsOfItem (.str "/pets") (.list []) item.entries =
      .ok [adoption, checking] := by
    simp only [item, Node.entries, operationsOfItem, hget, hpost]
    exact bind_eq_ok.mpr ⟨_, operation_adopt, bind_eq_ok.mpr ⟨[checking],
      bind_eq_ok.mpr ⟨_, operation_check, rfl⟩, rfl⟩⟩
  have hoperations : document.operations = .ok [adoption, checking] :=
    operations_of_path rfl rfl rfl hitem
  have hgroup : Service.group [adoption, checking] = client.services := by
    have hfirst : Naming.fresh [] "" "" = "" := by decide
    have hsecond : Naming.fresh [] "postPets" "" = "postPets" := by decide
    simp [Service.group, Service.ofOperations, Service.renameClashes, sortNames, adoption, checking,
      distinct, distinct.go, hfirst, hsecond, client]
  exact bind_eq_ok.mpr ⟨_, hoperations, pure_eq_ok.mpr hgroup⟩

/-- A tag without ASCII letters and digits leaves a class without a name, and so does an identifier
without a letter a method; a tag that starts with a digit gives a class that does too. -/
theorem names_check : ofRoot .openApi3 document.root = .ok document ∧
    document.client = .ok client ∧
    client.services.map (·.name) = ["", "2faService"] ∧
    client.services.flatMap (fun s => s.operations.map (·.name)) = ["", "postPets"] ∧
    (∀ s ∈ client.services, ¬ IsClassName s.name) ∧
    ¬ ∀ s ∈ client.services, ∀ op ∈ s.operations, IsIdentifier op.name := by
  have hclient : document.client = .ok client :=
    bind_eq_ok.mpr ⟨[], rfl, bind_eq_ok.mpr ⟨_, services_document,
      bind_eq_ok.mpr ⟨"", rfl, bind_eq_ok.mpr ⟨"1.0", rfl, rfl⟩⟩⟩⟩
  refine ⟨rfl, hclient, rfl, rfl, by decide, ?_⟩
  intro h
  have hadoption : IsIdentifier "" := h _ List.mem_cons_self _ List.mem_cons_self
  exact not_isIdentifier_empty hadoption

end PetCheck

end ApiDocument

end ClientGen
