import ClientGen.Proofs.Api.NamedModels
import ClientGen.Proofs.Api.ReorderedOperations
import ClientGen.Proofs.Api.ServiceNames

/-! The order of the named schemas does not matter for the services of a client, and of its models
it changes the order only. -/

namespace ClientGen

namespace ApiDocument

theorem orEmptyMap_map (es : Entries) : orEmptyMap (.map es) = .map es := by
  cases es <;> rfl

/-- The entries of a member that may be absent. -/
theorem paths_of_members {v : Option Node} {es : Entries}
    (h : (orEmptyMap (v.getD .null)).members = .ok es) : es = [] ∨ v = some (.map es) := by
  unfold orEmptyMap Node.orElse at h
  split at h
  · cases v with
    | none => cases h
    | some node =>
      cases node with
      | map fs =>
        obtain rfl := Except.ok.inj h
        exact .inr rfl
      | _ => cases h
  · exact .inl (Except.ok.inj h).symm

end ApiDocument

/-- The keys that lead to the named schemas of a document. -/
def Dialect.schemasPlace : Dialect → List String
  | .swagger2 => ["definitions"]
  | .openApi3 => ["components", "schemas"]

/-- A way of at least one step along the way to the named schemas. -/
theorem Dialect.schemasPlace_eq_append {dialect : Dialect} {segments rest : List String}
    (h : dialect.schemasPlace = segments ++ rest) (hne : segments ≠ []) :
    rest = [] ∧ segments = dialect.schemasPlace ∨ rest = ["schemas"] := by
  cases dialect with
  | swagger2 =>
    obtain ⟨rfl, rfl⟩ := (List.append_eq_singleton_iff.mp h.symm).resolve_left fun hs => hne hs.1
    exact .inl ⟨rfl, rfl⟩
  | openApi3 =>
    obtain ⟨first, others, rfl⟩ := List.exists_cons_of_ne_nil hne
    obtain ⟨rfl, htail⟩ := List.cons.inj h
    rcases List.append_eq_singleton_iff.mp htail.symm with ⟨rfl, rfl⟩ | ⟨rfl, rfl⟩
    · exact .inr rfl
    · exact .inl ⟨rfl, rfl⟩

/-- Two documents that differ in the order of their named schemas only, and the named schemas of
both. The models of these have different names. -/
structure ReorderedSchemas (dialect : Dialect) (ds es : Entries) (root other : Node) : Prop where
  replaced : Node.ReplacedAt ds es dialect.schemasPlace root other
  perm : ds.Perm es
  names : (ds.map fun e => ApiDocument.modelName dialect e.1).Nodup

namespace ReorderedSchemas

open ApiDocument

variable {dialect : Dialect} {ds es : Entries} {root other : Node}
  (h : ReorderedSchemas dialect ds es root other)
include h

theorem nodup_keys : (ds.map Prod.fst).Nodup := by
  refine List.Nodup.of_map (modelName dialect) ?_
  rw [List.map_map]
  exact h.names

theorem get? (key : String) : ds.get? key = es.get? key :=
  Entries.get?_perm h.perm h.nodup_keys key

/-- What a reference leads to is alike in both documents; and it is the same, or the map that holds
the named schemas, unless it is the map of the named schemas itself. -/
theorem of_counterparts {ref : String} {a b : Node}
    (hab : Pointer.Counterparts ds es dialect.schemasPlace ref a b) :
    a.Alike b ∧ (Pointer.segments? ref ≠ some dialect.schemasPlace →
      a = b ∨ Node.ReplacedAt ds es ["schemas"] a b) := by
  rcases hab with rfl | ⟨segments, rest, hsegments, hplace, hrest⟩
  · exact ⟨.same a, fun _ => .inl rfl⟩
  have hstep := Dialect.schemasPlace_eq_append hplace (Pointer.segments?_ne_nil hsegments)
  refine ⟨hrest.alike h.perm h.nodup_keys (hstep.imp_left And.left), fun hne => .inr ?_⟩
  obtain rfl := hstep.resolve_left fun hs => hne (hs.2 ▸ hsegments)
  exact hrest

theorem reordered :
    (⟨dialect, root, ds⟩ : ApiDocument).Reordered ⟨dialect, other, es⟩ where
  dialect := rfl
  named := fun _ => h.get? _
  references := h.replaced.mem_references h.perm
  resolve := fun ref => (Pointer.related_resolve h.get? h.replaced ref).imp fun _ _ hab =>
    (h.of_counterparts hab).1

/-- The documents agree in their own members apart from the way to the named schemas. -/
theorem root_get? {key : String} (hkey : key ∉ dialect.schemasPlace) :
    root.isMap ∧ other.isMap ∧ root.get? key = other.get? key := by
  have hreplaced := h.replaced
  generalize dialect.schemasPlace = place at hreplaced hkey
  cases hreplaced with
  | here => exact ⟨rfl, rfl, h.get? key⟩
  | under =>
    have hne := List.ne_of_not_mem_cons hkey
    refine ⟨rfl, rfl, ?_⟩
    exact (Entries.get?_append_cons_ne hne).trans (Entries.get?_append_cons_ne hne).symm

theorem root_member {key : String} (hkey : key ∉ dialect.schemasPlace) :
    root.member key = other.member key := by
  obtain ⟨hroot, hother, hget⟩ := h.root_get? hkey
  rw [Node.member_eq_ok hroot, Node.member_eq_ok hother, hget]

theorem ofRoot_eq : ofRoot dialect root = .ok ⟨dialect, root, ds⟩ ∧
    ofRoot dialect other = .ok ⟨dialect, other, es⟩ := by
  have hreplaced := h.replaced
  unfold ofRoot schemasNode
  cases dialect with
  | swagger2 =>
    cases hreplaced with | under _ hkey hmap =>
    cases hmap with | here =>
    simp only [Node.member, Entries.get?_append_cons_self hkey, ok_bind, Option.getD_some,
      orEmptyMap_map]
    exact ⟨rfl, rfl⟩
  | openApi3 =>
    cases hreplaced with | under _ hkey hmap =>
    cases hmap with | under _ hinner hmap =>
    cases hmap with | here =>
    simp only [Node.member, Entries.get?_append_cons_self hkey,
      Entries.get?_append_cons_self hinner, ok_bind, Option.getD_some, orEmptyMap_map]
    exact ⟨rfl, rfl⟩

theorem models_perm :
    (∃ e f, models ⟨dialect, root, ds⟩ = .error e ∧ models ⟨dialect, other, es⟩ = .error f) ∨
    ∃ ms ns, models ⟨dialect, root, ds⟩ = .ok ms ∧ models ⟨dialect, other, es⟩ = .ok ns ∧
      ms.Perm ns := by
  have hperm : (declarations ⟨dialect, root, ds⟩).Perm (declarations ⟨dialect, other, es⟩) :=
    h.perm.map _
  have hnames : ((declarations ⟨dialect, root, ds⟩).map (·.name)).Nodup := by
    simpa [declarations, Function.comp_def] using h.names
  have hothers : ((declarations ⟨dialect, other, es⟩).map (·.name)).Nodup :=
    (hperm.map _).nodup_iff.mp hnames
  by_cases hall : ∀ d ∈ declarations ⟨dialect, root, ds⟩, d.key.hasText
  · have hother : ∀ d ∈ declarations ⟨dialect, other, es⟩, d.key.hasText :=
      fun d hd => hall d (hperm.mem_iff.mpr hd)
    rw [models_of_readable hall, models_of_readable hother,
      keepFirst_eq_self hnames (by simp), keepFirst_eq_self hothers (by simp)]
    simp only [← h.reordered.model (.same _)]
    exact mapM_perm _ hperm
  · have hother : ¬ ∀ d ∈ declarations ⟨dialect, other, es⟩, d.key.hasText :=
      fun hes => hall fun d hd => hes d (hperm.mem_iff.mp hd)
    obtain ⟨e, he⟩ := error_of_not_ok fun models hm => hall (models_eq_ok.mp hm).1
    obtain ⟨f, hf⟩ := error_of_not_ok fun models hm => hother (models_eq_ok.mp hm).1
    exact .inl ⟨e, f, he, hf⟩

theorem server_eq : server ⟨dialect, root, ds⟩ = server ⟨dialect, other, es⟩ := by
  unfold server
  cases dialect with
  | swagger2 =>
    unfold swaggerServer
    rw [h.root_member (by decide), h.root_member (by decide), h.root_member (by decide)]
  | openApi3 =>
    unfold openApiServer
    rw [h.root_member (by decide)]

theorem version_eq : version ⟨dialect, root, ds⟩ = version ⟨dialect, other, es⟩ := by
  have hkey : "info" ∉ dialect.schemasPlace := by cases dialect <;> decide
  unfold version
  rw [h.root_member hkey]

variable (hpaths : ∀ paths, root.get? "paths" = some (.map paths) → ∀ e ∈ paths,
  ∀ ref, Pointer.EndsAt root e.2 ref → Pointer.segments? ref ≠ some dialect.schemasPlace)
include hpaths

theorem operations_eq : operations ⟨dialect, root, ds⟩ = operations ⟨dialect, other, es⟩ := by
  have hkey : "paths" ∉ dialect.schemasPlace := by cases dialect <;> decide
  obtain ⟨hroot, -⟩ := h.root_get? hkey
  -- A document without paths has none to differ in.
  have hsame {paths : Entries} (hp : paths = [] ∨ root.get? "paths" = some (.map paths)) :
      operationsOfPaths ⟨dialect, root, ds⟩ paths =
        operationsOfPaths ⟨dialect, other, es⟩ paths := by
    rcases hp with rfl | hp
    · rfl
    have hitems : ∀ e ∈ paths, Related (fun x y => x = y ∨ Node.ReplacedAt ds es ["schemas"] x y)
        (Pointer.dereference root e.2) (Pointer.dereference other e.2) := by
      intro e he
      have hitem := Pointer.related_dereference (Pointer.related_resolve h.get? h.replaced)
        (fun hab => (h.of_counterparts hab).1) (h.replaced.mem_references h.perm) e.2
      refine hitem.imp fun x y hxy => ?_
      rcases hxy with rfl | ⟨ref, hends, hxy⟩
      · exact .inl rfl
      · exact (h.of_counterparts hxy).2 (hpaths paths hp e he ref hends)
    exact h.reordered.operationsOfPaths hitems
  unfold operations
  rw [← h.root_member hkey, Node.member_eq_ok hroot, ok_bind, ok_bind]
  cases hmembers : (orEmptyMap ((root.get? "paths").getD .null)).members with
  | error e => rw [error_bind, error_bind]
  | ok paths =>
    rw [ok_bind, ok_bind]
    exact hsame (paths_of_members hmembers)

theorem services_eq : services ⟨dialect, root, ds⟩ = services ⟨dialect, other, es⟩ := by
  unfold services
  rw [h.operations_eq hpaths]

/-- The order of the named schemas does not matter. Either both documents have no client, or both
have one, with the same server, version and services and with the same models in some order. In the
item of a path the order of entries does matter, so no path may refer to the map of the named
schemas as its item. -/
theorem client_of_reordered :
    (∃ e f, (ofRoot dialect root >>= client) = .error e ∧
      (ofRoot dialect other >>= client) = .error f) ∨
    ∃ c d, (ofRoot dialect root >>= client) = .ok c ∧ (ofRoot dialect other >>= client) = .ok d ∧
      c.server = d.server ∧ c.version = d.version ∧ c.services = d.services ∧
      c.models.Perm d.models := by
  obtain ⟨hroot, hother⟩ := h.ofRoot_eq
  rw [hroot, hother, ok_bind, ok_bind]
  unfold client
  rcases h.models_perm with ⟨e, f, he, hf⟩ | ⟨ms, ns, hms, hns, hperm⟩
  · rw [he, hf]
    exact .inl ⟨e, f, rfl, rfl⟩
  rw [hms, hns, ok_bind, ok_bind]
  refine (Related.outcomes ?_).imp_left fun ⟨e, hx, hy⟩ => ⟨e, e, hx, hy⟩
  rw [h.services_eq hpaths, h.server_eq, h.version_eq]
  exact .bind_same fun services => .bind_same fun server => .bind_same fun version =>
    .ok ⟨rfl, rfl, rfl, hperm⟩

end ReorderedSchemas

namespace PetOrder

open ApiDocument

def link : String := "#/components/pathItems/pets"

def item : Node := .map [(.str "$ref", .str link)]

def pets : Entries := [(.str "get", .map [])]

def components (ss : Entries) : Node :=
  .map [(.str "pathItems", .map [(.str "pets", .map pets)]), (.str "schemas", .map ss)]

def root (ss : Entries) : Node :=
  .map [(.str "paths", .map [(.str "/pets", item)]), (.str "components", components ss)]

def schemas : Entries := [(.str "Pet", .map []), (.str "Toy", .map [])]

def swapped : Entries := [(.str "Toy", .map []), (.str "Pet", .map [])]

def document : ApiDocument := ⟨.openApi3, root schemas, schemas⟩

def operation : Operation :=
  { service := "PetsService", name := "getPets", method := .get, path := "/pets",
    results := [Response.void none none] }

def client : Client :=
  { models := [{ name := "Pet", shape := .generic, isDefinition := true },
      { name := "Toy", shape := .generic, isDefinition := true }]
    services := [{ name := "PetsService", operations := [operation] }] }

theorem names_schemas : schemas.map (fun e => modelName .openApi3 e.1) = ["Pet", "Toy"] := by
  decide +kernel

theorem reordered : ReorderedSchemas .openApi3 schemas swapped (root schemas) (root swapped) where
  replaced := by
    have hinner : Node.ReplacedAt schemas swapped ["schemas"] (components schemas)
        (components swapped) :=
      .under [(.str "pathItems", .map [(.str "pets", .map pets)])] (by decide) .here
    exact .under [(.str "paths", .map [(.str "/pets", item)])] (by decide) hinner
  perm := .swap _ _ _
  names := by
    rw [names_schemas]
    decide

theorem paths_apart (paths : Entries) (h : (root schemas).get? "paths" = some (.map paths)) :
    ∀ e ∈ paths, ∀ ref, Pointer.EndsAt (root schemas) e.2 ref →
      Pointer.segments? ref ≠ some Dialect.openApi3.schemasPlace := by
  obtain rfl : [(.str "/pets", item)] = paths := Node.map.inj (Option.some.inj h)
  intro e he ref hends
  obtain rfl := List.mem_singleton.mp he
  cases hends with
  | last hr =>
    obtain rfl : link = ref := Option.some.inj hr
    decide
  | step hr ht h =>
    obtain rfl : link = _ := Option.some.inj hr
    obtain rfl : Node.map pets = _ := Except.ok.inj ht
    cases h with
    | last hr => cases hr
    | step hr => cases hr

theorem models_document : document.models = .ok client.models := by
  have hkept : keepFirst [] document.declarations =
      [⟨.str "Pet", "Pet", .map []⟩, ⟨.str "Toy", "Toy", .map []⟩] := by
    have hnames : modelName .openApi3 (.str "Pet") = "Pet" ∧
        modelName .openApi3 (.str "Toy") = "Toy" := by simpa [schemas] using names_schemas
    simp [declarations, document, schemas, keepFirst, hnames]
  refine models_eq_ok.mpr ⟨by decide, ?_⟩
  rw [hkept]
  exact mapM_eq_ok.mpr (.cons (model_empty _ _) (.cons (model_empty _ _) .nil))

theorem operation_get : document.operation "/pets" .get (.map []) (.list []) = .ok operation := by
  have hname : operationName (.map []) .get "/pets" = .ok "getPets" := by
    have hmember : Naming.operationName "get-/pets" = "getPets" := by decide +kernel
    exact bind_eq_ok.mpr ⟨.null, rfl, pure_eq_ok.mpr hmember⟩
  have hservice : serviceName (.map []) "/pets" = .ok "PetsService" := by
    have hclass : Naming.serviceClassName
        (((firstSegment? "/pets").map String.ofList).getD defaultService) = "PetsService" := by
      decide +kernel
    exact bind_eq_ok.mpr ⟨.null, rfl, pure_eq_ok.mpr hclass⟩
  exact operation_of_call rfl (by decide) hservice hname

theorem services_document : document.services = .ok client.services := by
  have hget : HttpMethod.ofKey? "get" = some .get := by decide
  have hitem : document.operationsOfItem (.str "/pets") (.list []) pets = .ok [operation] := by
    simp only [pets, operationsOfItem, hget]
    exact bind_eq_ok.mpr ⟨_, operation_get, rfl⟩
  have hoperations : document.operations = .ok [operation] :=
    operations_of_item rfl (dereference_eq_target rfl rfl rfl rfl) rfl hitem
  have hgroup : Service.group [operation] = client.services := by
    have hname : Naming.fresh [] "getPets" "" = "getPets" := by decide
    simp [Service.group, Service.ofOperations, Service.renameClashes, sortNames, operation,
      distinct, distinct.go, hname, client]
  exact bind_eq_ok.mpr ⟨_, hoperations, pure_eq_ok.mpr hgroup⟩

/-- The client of the same document with its named schemas in the other order. -/
theorem client_swapped :
    ReorderedSchemas .openApi3 schemas swapped (root schemas) (root swapped) ∧
    (∀ paths, (root schemas).get? "paths" = some (.map paths) → ∀ e ∈ paths, ∀ ref,
      Pointer.EndsAt (root schemas) e.2 ref →
        Pointer.segments? ref ≠ some Dialect.openApi3.schemasPlace) ∧
    ∃ d, (ofRoot .openApi3 (root swapped) >>= ApiDocument.client) = .ok d ∧
      client.server = d.server ∧ client.version = d.version ∧ client.services = d.services ∧
      client.models.Perm d.models := by
  have hclient : (ofRoot .openApi3 (root schemas) >>= ApiDocument.client) = .ok client :=
    bind_eq_ok.mpr ⟨document, rfl, bind_eq_ok.mpr ⟨_, models_document,
      bind_eq_ok.mpr ⟨_, services_document, bind_eq_ok.mpr ⟨"", rfl,
        bind_eq_ok.mpr ⟨"1.0", rfl, rfl⟩⟩⟩⟩⟩
  refine ⟨reordered, paths_apart, ?_⟩
  rcases reordered.client_of_reordered paths_apart with ⟨e, _, he, -⟩ | ⟨c, d, hc, hd, hsame⟩
  · rw [hclient] at he
    cases he
  · obtain rfl := Except.ok.inj (hclient.symm.trans hc)
    exact ⟨d, hd, hsame⟩

end PetOrder

end ClientGen
