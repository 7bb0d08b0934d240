import ClientGen.Proofs.Api.ServiceNames

/-! The names of the models and services of a client: what they are made of, and that they
differ. -/

namespace ClientGen.ApiDocument

variable {doc : ApiDocument}

theorem isTypeName_of_mem_declarations :
    ∀ d ∈ doc.declarations, TypeExpr.IsTypeName d.name := by
  have hname (key : Scalar) : TypeExpr.IsTypeName (modelName doc.dialect key) :=
    TypeExpr.isTypeName_base_ofText (doc.dialect.schemaNamespace ++ key.display)
  intro d hd
  obtain ⟨entry, -, rfl⟩ := List.mem_map.mp hd
  dsimp only
  exact hname entry.1

/-- The models of a document have names that differ. -/
theorem names_models {ms : List Model} (h : doc.models = .ok ms) :
    (ms.map (·.name)).Nodup ∧ ∀ m ∈ ms, TypeExpr.IsTypeName m.name := by
  have hmodels := forall₂_models h
  have hnames : ms.map (·.name) = (keepFirst [] doc.declarations).map (·.name) := by
    clear h
    generalize keepFirst [] doc.declarations = ds at hmodels
    induction hmodels with
    | nil => rfl
    | cons hm _ ih => rw [List.map_cons, List.map_cons, hm.2, ih]
  refine ⟨hnames ▸ (nodup_keepFirst [] _).1, fun m hm => ?_⟩
  obtain ⟨d, hd, -, heq⟩ := (exists_mem_of_forall₂ hmodels).2 m hm
  rw [heq]
  exact isTypeName_of_mem_declarations d (keepFirst_subset _ _ hd)

/-- The services of a document have names that differ, all of them made as those of classes. -/
theorem names_services {services : List Service} (h : doc.services = .ok services) :
    (services.map (·.name)).Nodup ∧
      ∀ s ∈ services, ∃ text, s.name = Naming.serviceClassName text := by
  refine ⟨?_, fun s hs => class_of_service h hs⟩
  obtain ⟨ops, -, h⟩ := bind_eq_ok.mp h
  obtain rfl := pure_eq_ok.mp h
  rw [Service.names_group]
  exact nodup_distinct _

end ClientGen.ApiDocument
