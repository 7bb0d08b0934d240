import ClientGen.Proofs.Api.ParameterModels

/-! What the parameters and responses of operations import. -/

namespace ClientGen

namespace ApiDocument

variable {doc : ApiDocument}

theorem mem_responseSchemas {node schema : Node}
    (h : doc.responseSchema? node = .ok (some schema)) :
    schema ∈ responseSchemas doc.dialect node := by
  unfold responseSchema? at h
  unfold responseSchemas
  cases hd : doc.dialect with
  | swagger2 =>
    rw [hd] at h
    obtain ⟨found, hfound, h⟩ := bind_eq_ok.mp h
    have h := pure_eq_ok.mp h
    split_ifs at h with hmap
    obtain rfl := Option.some.inj h
    exact Option.mem_toList.mpr (Node.get?_of_member_isMap hfound hmap)
  | openApi3 =>
    rw [hd] at h
    obtain ⟨content, hcontent, h⟩ := bind_eq_ok.mp h
    obtain ⟨found, hfound, h⟩ := bind_eq_ok.mp h
    obtain ⟨⟨mediaType, s⟩, rfl, rfl⟩ := Option.map_eq_some_iff.mp (pure_eq_ok.mp h)
    obtain ⟨c, hc, hmem⟩ := contentSchemas_of_member hcontent hfound
    simpa [hc] using hmem

/-- A parameter keeps what its model imports. -/
theorem imports_parameterOf {parameter : Node} {m : Model} {location : Location}
    {ref : Option String} {p : Parameter} (h : doc.parameterOf parameter m location ref = .ok p) :
    p.model.imports = m.imports := by
  obtain ⟨_, _, _, _, _, -, -, -, -, -, rfl⟩ := parameterOf_eq_ok h
  rfl

theorem mem_mergeInto {key : ParameterKey} {node : Node} {merged : List (ParameterKey × Node)} :
    ∀ entry ∈ mergeInto key node merged, entry.2 = node ∨ entry.2 ∈ merged.map Prod.snd := by
  induction merged with
  | nil => simp [mergeInto]
  | cons first rest ih =>
    intro entry hentry
    unfold mergeInto at hentry
    split_ifs at hentry
    · rcases List.mem_cons.mp hentry with rfl | hentry
      · exact .inl rfl
      · exact .inr (List.mem_cons_of_mem _ (List.mem_map_of_mem hentry))
    · rcases List.mem_cons.mp hentry with rfl | hentry
      · exact .inr List.mem_cons_self
      · exact (ih entry hentry).imp_right (List.mem_cons_of_mem _)

/-- Merged parameter objects are those that the items of a list stand for. -/
theorem mem_mergeParameters {merged result : List (ParameterKey × Node)} {items : List Node}
    (h : doc.mergeParameters merged items = .ok result) :
    ∀ entry ∈ result, entry.2 ∈ merged.map Prod.snd ∨
      ∃ raw ∈ items, doc.StandsFor raw entry.2 := by
  induction items generalizing merged with
  | nil =>
    obtain rfl := pure_eq_ok.mp h
    exact fun entry hentry => .inl (List.mem_map_of_mem hentry)
  | cons raw rest ih =>
    obtain ⟨node, key, hnode, -, h⟩ := mergeParameters_cons h
    have hnext : ∀ entry ∈ key.elim merged fun key => mergeInto key node merged,
        entry.2 = node ∨ entry.2 ∈ merged.map Prod.snd := by
      cases key with
      | none => exact fun entry hentry => .inr (List.mem_map_of_mem hentry)
      | some key => exact mem_mergeInto
    intro entry hentry
    rcases ih h entry hentry with hmem | ⟨item, hitem, hstands⟩
    · obtain ⟨other, hother, heq⟩ := List.mem_map.mp hmem
      rcases hnext other hother with hnew | hold
      · exact .inr ⟨raw, List.mem_cons_self, heq ▸ hnew ▸ hnode⟩
      · exact .inl (heq ▸ hold)
    · exact .inr ⟨item, List.mem_cons_of_mem _ hitem, hstands⟩

/-- Every parameter is made of a parameter object of its endpoint. -/
theorem mem_parameters {e : Endpoint} (he : doc.HasEndpoint e) {path : String} {own : Node}
    (hown : e.node.member "parameters" = .ok own) {ps : List Parameter}
    (h : doc.parameters path e.shared (orEmptyList own) = .ok ps) :
    ∀ p ∈ ps, ∃ node, doc.IsParameter node ∧ doc.parameter node = .ok p := by
  obtain ⟨shared, hshared, h⟩ := bind_eq_ok.mp h
  obtain ⟨items, hitems, h⟩ := bind_eq_ok.mp h
  obtain ⟨merged, hmerged, h⟩ := bind_eq_ok.mp h
  obtain ⟨resolved, hresolved, h⟩ := bind_eq_ok.mp h
  obtain rfl := pure_eq_ok.mp h
  intro p hp
  obtain ⟨entry, hentry, hparameter⟩ :=
    (exists_mem_of_forall₂ (mapM_eq_ok.mp hresolved)).2 p (List.mem_mergeSort.mp hp)
  refine ⟨entry.2, ?_, hparameter⟩
  obtain ⟨raw, hraw, hstands⟩ :=
    (mem_mergeParameters hmerged entry (List.mem_filter.mp hentry).1).resolve_left (by simp)
  rcases List.mem_append.mp hraw with hraw | hraw
  · exact ⟨e, he, e.shared, .inl rfl, shared, hshared, raw, hraw, hstands⟩
  rcases Node.orElse_of_member hown (.list []) with heq | ⟨hget, heq⟩
  · rw [orEmptyList, heq] at hitems
    obtain rfl := Except.ok.inj hitems
    exact absurd hraw List.not_mem_nil
  · rw [orEmptyList, heq] at hitems
    exact ⟨e, he, own, .inr hget, items, hitems, raw, hraw, hstands⟩

/-- What a response of an endpoint is read from; a response that is no map counts as empty. -/
def IsResponse (doc : ApiDocument) (e : Endpoint) (node : Node) : Prop :=
  node = .map [] ∨ ∃ responses, e.node.get? "responses" = some responses ∧
    ∃ entry ∈ responses.entries, doc.dereference entry.2 = .ok node

/-- The responses in a table are empty or those of the entries. -/
theorem mem_tabulate {table result : ResponseTable} {es : Entries}
    (h : doc.tabulate table es = .ok result) {P : Node → Prop} (hempty : P (.map []))
    (hentries : ∀ e ∈ es, ∀ node, doc.dereference e.2 = .ok node → P node)
    (hnumbered : ∀ e ∈ table.numbered, P e.2)
    (hdefault : ∀ node, table.default = some node → P node) :
    (∀ e ∈ result.numbered, P e.2) ∧ ∀ node, result.default = some node → P node := by
  induction es generalizing table with
  | nil =>
    obtain rfl := pure_eq_ok.mp h
    exact ⟨hnumbered, hdefault⟩
  | cons e rest ih =>
    obtain ⟨key, raw⟩ := e
    have hrest := fun e he => hentries e (List.mem_cons_of_mem (key, raw) he)
    unfold tabulate at h
    obtain ⟨node, hnode, h⟩ := ite_bind_eq_ok.mp h
    have hP : P node := by
      split_ifs at hnode
      · exact hentries (key, raw) List.mem_cons_self node hnode
      · exact pure_eq_ok.mp hnode ▸ hempty
    obtain ⟨_, -, h⟩ := bind_eq_ok.mp h
    split_ifs at h
    · exact ih h hrest hnumbered fun n hn => Option.some.inj hn ▸ hP
    obtain ⟨code, -, h⟩ := bind_eq_ok.mp h
    cases code with
    | none => exact ih h hrest hnumbered hdefault
    | some code =>
      refine ih h hrest (fun e he => ?_) hdefault
      rcases List.mem_append.mp he with he | he
      · exact hnumbered e he
      · exact List.mem_singleton.mp he ▸ hP

namespace Conventional

variable (h : doc.Conventional)
include h

theorem declares_model {schema : Node} {isDefinition : Bool} {name : String} {m : Model}
    (hm : doc.model schema isDefinition name = .ok m) (hs : doc.SchemaAt schema) :
    ∀ n ∈ m.imports, doc.Declares n := h.declares_of_built (built_of_build hm) hs

theorem declares_parameter {node : Node} {p : Parameter} (hn : doc.IsParameter node)
    (hp : doc.parameter node = .ok p) : ∀ n ∈ p.model.imports, doc.Declares n := by
  obtain ⟨location, m, ref, -, hm, hp⟩ := parameter_eq_ok hp
  rw [imports_parameterOf hp]
  cases hm with
  | schema hs hm =>
    cases hs with
    | own hs => exact h.declares_model hm (.parameterSchema hn hs)
    | content hd hc hs => exact h.declares_model hm (.parameterContent hn hd hc hs)
    | self hs => exact h.declares_model hm (.parameter hn hs)
  | dictionary hd hi hm _ _ =>
    intro n hmem
    rcases List.mem_append.mp (mem_distinct.mp hmem) with hmem | hmem
    · exact h.declares_model hm (.parameterItems hn hd hi) n hmem
    · exact .inl (List.mem_singleton.mp hmem)
  | any => exact fun n hn => absurd hn List.not_mem_nil

theorem declares_bodyParameter? {e : Endpoint} (he : doc.HasEndpoint e) {p : Parameter}
    (hp : doc.bodyParameter? e.node = .ok (some p)) : ∀ n ∈ p.model.imports, doc.Declares n := by
  obtain ⟨hd, raw, body, es, m, location, ref, q, mediaType, hraw, hbody, hm, hq, rfl⟩ :=
    bodyParameter?_eq_ok hp
  dsimp only
  rw [imports_parameterOf hq]
  cases hm with
  | schema hc hs hm => exact h.declares_model hm (.body he hd hraw hbody hc hs)
  | any => exact fun n hn => absurd hn List.not_mem_nil

theorem declares_response {e : Endpoint} (he : doc.HasEndpoint e) {node : Node}
    (hn : doc.IsResponse e node) {code : Option Int} {r : Response}
    (hresponse : doc.response code node = .ok r) :
    ∀ n ∈ r.model.imports, doc.Declares n := by
  obtain ⟨found, hfound, hresponse⟩ := bind_eq_ok.mp hresponse
  cases found with
  | none =>
    obtain ⟨_, -, hresponse⟩ := bind_eq_ok.mp hresponse
    obtain ⟨_, -, hresponse⟩ := bind_eq_ok.mp hresponse
    obtain rfl := pure_eq_ok.mp hresponse
    exact fun n hn => absurd hn List.not_mem_nil
  | some schema =>
    have hmem := mem_responseSchemas hfound
    obtain ⟨m, hm, hresponse⟩ := bind_eq_ok.mp hresponse
    obtain ⟨_, -, hresponse⟩ := bind_eq_ok.mp hresponse
    obtain ⟨_, -, hresponse⟩ := bind_eq_ok.mp hresponse
    obtain rfl := pure_eq_ok.mp hresponse
    rcases hn with rfl | ⟨responses, hr, ⟨key, raw⟩, hentry, hderef⟩
    · cases hd : doc.dialect <;> rw [hd] at hmem <;> exact absurd hmem List.not_mem_nil
    · have himports := h.declares_model hm (.response he hr hentry hderef hmem)
      exact himports

theorem declares_results {e : Endpoint} (he : doc.HasEndpoint e) {responses : Node}
    (hr : e.node.member "responses" = .ok responses) {results : List Response}
    {errors : List ErrorResponse}
    (hresults : doc.results (orEmptyMap responses) = .ok (results, errors)) :
    ∀ r ∈ results, ∀ n ∈ r.model.imports, doc.Declares n := by
  obtain ⟨es, table, result, _, hes, htable, rfl, hchosen, -⟩ := results_eq_ok hresults
  have hentries : ∀ entry ∈ es, ∀ node, doc.dereference entry.2 = .ok node →
      doc.IsResponse e node := by
    intro entry hentry node hderef
    rcases Node.orElse_of_member hr (.map []) with heq | ⟨hget, heq⟩
    · rw [orEmptyMap, heq] at hes
      obtain rfl := Except.ok.inj hes
      exact absurd hentry List.not_mem_nil
    · rw [orEmptyMap, heq] at hes
      have hes : es = responses.entries := by
        cases responses with
        | map es => exact (Except.ok.inj hes).symm
        | scalar s => cases hes
        | list items => cases hes
      exact .inr ⟨responses, hget, entry, hes ▸ hentry, hderef⟩
  obtain ⟨hnumbered, hdefault⟩ := mem_tabulate htable (.inl rfl) hentries (by simp) (by simp)
  have himports : ∀ n ∈ result.model.imports, doc.Declares n := by
    cases hchosen with
    | success hs made =>
      have hmem := List.mem_mergeSort.mp (List.mem_of_find?_eq_some hs)
      exact h.declares_response he (hnumbered _ hmem) made
    | default _ hd made => exact h.declares_response he (hdefault _ hd) made
    | nothing => exact fun n hn => absurd hn List.not_mem_nil
  simpa using himports

/-- What an operation imports is declared. -/
theorem declares_operation {e : Endpoint} (he : doc.HasEndpoint e) {op : Operation}
    (hop : doc.IsOperation e op) : ∀ n ∈ op.imports, doc.Declares n := by
  obtain ⟨ps, body, hcomposed⟩ := operation_eq_ok.mp hop
  obtain ⟨own, hown, hps⟩ := hcomposed.parameters
  obtain ⟨responses, hresponses, hresults⟩ := hcomposed.responses
  intro n hn
  rw [hcomposed.imports, hcomposed.signature] at hn
  rcases List.mem_append.mp (mem_distinct.mp hn) with hn | hn
  · obtain ⟨p, hp, hmem⟩ := List.mem_flatMap.mp hn
    have hp : p ∈ ps ∨ body = some p := by
      cases body with
      | none => exact .inl hp
      | some b =>
        have hp := List.mem_append.mp (List.mem_mergeSort.mp hp)
        exact hp.imp_right fun hp => congrArg some (List.mem_singleton.mp hp).symm
    rcases hp with hp | rfl
    · obtain ⟨node, hnode, hparameter⟩ := mem_parameters he hown hps p hp
      exact h.declares_parameter hnode hparameter n hmem
    · exact h.declares_bodyParameter? he hcomposed.requestBody n hmem
  · obtain ⟨r, hr, hn⟩ := List.mem_flatMap.mp hn
    exact h.declares_results he hresponses hresults r hr n hn

end Conventional

end ApiDocument

end ClientGen
