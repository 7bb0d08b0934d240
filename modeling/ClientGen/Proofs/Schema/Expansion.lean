import ClientGen.Proofs.Document.References
import ClientGen.Proofs.Schema.Built
import Mathlib.Data.List.Nodup
import Mathlib.Data.List.Perm.Subperm
import Mathlib.Data.Prod.Lex
import Mathlib.Logic.Relation
import Mathlib.Order.WellFounded

/-! The builder comes to an end: on one path it expands each reference at most once. -/

namespace ClientGen.ApiDocument

/-- The schemas inside a schema that the builder may go on to. -/
def parts (dialect : Dialect) (schema : Node) : List Node :=
  (schema.get? "items").toList ++ (schema.get? "additionalProperties").toList ++
    ((composition? dialect schema).map Prod.snd).getD [] ++
    ((properties? schema).getD []).map Prod.snd

/-- Where the builder is: at a node, after the expansion of some references, the last one first. -/
structure Visit where
  expanded : List String
  node : Node

/-- The calls that the builder makes: it expands a reference that it has not expanded on the way, or
goes on to a part. Schemas that have a name are not expanded. -/
inductive Calls (doc : ApiDocument) : Visit → Visit → Prop
  | expand {expanded node target ref} (hr : Pointer.reference? node = some ref)
      (hs : doc.dialect.isSchemaRef ref = false) (hv : ref ∉ expanded)
      (ht : doc.resolve ref = .ok target) :
      Calls doc ⟨expanded, node⟩ ⟨ref :: expanded, target⟩
  | part {expanded node p} (hr : Pointer.reference? node = none)
      (hp : p ∈ parts doc.dialect node) : Calls doc ⟨expanded, node⟩ ⟨expanded, p⟩

variable {doc : ApiDocument}

theorem mem_references {node : Node} {ref : String} :
    ref ∈ doc.references node ↔
      (ref ∈ Pointer.references doc.root ∨ ref ∈ Pointer.references node) ∧
        doc.dialect.isSchemaRef ref = false := by
  simp [references]

theorem nodup_references (node : Node) : (doc.references node).Nodup := by
  unfold references
  exact (Pointer.nodup_eraseDups _).filter _

theorem parts_cases {dialect : Dialect} {schema p : Node} (h : p ∈ parts dialect schema) :
    (∃ key, schema.get? key = some p) ∨
    (∃ shape branches, composition? dialect schema = some (shape, branches) ∧ p ∈ branches) ∨
    ∃ es key, properties? schema = some es ∧ (key, p) ∈ es := by
  unfold parts at h
  simp only [List.mem_append, Option.mem_toList, List.mem_map] at h
  rcases h with ((h | h) | h) | ⟨⟨key, v⟩, h, rfl⟩
  · exact .inl ⟨_, h⟩
  · exact .inl ⟨_, h⟩
  · refine .inr (.inl ?_)
    cases hc : composition? dialect schema with
    | none => simp [hc] at h
    | some c =>
      obtain ⟨shape, branches⟩ := c
      exact ⟨shape, branches, rfl, by simpa [hc] using h⟩
  · refine .inr (.inr ?_)
    cases hp : properties? schema with
    | none => simp [hp] at h
    | some es => exact ⟨es, key, rfl, by simpa [hp] using h⟩

theorem mem_parts_of_items {dialect : Dialect} {kind schema node : Node}
    (h : arrayItems? kind schema = some node) : node ∈ parts dialect schema := by
  unfold arrayItems? at h
  split_ifs at h
  simp [parts, (Option.filter_eq_some_iff.mp h).1]

theorem mem_parts_of_values {dialect : Dialect} {kind schema node : Node}
    (h : dictionaryValues? kind schema = some node) : node ∈ parts dialect schema := by
  unfold dictionaryValues? at h
  split_ifs at h
  simp [parts, (Option.filter_eq_some_iff.mp h).1]

theorem mem_parts_of_branches {dialect : Dialect} {schema b : Node} {shape : Shape}
    {branches : List Node} (h : composition? dialect schema = some (shape, branches))
    (hb : b ∈ branches) : b ∈ parts dialect schema := by
  simp [parts, h, hb]

theorem mem_parts_of_properties {dialect : Dialect} {schema : Node} {e : Scalar × Node}
    (h : e ∈ (properties? schema).getD []) : e.2 ∈ parts dialect schema := by
  have hmem : e.2 ∈ ((properties? schema).getD []).map Prod.snd := List.mem_map_of_mem h
  exact List.mem_append_right _ hmem

theorem get?_of_branches? {schema : Node} {keyword : String} {branches : List Node}
    (h : branches? schema keyword = some branches) :
    schema.get? keyword = some (.list branches) := by
  unfold branches? at h
  split at h
  · next heq => rw [heq, ← Option.some.inj h]
  · cases h

theorem get?_of_properties? {schema : Node} {es : Entries} (h : properties? schema = some es) :
    schema.get? "properties" = some (.map es) := by
  unfold properties? at h
  split at h
  · next heq => rw [heq, Option.some.inj h]
  · cases h

theorem compositions_subset (dialect : Dialect) : dialect.compositions ⊆
    [("oneOf", .oneOf), ("anyOf", .anyOf), ("allOf", .allOf)] := by
  cases dialect <;> decide

theorem get?_of_composition? {dialect : Dialect} {schema : Node} {shape : Shape}
    {branches : List Node} (h : composition? dialect schema = some (shape, branches)) :
    ∃ keyword, (keyword, shape) ∈ dialect.compositions ∧
      schema.get? keyword = some (.list branches) := by
  obtain ⟨⟨keyword, s⟩, hmem, hb⟩ := List.exists_of_findSome?_eq_some h
  obtain ⟨bs, hbs, heq⟩ := Option.map_eq_some_iff.mp hb
  obtain ⟨rfl, rfl⟩ := Prod.mk.inj heq
  exact ⟨keyword, hmem, get?_of_branches? hbs⟩

theorem sizeOf_parts {dialect : Dialect} {schema p : Node} (h : p ∈ parts dialect schema) :
    sizeOf p < sizeOf schema := by
  rcases parts_cases h with ⟨key, h⟩ | ⟨shape, branches, hc, hp⟩ | ⟨es, key, hes, hp⟩
  · exact Node.sizeOf_lt_of_get? h
  · exact (List.sizeOf_lt_of_mem hp).trans (sizeOf_composition? hc)
  · have hentry := Node.sizeOf_lt_of_mem hp
    have hmap := Node.sizeOf_lt_of_get? (get?_of_properties? hes)
    exact hentry.trans hmap

theorem references_parts {dialect : Dialect} {schema p : Node} (h : p ∈ parts dialect schema) :
    Pointer.references p ⊆ Pointer.references schema := by
  rcases parts_cases h with ⟨key, h⟩ | ⟨shape, branches, hc, hp⟩ | ⟨es, key, hes, hp⟩
  · exact Pointer.references_get? h
  · obtain ⟨keyword, -, hk⟩ := get?_of_composition? hc
    exact List.Subset.trans (Pointer.references_item hp) (Pointer.references_get? hk)
  · have hproperties := Pointer.references_get? (get?_of_properties? hes)
    exact List.Subset.trans (Pointer.references_entry hp) hproperties

/-- A call leads to no new references. -/
theorem Calls.references_subset {v w : Visit} (h : Calls doc v w) :
    doc.references w.node ⊆ doc.references v.node := by
  intro ref hr
  obtain ⟨hr, hs⟩ := mem_references.mp hr
  refine mem_references.mpr ⟨?_, hs⟩
  cases h with
  | expand _ _ _ ht => exact .inl (hr.elim id fun hr => Pointer.references_resolve ht hr)
  | part _ hp => exact hr.imp_right fun hr => references_parts hp hr

/-- The references that may still be expanded. -/
def remaining (doc : ApiDocument) (start : Node) (expanded : List String) : List String :=
  (doc.references start).filter fun ref => ref ∉ expanded

theorem mem_remaining {start : Node} {expanded : List String} {ref : String} :
    ref ∈ doc.remaining start expanded ↔ ref ∈ doc.references start ∧ ref ∉ expanded := by
  simp [remaining]

theorem nodup_remaining (start : Node) (expanded : List String) :
    (doc.remaining start expanded).Nodup := (nodup_references start).filter _

theorem remaining_cons (start : Node) (expanded : List String) (ref : String) :
    doc.remaining start (ref :: expanded) = (doc.remaining start expanded).erase ref := by
  rw [(nodup_remaining start expanded).erase_eq_filter, remaining, remaining, List.filter_filter]
  refine List.filter_congr fun r _ => ?_
  by_cases h : r = ref <;> simp [h]

/-- A call leaves fewer references to expand, or as many and a smaller node. -/
theorem Calls.decreases {v w : Visit} (h : Calls doc v w) :
    (doc.remaining w.node w.expanded).length < (doc.remaining v.node v.expanded).length ∨
    (doc.remaining w.node w.expanded).length ≤ (doc.remaining v.node v.expanded).length ∧
      sizeOf w.node < sizeOf v.node := by
  -- A target may be larger than its reference, but has no references from outside of the document.
  have hsub := h.references_subset
  cases h with
  | @expand expanded node target ref hr hs hv ht =>
    have hmem : ref ∈ doc.remaining node expanded :=
      mem_remaining.mpr ⟨mem_references.mpr ⟨.inr (Pointer.reference?_mem hr), hs⟩, hv⟩
    have hle : doc.remaining target (ref :: expanded) ⊆ doc.remaining node (ref :: expanded) :=
      fun r hr => mem_remaining.mpr ((mem_remaining.mp hr).imp_left fun h => hsub h)
    have hlen := ((nodup_remaining target _).subperm hle).length_le
    rw [remaining_cons node, List.length_erase_of_mem hmem] at hlen
    have hpos := List.length_pos_of_mem hmem
    dsimp only
    omega
  | @part expanded node p _ hp =>
    have hle : doc.remaining p expanded ⊆ doc.remaining node expanded :=
      fun r hr => mem_remaining.mpr ((mem_remaining.mp hr).imp_left fun h => hsub h)
    exact .inr ⟨((nodup_remaining p _).subperm hle).length_le, sizeOf_parts hp⟩

/-- There is no endless chain of calls. -/
theorem wellFounded_calls (doc : ApiDocument) : WellFounded fun w v => Calls doc v w := by
  refine Subrelation.wf ?_ (InvImage.wf
    (fun v : Visit => ((doc.remaining v.node v.expanded).length, sizeOf v.node))
    (Prod.lex Nat.lt_wfRel Nat.lt_wfRel).wf)
  intro w v h
  rcases h.decreases with h | ⟨hle, hlt⟩
  · exact Prod.Lex.left _ _ h
  · rcases Nat.lt_or_eq_of_le hle with h | h
    · exact Prod.Lex.left _ _ h
    · exact Prod.lex_def.mpr (.inr ⟨h, hlt⟩)

/-- What holds of every visit on the way from a schema. -/
structure Visit.OnPath (doc : ApiDocument) (start : Node) (v : Visit) : Prop where
  nodup : v.expanded.Nodup
  expanded : ∀ ref ∈ v.expanded, ref ∈ doc.references start
  references : doc.references v.node ⊆ doc.references start

theorem Calls.onPath {start : Node} {v w : Visit} (h : Calls doc v w) (hv : v.OnPath doc start) :
    w.OnPath doc start := by
  have hreferences := List.Subset.trans h.references_subset hv.references
  cases h with
  | expand hr hs hnew _ =>
    refine ⟨List.nodup_cons.mpr ⟨hnew, hv.nodup⟩, ?_, hreferences⟩
    intro r hmem
    rcases List.mem_cons.mp hmem with rfl | hmem
    · exact hv.references (mem_references.mpr ⟨.inr (Pointer.reference?_mem hr), hs⟩)
    · exact hv.expanded r hmem
  | part => exact ⟨hv.nodup, hv.expanded, hreferences⟩

theorem onPath_of_calls {start : Node} {v : Visit}
    (h : Relation.ReflTransGen (Calls doc) ⟨[], start⟩ v) : v.OnPath doc start := by
  induction h with
  | refl => exact ⟨List.nodup_nil, by simp, fun _ h => h⟩
  | tail _ hcall ih => exact hcall.onPath ih

section Equations

variable {pending : List String} {isDefinition : Bool} {name : Option String} {schema : Node}
  {ref : String}

theorem isMap_of_reference? (h : Pointer.reference? schema = some ref) : schema.isMap := by
  obtain ⟨value, hvalue, -⟩ := Option.bind_eq_some_iff.mp h
  obtain ⟨es, rfl, -⟩ := Node.mem_of_get? hvalue
  rfl

/-- A named schema is not expanded. -/
theorem build_named (hr : Pointer.reference? schema = some ref)
    (hs : doc.dialect.isSchemaRef ref) :
    doc.build pending isDefinition name schema = (do
      let outline ← Outline.ofSchema doc.dialect isDefinition name schema
      outline.complete { shape := .reference, type := ← doc.typeOfReference ref }) := by
  rw [build, isMap_of_reference? hr, hr]
  simp [hs]

theorem build_again (hr : Pointer.reference? schema = some ref)
    (hs : doc.dialect.isSchemaRef ref = false) (hp : ref ∉ pending) :
    doc.build pending isDefinition name schema = (do
      let outline ← Outline.ofSchema doc.dialect isDefinition name schema
      outline.complete { shape := .generic }) := by
  rw [build, isMap_of_reference? hr, hr]
  simp [hs, hp]

theorem build_expand (hr : Pointer.reference? schema = some ref)
    (hs : doc.dialect.isSchemaRef ref = false) (hp : ref ∈ pending) :
    doc.build pending isDefinition name schema = (do
      let _ ← Outline.ofSchema doc.dialect isDefinition name schema
      doc.build (pending.erase ref) isDefinition name (← doc.resolve ref)) := by
  rw [build, isMap_of_reference? hr, hr]
  simp [hs, hp]

/-- The model of a schema that is no reference. -/
theorem build_inline (hmap : schema.isMap) (hr : Pointer.reference? schema = none) :
    doc.build pending isDefinition name schema = (do
      let outline ← Outline.ofSchema doc.dialect isDefinition name schema
      match ← enumModel? doc.dialect schema with
      | some m => outline.complete m
      | none => doc.buildStructure pending outline schema) := by
  rw [build, hmap, hr]
  rfl

end Equations

section Parts

variable {other : ApiDocument} {p q : List String}

private theorem buildProperties_congr {required : List Scalar} {es : Entries}
    (h : ∀ e ∈ es, ∀ d n, doc.build p d n e.2 = other.build q d n e.2) :
    doc.buildProperties p required es = other.buildProperties q required es := by
  induction es with
  | nil => rw [buildProperties, buildProperties]
  | cons e rest ih =>
    have hrest := ih fun b hb => h b (List.mem_cons_of_mem e hb)
    rw [buildProperties, buildProperties, hrest, h e List.mem_cons_self]

variable (hdialect : doc.dialect = other.dialect)
  (htypes : ∀ ref, doc.typeOfReference ref = other.typeOfReference ref)
include hdialect htypes

private theorem buildItem_congr {node : Node}
    (h : ∀ d n, doc.build p d n node = other.build q d n node) :
    doc.buildItem p node = other.buildItem q node := by
  rw [buildItem, buildItem, hdialect]
  simp only [htypes, h]

private theorem buildBranches_congr {shape : Shape} {branches : List Node}
    (h : ∀ b ∈ branches, ∀ d n, doc.build p d n b = other.build q d n b) :
    doc.buildBranches p shape branches = other.buildBranches q shape branches := by
  induction branches with
  | nil => rw [buildBranches, buildBranches]
  | cons branch rest ih =>
    have hrest := ih fun b hb => h b (List.mem_cons_of_mem branch hb)
    rw [buildBranches, buildBranches, hrest, hdialect]
    simp only [htypes, h branch List.mem_cons_self]

/-- The structure of a schema depends on its document through the models of its parts and the types
of references only. -/
theorem buildStructure_congr {outline : Outline} {schema : Node}
    (h : ∀ node ∈ parts doc.dialect schema, ∀ d n,
      doc.build p d n node = other.build q d n node) :
    doc.buildStructure p outline schema = other.buildStructure q outline schema := by
  have hproperties {required : List Scalar} {es : Entries} (hp : properties? schema = some es) :
      doc.buildProperties p required es = other.buildProperties q required es :=
    buildProperties_congr fun e he => h e.2 (mem_parts_of_properties (by simpa [hp] using he))
  rw [buildStructure, buildStructure, ← hdialect]
  refine bind_congr fun kind => ?_
  split
  · next node hi => rw [buildItem_congr hdialect htypes (h node (mem_parts_of_items hi))]
  split
  · next node hv => rw [buildItem_congr hdialect htypes (h node (mem_parts_of_values hv))]
  split
  · next shape branches hc =>
    have hbranches : doc.buildBranches p shape branches = other.buildBranches q shape branches :=
      buildBranches_congr hdialect htypes fun b hb => h b (mem_parts_of_branches hc hb)
    rw [hbranches]
    refine bind_congr fun c => ?_
    split
    · next es hp => simp only [hproperties hp]
    · rfl
  split
  · next es hp => simp only [hproperties hp]
  · rfl

end Parts

/-- A schema that is no reference has its parts built with the same references left. -/
theorem build_congr {p q : List String} {isDefinition : Bool} {name : Option String}
    {schema : Node} (hr : Pointer.reference? schema = none)
    (h : ∀ node ∈ parts doc.dialect schema, ∀ d n, doc.build p d n node = doc.build q d n node) :
    doc.build p isDefinition name schema = doc.build q isDefinition name schema := by
  rw [build, build, hr]
  simp only [buildStructure_congr rfl (fun _ => rfl) h]

/-- Only the references that a schema can lead to matter for its model. -/
theorem build_pending (p : List String) (schema : Node) : ∀ {q}, p.Nodup → q.Nodup →
    (∀ ref ∈ doc.references schema, ref ∈ p ↔ ref ∈ q) → ∀ isDefinition name,
      doc.build p isDefinition name schema = doc.build q isDefinition name schema := by
  induction p, schema using buildInduction with
  | step p schema targets smaller =>
    intro q hp hq h isDefinition name
    have hsub {v : Visit} (hcall : Calls doc ⟨[], schema⟩ v) :
        ∀ ref ∈ doc.references v.node, ref ∈ p ↔ ref ∈ q :=
      fun ref href => h ref (hcall.references_subset href)
    cases hr : Pointer.reference? schema with
    | none =>
      exact build_congr hr fun node hnode =>
        smaller node (sizeOf_parts hnode) hp hq (hsub (.part hr hnode))
    | some ref =>
      by_cases hs : doc.dialect.isSchemaRef ref = true
      · rw [build_named hr hs, build_named hr hs]
      rw [Bool.not_eq_true] at hs
      have hmem : ref ∈ p ↔ ref ∈ q :=
        h ref (mem_references.mpr ⟨.inr (Pointer.reference?_mem hr), hs⟩)
      by_cases hpending : ref ∈ p
      · rw [build_expand hr hs hpending, build_expand hr hs (hmem.mp hpending)]
        refine bind_congr fun _ => ?_
        cases ht : doc.resolve ref with
        | error fault => rfl
        | ok target =>
          have htarget := hsub (.expand hr hs List.not_mem_nil ht)
          refine targets ref hpending target (hp.erase ref) (hq.erase ref) ?_ isDefinition name
          intro other hother
          rw [hp.mem_erase_iff, hq.mem_erase_iff, htarget other hother]
      · rw [build_again hr hs hpending, build_again hr hs (hmem.not.mp hpending)]

/-- The model of a schema where it is visited. -/
def modelAt (doc : ApiDocument) (start : Node) (v : Visit) (isDefinition : Bool)
    (name : Option String) : Except Fault Model :=
  doc.build (doc.remaining start v.expanded) isDefinition name v.node

theorem model_eq_modelAt (start : Node) (isDefinition : Bool) (name : String) :
    doc.model start isDefinition name = doc.modelAt start ⟨[], start⟩ isDefinition (some name) := by
  simp [model, modelAt, remaining]

theorem type_eq_any {start : Node} {v : Visit} {isDefinition : Bool} {name : Option String}
    {m : Model} (h : doc.modelAt start v isDefinition name = .ok m)
    (heq : doc.modelAt start v isDefinition name = (do
      let outline ← Outline.ofSchema doc.dialect isDefinition name v.node
      outline.complete { shape := .generic })) :
    m.shape = .generic ∧ m.type.text = "any" ∧ m.imports = [] := by
  rw [heq] at h
  obtain ⟨outline, -, h⟩ := bind_eq_ok.mp h
  rw [Outline.eq_applied_of_complete h]
  exact ⟨rfl, rfl, rfl⟩

/-- Building a model comes to an end, also where references run in circles. On a path of calls each
reference is expanded once; where it is met again it stands for any value, and a reference to a
named schema is never expanded. Parts are built with the same references expanded. -/
theorem build_terminates (doc : ApiDocument) (start : Node) (isDefinition : Bool) (name : String) :
    (WellFounded fun w v => Calls doc v w) ∧
    doc.model start isDefinition name = doc.modelAt start ⟨[], start⟩ isDefinition (some name) ∧
    ∀ v, Relation.ReflTransGen (Calls doc) ⟨[], start⟩ v →
      v.expanded.Nodup ∧
      (∀ ref ∈ v.expanded, doc.dialect.isSchemaRef ref = false ∧ ref ∈ doc.references start) ∧
      ∀ isDefinition name,
        (∀ ref, Pointer.reference? v.node = some ref →
          (doc.dialect.isSchemaRef ref → doc.modelAt start v isDefinition name = (do
            let outline ← Outline.ofSchema doc.dialect isDefinition name v.node
            outline.complete { shape := .reference, type := ← doc.typeOfReference ref })) ∧
          (doc.dialect.isSchemaRef ref = false → ref ∉ v.expanded →
            doc.modelAt start v isDefinition name = (do
              let _ ← Outline.ofSchema doc.dialect isDefinition name v.node
              let target ← doc.resolve ref
              doc.modelAt start ⟨ref :: v.expanded, target⟩ isDefinition name)) ∧
          (doc.dialect.isSchemaRef ref = false → ref ∈ v.expanded →
            doc.modelAt start v isDefinition name = (do
              let outline ← Outline.ofSchema doc.dialect isDefinition name v.node
              outline.complete { shape := .generic }) ∧
            ∀ m, doc.modelAt start v isDefinition name = .ok m →
              m.shape = .generic ∧ m.type.text = "any" ∧ m.imports = [])) ∧
        (Pointer.reference? v.node = none → ∀ pending,
          (∀ p ∈ parts doc.dialect v.node, ∀ d n,
            doc.build pending d n p = doc.modelAt start ⟨v.expanded, p⟩ d n) →
          doc.build pending isDefinition name v.node = doc.modelAt start v isDefinition name) := by
  refine ⟨wellFounded_calls doc, model_eq_modelAt start isDefinition name, ?_⟩
  intro v hv
  have hpath := onPath_of_calls hv
  refine ⟨hpath.nodup, ?_, ?_⟩
  · intro ref hmem
    exact ⟨(mem_references.mp (hpath.expanded ref hmem)).2, hpath.expanded ref hmem⟩
  intro isDefinition name
  refine ⟨?_, fun hr pending hparts => build_congr hr hparts⟩
  intro ref hr
  refine ⟨fun hs => build_named hr hs, ?_, ?_⟩
  · intro hs hnew
    have hreferences := hpath.references (mem_references.mpr ⟨.inr (Pointer.reference?_mem hr), hs⟩)
    simp only [modelAt, remaining_cons]
    exact build_expand hr hs (mem_remaining.mpr ⟨hreferences, hnew⟩)
  · intro hs hmem
    have hgone : ref ∉ doc.remaining start v.expanded :=
      fun h => (mem_remaining.mp h).2 hmem
    exact ⟨build_again hr hs hgone, fun m hm => type_eq_any hm (build_again hr hs hgone)⟩

namespace Chain

def link : Node := .map [(.str "$ref", .str "#/shared")]

def shared : Node := .map [(.str "properties", .map [(.str "next", link)])]

def document : ApiDocument :=
  { dialect := .openApi3, root := .map [(.str "shared", shared)], schemas := [] }

theorem calls_link : Relation.ReflTransGen (Calls document) ⟨[], link⟩ ⟨["#/shared"], link⟩ := by
  have hexpand : Calls document ⟨[], link⟩ ⟨["#/shared"], shared⟩ :=
    .expand rfl (by decide) (by simp) rfl
  have hpart : Calls document ⟨["#/shared"], shared⟩ ⟨["#/shared"], link⟩ :=
    .part rfl (List.mem_append_right _ List.mem_cons_self)
  exact .tail (.single hexpand) hpart

/-- The second link of a chain stands for any value. -/
theorem modelAt_link : ["#/shared"].Nodup ∧
    document.modelAt link ⟨["#/shared"], link⟩ false (some "next") =
      .ok { name := "next", shape := .generic } := by
  obtain ⟨hnodup, -, hmodel⟩ := (build_terminates document link false "").2.2 _ calls_link
  have hagain := ((hmodel false (some "next")).1 "#/shared" rfl).2.2 (by decide) (by simp)
  exact ⟨hnodup, hagain.1⟩

end Chain

end ClientGen.ApiDocument
