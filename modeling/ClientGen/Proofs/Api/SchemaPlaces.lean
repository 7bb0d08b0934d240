import ClientGen.Proofs.Api.Services
import ClientGen.Proofs.Schema.Expansion
import ClientGen.Proofs.Schema.Imports
import ClientGen.Proofs.Schema.NamedSchemas

/-! The places of a document that hold schemas, and what the models of these schemas import. -/

namespace ClientGen

/-- The texts at the type keyword of a schema: one, or those in a list. -/
def typeTexts (schema : Node) : List String :=
  match schema.get? "type" with
  | some (.list items) => items.filterMap Node.text?
  | some kind => kind.text?.toList
  | none => []

/-- The schemas of the media types in a content. -/
def contentSchemas (content : Node) : List Node :=
  content.entries.filterMap fun media => media.2.get? "schema"

namespace ApiDocument

def HasEndpoint (doc : ApiDocument) (e : Endpoint) : Prop := ∃ es, doc.endpoints = .ok es ∧ e ∈ es

/-- The parameter object that an item of a parameter list stands for. A reference to a named schema
stands for itself. -/
def StandsFor (doc : ApiDocument) (raw node : Node) : Prop :=
  doc.isSchemaParameter raw ∧ node = raw ∨
    doc.isSchemaParameter raw = false ∧ doc.dereference raw = .ok node

/-- The first of some parameter objects is merged before the others. -/
theorem mergeParameters_cons {doc : ApiDocument} {merged result : List (ParameterKey × Node)}
    {raw : Node} {rest : List Node} (h : doc.mergeParameters merged (raw :: rest) = .ok result) :
    ∃ node key, doc.StandsFor raw node ∧ parameterKey? node = .ok key ∧
      doc.mergeParameters (key.elim merged fun key => mergeInto key node merged) rest =
        .ok result := by
  unfold mergeParameters at h
  obtain ⟨node, hnode, h⟩ := ite_bind_eq_ok.mp h
  have hnode : doc.StandsFor raw node := by
    split_ifs at hnode with hschema
    · exact .inl ⟨hschema, (pure_eq_ok.mp hnode).symm⟩
    · exact .inr ⟨by simpa using hschema, hnode⟩
  obtain ⟨key, hkey, h⟩ := bind_eq_ok.mp h
  refine ⟨node, key, hnode, hkey, ?_⟩
  cases key <;> exact h

/-- The parameter objects of a document. -/
def IsParameter (doc : ApiDocument) (node : Node) : Prop :=
  ∃ e, doc.HasEndpoint e ∧ ∃ list, (list = e.shared ∨ e.node.get? "parameters" = some list) ∧
    ∃ items, list.walk = .ok items ∧ ∃ raw ∈ items, doc.StandsFor raw node

/-- The schemas of a response. -/
def responseSchemas (dialect : Dialect) (response : Node) : List Node :=
  match dialect with
  | .swagger2 => (response.get? "schema").toList
  | .openApi3 => ((response.get? "content").map contentSchemas).getD []

/-- The places of schemas: named ones, those of parameters, bodies and responses, and those that
these lead to. In a Swagger 2.0 document a parameter object is itself a schema. -/
inductive SchemaAt (doc : ApiDocument) : Node → Prop
  | named {key schema} (h : (key, schema) ∈ doc.schemas) : SchemaAt doc schema
  | part {schema p} (h : SchemaAt doc schema) (hr : Pointer.reference? schema = none)
      (hp : p ∈ parts doc.dialect schema) : SchemaAt doc p
  | target {schema ref node} (h : SchemaAt doc schema)
      (hr : Pointer.reference? schema = some ref) (hs : doc.dialect.isSchemaRef ref = false)
      (ht : doc.resolve ref = .ok node) : SchemaAt doc node
  | parameter {node} (h : doc.IsParameter node)
      (hs : doc.dialect = .swagger2 ∨ (Pointer.reference? node).isSome) : SchemaAt doc node
  | parameterSchema {node schema} (h : doc.IsParameter node)
      (hs : node.get? "schema" = some schema) : SchemaAt doc schema
  | parameterItems {node items} (h : doc.IsParameter node) (hd : doc.dialect = .swagger2)
      (hi : node.get? "items" = some items) : SchemaAt doc items
  | parameterContent {node content schema} (h : doc.IsParameter node)
      (hd : doc.dialect = .openApi3) (hc : node.get? "content" = some content)
      (hs : schema ∈ contentSchemas content) : SchemaAt doc schema
  | body {e raw body content schema} (h : doc.HasEndpoint e) (hd : doc.dialect = .openApi3)
      (hb : e.node.get? requestBody = some raw) (ht : doc.dereference raw = .ok body)
      (hc : body.get? "content" = some content) (hs : schema ∈ contentSchemas content) :
      SchemaAt doc schema
  | response {e responses code raw response schema} (h : doc.HasEndpoint e)
      (hr : e.node.get? "responses" = some responses) (hc : (code, raw) ∈ responses.entries)
      (ht : doc.dereference raw = .ok response)
      (hs : schema ∈ responseSchemas doc.dialect response) : SchemaAt doc schema

/-- Documents whose keys of named schemas are plain, and whose type keywords are no references. -/
structure Conventional (doc : ApiDocument) : Prop where
  keys : ∀ e ∈ doc.schemas, IsSchemaKey e.1
  types : ∀ schema, doc.SchemaAt schema → ∀ s ∈ typeTexts schema, '/' ∉ s.toList ∧ '#' ∉ s.toList

/-- A name that a client may import: the dictionary or a declared one. -/
def Declares (doc : ApiDocument) (n : String) : Prop :=
  n = TypeExpr.dictionary ∨ ∃ d ∈ doc.declarations, d.name = n

variable {doc : ApiDocument}

theorem mem_typeTexts {schema kind : Node} (hk : schema.member "type" = .ok kind) {s : String}
    (hs : typeKeyword? kind = some s) : s ∈ typeTexts schema := by
  have hnull : kind ≠ .null := by
    rintro rfl
    cases hs
  unfold typeTexts
  rw [Node.get?_of_member hk hnull]
  cases kind with
  | list items =>
    obtain ⟨item, hfind, htext⟩ := Option.bind_eq_some_iff.mp hs
    exact List.mem_filterMap.mpr ⟨item, List.mem_of_find?_eq_some hfind, htext⟩
  | scalar s => exact Option.mem_toList.mpr hs
  | map es => cases hs

private theorem mem_of_inline {nodes : List Node} {ps : List Part} {s : Node} {m : Model}
    (hp : List.Forall₂ doc.IsPart nodes ps) (h : .inline s m ∈ ps) : s ∈ nodes := by
  obtain ⟨node, hnode, rfl⟩ := (exists_mem_of_forall₂ hp).2 _ h
  exact hnode

namespace Conventional

theorem imports_keywordType (h : doc.Conventional) {schema kind : Node} (hs : doc.SchemaAt schema)
    (hk : schema.member "type" = .ok kind) : (keywordType kind).imports = [] := by
  unfold keywordType
  split
  · next s hkeyword =>
    obtain ⟨hslash, hhash⟩ := h.types schema hs s (mem_typeTexts hk hkeyword)
    exact TypeExpr.imports_ofText_keyword hslash hhash
  · rfl

theorem declares_named (h : doc.Conventional) {ref : String} (hn : doc.IsNamed ref) :
    ∀ n ∈ (TypeExpr.ofText ref).imports, doc.Declares n :=
  fun n hmem => .inr (hn.imports h.keys n hmem)

/-- What a part of a schema imports is declared if this holds of inline models. -/
private theorem declares_part (h : doc.Conventional) {node : Node} {part : Part}
    (hp : doc.IsPart node part)
    (hinline : ∀ s m, part = .inline s m → ∀ n ∈ m.imports, doc.Declares n) :
    ∀ n ∈ part.type.imports, doc.Declares n := by
  cases part with
  | named ref =>
    dsimp only [Part.type]
    exact h.declares_named hp.2
  | inline s m => exact hinline s m rfl

private theorem declares_ofParts (h : doc.Conventional) (shape : Shape) {nodes : List Node}
    {ps : List Part} (hp : List.Forall₂ doc.IsPart nodes ps)
    (hinline : ∀ s m, .inline s m ∈ ps → ∀ n ∈ m.imports, doc.Declares n) :
    ∀ n ∈ (Composition.ofParts shape ps).imports, doc.Declares n := by
  induction hp with
  | nil => simp [Composition.ofParts]
  | @cons node part nodes ps hpart _ ih =>
    intro n hn
    have hown : ∀ n ∈ (part.contribution shape).imports, doc.Declares n := by
      have hpart := h.declares_part hpart
        fun s m heq => hinline s m (heq ▸ List.mem_cons_self)
      cases part with
      | named ref =>
        dsimp only [Part.contribution, Composition.ofReference]
        dsimp only [Part.type] at hpart
        exact hpart
      | inline s m =>
        intro n hn
        refine hpart n ?_
        unfold Part.contribution Composition.ofBranch at hn
        dsimp only at hn
        split_ifs at hn <;> exact hn
    rcases List.mem_append.mp hn with hn | hn
    · exact hown n hn
    · exact ih (fun s m hm => hinline s m (List.mem_cons_of_mem _ hm)) n hn

private theorem mem_parts_of_member {schema : Node} {members : List Member} {p : Member}
    (he : (properties? schema).getD [] = members.map Member.entry) (hp : p ∈ members) :
    p.schema ∈ parts doc.dialect schema := by
  have hmem : p.entry ∈ (properties? schema).getD [] := he ▸ List.mem_map_of_mem hp
  exact mem_parts_of_properties hmem

private theorem declares_members {required : List Scalar} {members : List Member}
    (h : ∀ p ∈ members, ∀ n ∈ p.model.imports, doc.Declares n) :
    ∀ n ∈ (members.map (Member.property required)).flatMap Model.imports, doc.Declares n := by
  intro n hn
  obtain ⟨m, hm, hn⟩ := List.mem_flatMap.mp hn
  obtain ⟨p, hp, rfl⟩ := List.mem_map.mp hm
  exact h p hp n hn

/-- Models of the schemas of a document import what the document declares. -/
theorem declares_of_built (h : doc.Conventional) {isDefinition : Bool} {name : Option String}
    {schema : Node} {m : Model} (hb : Built doc isDefinition name schema m)
    (hs : doc.SchemaAt schema) : ∀ n ∈ m.imports, doc.Declares n := by
  induction hb with
  | noSchema => exact fun n hn => absurd hn List.not_mem_nil
  | again => exact fun n hn => absurd hn List.not_mem_nil
  | named _ _ hn =>
    dsimp only [Outline.applied, Model.imports]
    exact h.declares_named hn
  | target hr href ht _ ih => exact ih (.target hs hr href ht)
  | enum _ _ he =>
    obtain ⟨_, _, _, rfl⟩ := enumModel?_cases he
    exact fun n hn => absurd hn List.not_mem_nil
  | array _ hr hi hp _ ih =>
    refine h.declares_part hp fun s m heq => ih s m heq ?_
    subst heq
    exact .part hs hr (hp ▸ mem_parts_of_items hi)
  | dictionary _ hr hv hp _ ih =>
    intro n hn
    rcases List.mem_append.mp (mem_distinct.mp hn) with hn | hn
    · refine h.declares_part hp (fun s m heq => ih s m heq ?_) n hn
      subst heq
      exact .part hs hr (hp ▸ mem_parts_of_values hv)
    · exact .inl (List.mem_singleton.mp hn)
  | composition _ hr hc hp _ he _ _ ihb ihm =>
    intro n hn
    rcases List.mem_append.mp (mem_distinct.mp hn) with hn | hn
    · refine h.declares_ofParts _ hp (fun s m hm => ihb s m hm ?_) n hn
      have hbranch := (List.mem_filter.mp (mem_of_inline hp hm)).1
      exact .part hs hr (mem_parts_of_branches hc hbranch)
    · exact declares_members (fun p hp => ihm p hp (.part hs hr (mem_parts_of_member he hp))) n hn
  | interface _ hr he _ _ ihm =>
    intro n hn
    have he : (properties? _).getD [] = _ := congrArg (Option.getD · []) he
    exact declares_members (fun p hp => ihm p hp (.part hs hr (mem_parts_of_member he hp))) n
      (mem_distinct.mp hn)
  | @keyword _ _ _ _ kind _ _ hk =>
    intro n hn
    have hmem : n ∈ (keywordType kind).imports := hn
    rw [h.imports_keywordType hs hk] at hmem
    exact absurd hmem List.not_mem_nil

end Conventional

end ApiDocument

end ClientGen
