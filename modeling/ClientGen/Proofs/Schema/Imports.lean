import ClientGen.Proofs.Schema.Expansion
import ClientGen.Proofs.Schema.MemberNames
import ClientGen.Proofs.Schema.TypeExpr
import Mathlib.Logic.Relation

/-! A model that is built imports all that it mentions, also inside of it. -/

namespace ClientGen

namespace Model

/-- A model held in another one. -/
inductive Child (m : Model) : Model → Prop
  | link {s : Model} (h : m.link = some s) : Child m s
  | property {s : Model} (h : s ∈ m.properties) : Child m s
  | enum {s : Model} (h : s ∈ m.enums) : Child m s

/-- A model held in another one at any depth. -/
def Nested (m s : Model) : Prop := Relation.TransGen Child m s

/-- A model whose type and parents are built in or imported, like those of the models in it. -/
inductive Complete : Model → Prop
  | intro {m : Model} (type : m.type.Scoped)
      (parents : ∀ p ∈ m.parents, p ∈ TypeExpr.builtIns ∨ p ∈ m.imports)
      (dictionary : m.shape = .dictionary → TypeExpr.dictionary ∈ m.imports)
      (imports : ∀ s, Child m s → ∀ n ∈ s.imports, n ∈ m.imports)
      (children : ∀ s, Child m s → s.Complete) : m.Complete

namespace Complete

variable {m s : Model}

theorem type (h : m.Complete) : m.type.Scoped := by
  cases h with | intro type => exact type

theorem parents (h : m.Complete) : ∀ p ∈ m.parents, p ∈ TypeExpr.builtIns ∨ p ∈ m.imports := by
  cases h with | intro _ parents => exact parents

theorem dictionary (h : m.Complete) (hs : m.shape = .dictionary) :
    TypeExpr.dictionary ∈ m.imports := by
  cases h with | intro _ _ dictionary => exact dictionary hs

theorem imports (h : m.Complete) (hs : Child m s) : ∀ n ∈ s.imports, n ∈ m.imports := by
  cases h with | intro _ _ _ imports => exact imports s hs

theorem child (h : m.Complete) (hs : Child m s) : s.Complete := by
  cases h with | intro _ _ _ _ children => exact children s hs

/-- Models that differ in their outlines only are complete together. -/
theorem congr (h : m.Complete) (hshape : s.shape = m.shape) (htype : s.type = m.type)
    (hlink : s.link = m.link) (hparents : s.parents = m.parents) (henums : s.enums = m.enums)
    (hproperties : s.properties = m.properties) : s.Complete := by
  have himports : s.imports = m.imports := congrArg TypeExpr.imports htype
  have hchild {t : Model} (ht : Child s t) : Child m t := by
    cases ht with
    | link ht => exact .link (hlink ▸ ht)
    | property ht => exact .property (hproperties ▸ ht)
    | enum ht => exact .enum (henums ▸ ht)
  refine ⟨htype ▸ h.type, ?_, ?_, ?_, fun t ht => h.child (hchild ht)⟩
  · rw [hparents, himports]
    exact h.parents
  · rw [hshape, himports]
    exact h.dictionary
  · intro t ht
    rw [himports]
    exact h.imports (hchild ht)

theorem applied (h : m.Complete) (outline : Outline) : (outline.applied m).Complete :=
  h.congr rfl rfl rfl rfl rfl rfl

theorem asProperty (h : m.Complete) (required : List Scalar) (key : Scalar) :
    (ApiDocument.asProperty required key m).Complete := h.congr rfl rfl rfl rfl rfl rfl

/-- What a model imports covers what the models in it import, at any depth. -/
theorem nested (h : m.Complete) (hs : Nested m s) :
    s.Complete ∧ ∀ n ∈ s.imports, n ∈ m.imports := by
  induction hs with
  | single hc => exact ⟨h.child hc, h.imports hc⟩
  | tail _ hc ih => exact ⟨ih.1.child hc, fun n hn => ih.2 n (ih.1.imports hc n hn)⟩

end Complete

theorem not_child_leaf (shape : Shape) (type : TypeExpr) (members : List EnumEntry) :
    ¬ Child { shape, type, members } s := by
  rintro (h | h | h)
  · cases h
  · exact List.not_mem_nil h
  · exact List.not_mem_nil h

theorem mem_of_child_ofProperties {properties : List Model}
    (h : Child (ofProperties properties) s) : s ∈ properties := by
  cases h with
  | link h => cases h
  | property h => exact h
  | enum h => exact (List.mem_filter.mp h).1

/-- A model without parts. -/
theorem Complete.leaf {shape : Shape} {type : TypeExpr} (members : List EnumEntry)
    (htype : type.Scoped) (hshape : shape ≠ .dictionary) : Complete { shape, type, members } := by
  refine ⟨htype, by simp, fun h => absurd h hshape, ?_, ?_⟩
  · exact fun s hs => absurd hs (not_child_leaf shape type members)
  · exact fun s hs => absurd hs (not_child_leaf shape type members)

end Model

namespace Composition

/-- Properties and parents of a composition are built in or imported. -/
structure Covered (c : Composition) : Prop where
  properties : ∀ p ∈ c.properties, p.Complete ∧ ∀ n ∈ p.imports, n ∈ c.imports
  parents : ∀ q ∈ c.parents, q ∈ TypeExpr.builtIns ∨ q ∈ c.imports

theorem covered_empty : Covered {} := ⟨by simp, by simp⟩

theorem Covered.append {a b : Composition} (ha : a.Covered) (hb : b.Covered) :
    (a.append b).Covered := by
  constructor
  · intro p hp
    rcases List.mem_append.mp hp with hp | hp
    · obtain ⟨hc, hi⟩ := ha.properties p hp
      exact ⟨hc, fun n hn => List.mem_append_left b.imports (hi n hn)⟩
    · obtain ⟨hc, hi⟩ := hb.properties p hp
      exact ⟨hc, fun n hn => List.mem_append_right a.imports (hi n hn)⟩
  · intro q hq
    rcases List.mem_append.mp hq with hq | hq
    · exact (ha.parents q hq).imp_right fun h => List.mem_append_left b.imports h
    · exact (hb.parents q hq).imp_right fun h => List.mem_append_right a.imports h

theorem covered_ofProperties {properties : List Model} (h : ∀ p ∈ properties, p.Complete) :
    (ofProperties properties).Covered :=
  ⟨fun p hp => ⟨h p hp, fun _ hn => List.mem_flatMap_of_mem hp hn⟩, by simp [ofProperties]⟩

theorem covered_ofReference (ref : String) : (ofReference (TypeExpr.ofText ref)).Covered :=
  ⟨by simp [ofReference], by simpa [ofReference] using (TypeExpr.scoped_ofText ref).base⟩

theorem covered_ofBranch (shape : Shape) {m : Model} (h : m.Complete) :
    (ofBranch shape m).Covered := by
  unfold ofBranch
  split_ifs
  · exact ⟨by simpa using h, by simp⟩
  · exact ⟨fun p hp => ⟨h.child (.property hp), h.imports (.property hp)⟩, by simp⟩
  · exact ⟨by simp, by simpa [Model.imports] using h.type.base⟩
  · exact ⟨by simp, by simp⟩

theorem mem_properties_of_child {c : Composition} {shape : Shape} {s : Model}
    (h : Model.Child (c.model shape) s) : s ∈ c.properties := by
  cases h with
  | link h => cases h
  | property h => exact h
  | enum h => exact (List.mem_filter.mp h).1

/-- The model of a composition holds the properties of its parts. -/
theorem Covered.complete {c : Composition} (h : c.Covered) {shape : Shape}
    (hshape : shape ≠ .dictionary) : (c.model shape).Complete := by
  refine ⟨TypeExpr.scoped_importing (nodup_distinct _), ?_, fun hs => absurd hs hshape, ?_, ?_⟩
  · intro q hq
    have hq := h.parents q (by simpa [model] using hq)
    exact hq.imp_right fun hq => by simpa [model, Model.imports] using hq
  · intro s hs n hn
    simpa [model, Model.imports] using (h.properties s (mem_properties_of_child hs)).2 n hn
  · exact fun s hs => (h.properties s (mem_properties_of_child hs)).1

end Composition

namespace Model

theorem complete_ofProperties {properties : List Model} (h : ∀ p ∈ properties, p.Complete) :
    (ofProperties properties).Complete := by
  refine ⟨TypeExpr.scoped_importing (nodup_distinct _), ?_, ?_, ?_, ?_⟩
  · exact fun p hp => absurd hp List.not_mem_nil
  · intro hs
    cases hs
  · intro s hs n hn
    exact mem_distinct.mpr (List.mem_flatMap_of_mem (mem_of_child_ofProperties hs) hn)
  · exact fun s hs => h s (mem_of_child_ofProperties hs)

end Model

private theorem Part.scoped_type {part : Part} (h : ∀ s m, part = .inline s m → m.Complete) :
    part.type.Scoped := by
  cases part with
  | named ref => exact TypeExpr.scoped_ofText ref
  | inline s m => exact (h s m rfl).type

/-- A collection imports what its items import. -/
private theorem complete_collection {shape : Shape} {type : TypeExpr} {part : Part}
    (hpart : ∀ s m, part = .inline s m → m.Complete) (htype : type.Scoped)
    (himports : ∀ n ∈ part.type.imports, n ∈ type.imports)
    (hshape : shape = .dictionary → TypeExpr.dictionary ∈ type.imports) :
    Model.Complete { shape, type, link := part.link } := by
  have hchild {s : Model} (hs : Model.Child { shape, type, link := part.link } s) :
      s.Complete ∧ s.type = part.type := by
    cases hs with
    | link hs =>
      cases part with
      | named ref => cases hs
      | inline node m =>
        obtain rfl : m = s := Option.some.inj hs
        exact ⟨hpart node m rfl, rfl⟩
    | property hs => exact absurd hs List.not_mem_nil
    | enum hs => exact absurd hs List.not_mem_nil
  refine ⟨htype, fun p hp => absurd hp List.not_mem_nil, hshape, ?_, fun s hs => (hchild hs).1⟩
  intro s hs n hn
  refine himports n ?_
  rwa [← (hchild hs).2]

private theorem covered_ofParts (shape : Shape) {parts : List Part}
    (h : ∀ s m, .inline s m ∈ parts → m.Complete) : (Composition.ofParts shape parts).Covered := by
  induction parts with
  | nil => exact Composition.covered_empty
  | cons part rest ih =>
    have hrest := ih fun s m hm => h s m (List.mem_cons_of_mem part hm)
    refine Composition.Covered.append ?_ hrest
    cases part with
    | named ref => exact Composition.covered_ofReference ref
    | inline s m => exact Composition.covered_ofBranch shape (h s m List.mem_cons_self)

private theorem complete_properties {required : List Scalar} {members : List Member}
    (h : ∀ p ∈ members, p.model.Complete) :
    ∀ p ∈ members.map (Member.property required), p.Complete := by
  intro p hp
  obtain ⟨member, hmem, rfl⟩ := List.mem_map.mp hp
  exact (h member hmem).asProperty required member.key

namespace ApiDocument

theorem memberType_mem_builtIns (members : List EnumEntry) :
    Model.memberType members ∈ TypeExpr.builtIns := by
  unfold Model.memberType
  split <;> decide

/-- The type of an enumeration is built in. -/
theorem enumModel?_cases {dialect : Dialect} {schema : Node} {m : Model}
    (h : enumModel? dialect schema = .ok (some m)) :
    ∃ base ∈ TypeExpr.builtIns, ∃ members, m = Model.ofMembers base members := by
  obtain ⟨source, members, -, -, -, rfl⟩ := source_of_enumModel? h
  have hnumber : "number" ∈ TypeExpr.builtIns := by decide
  refine ⟨source.base members, ?_, members, rfl⟩
  cases source with
  | listed => exact memberType_mem_builtIns _
  | described => exact hnumber

private theorem scoped_keywordType (kind : Node) : (keywordType kind).Scoped := by
  unfold keywordType
  split
  · exact TypeExpr.scoped_ofText _
  · exact TypeExpr.scoped_any

/-- The shape of a composition is one of the three kinds of composition. -/
theorem composition?_shape {dialect : Dialect} {schema : Node} {shape : Shape}
    {branches : List Node} (h : composition? dialect schema = some (shape, branches)) :
    shape = .oneOf ∨ shape = .anyOf ∨ shape = .allOf := by
  obtain ⟨keyword, hmem, -⟩ := get?_of_composition? h
  have hkeyword := compositions_subset dialect hmem
  simp only [List.mem_cons, List.not_mem_nil, or_false, Prod.mk.injEq] at hkeyword
  exact hkeyword.imp And.right (Or.imp And.right And.right)

/-- Whatever the shape of a schema, its model imports all that it mentions. -/
theorem complete_of_built {doc : ApiDocument} {isDefinition : Bool} {name : Option String}
    {schema : Node} {m : Model} (h : Built doc isDefinition name schema m) : m.Complete := by
  induction h with
  | noSchema => exact .applied (.leaf [] TypeExpr.scoped_any (by decide)) _
  | again => exact .applied (.leaf [] TypeExpr.scoped_any (by decide)) _
  | named => exact .applied (.leaf [] (TypeExpr.scoped_ofText _) (by decide)) _
  | target _ _ _ _ ih => exact ih
  | enum _ _ he =>
    obtain ⟨base, hbase, members, rfl⟩ := enumModel?_cases he
    exact .applied (.leaf members (TypeExpr.scoped_builtIn base hbase) (by decide)) _
  | array _ _ _ _ _ ih =>
    refine .applied (complete_collection ih (Part.scoped_type ih) (fun _ hn => hn) ?_) _
    intro hs
    cases hs
  | dictionary _ _ _ _ _ ih =>
    refine .applied (complete_collection ih (Part.scoped_type ih).inDictionary ?_ ?_) _
    · intro n hn
      simp [Model.inDictionary, hn]
    · simp [Model.inDictionary]
  | composition _ _ hc _ _ _ _ _ ihb ihm =>
    refine .applied (Composition.Covered.complete (.append (covered_ofParts _ ihb)
      (Composition.covered_ofProperties (complete_properties ihm))) ?_) _
    rcases composition?_shape hc with rfl | rfl | rfl <;> decide
  | interface _ _ _ _ _ ihm =>
    exact .applied (Model.complete_ofProperties (complete_properties ihm)) _
  | keyword => exact .applied (.leaf [] (scoped_keywordType _) (by decide)) _

end ApiDocument

end ClientGen
