import ClientGen.Proofs.Schema.Expansion
import ClientGen.Proofs.Schema.Imports

/-! The models inside a model: each of them is made from a schema that the schema of the whole leads
to. -/

namespace ClientGen

namespace Model

/-- A model itself, and the models held in it at any depth. -/
def Holds (m s : Model) : Prop := Relation.ReflTransGen Child m s

variable {m s : Model}

theorem Child.of_applied {outline : Outline} (h : Child (outline.applied m) s) : Child m s := by
  cases h with
  | link h => exact .link h
  | property h => exact .property h
  | enum h => exact .enum h

theorem Child.of_asProperty {required : List Scalar} {key : Scalar}
    (h : Child (ApiDocument.asProperty required key m) s) : Child m s := by
  cases h with
  | link h => exact .link h
  | property h => exact .property h
  | enum h => exact .enum h

end Model

namespace Composition

/-- Branches of an intersection give their properties to the whole. -/
theorem properties_ofBranch_allOf (m : Model) : (ofBranch .allOf m).properties = m.properties := by
  unfold ofBranch
  rw [if_neg (by simp)]
  cases hp : m.properties with
  | nil => split_ifs <;> simp_all
  | cons p ps => simp

/-- Branches of a union are themselves its properties. -/
theorem properties_ofBranch {shape : Shape} (h : shape ≠ .allOf) (m : Model) :
    (ofBranch shape m).properties = [m] := by
  rw [ofBranch, if_pos h]

theorem properties_ofParts_allOf (parts : List Part) :
    (ofParts .allOf parts).properties = (parts.filterMap Part.link).flatMap Model.properties := by
  induction parts with
  | nil => rfl
  | cons part rest ih =>
    cases part with
    | named ref => exact ih
    | inline s m =>
      change (ofBranch .allOf m).properties ++ (ofParts .allOf rest).properties = _
      rw [properties_ofBranch_allOf, ih]
      rfl

theorem properties_ofParts {shape : Shape} (h : shape ≠ .allOf) (parts : List Part) :
    (ofParts shape parts).properties = parts.filterMap Part.link := by
  induction parts with
  | nil => rfl
  | cons part rest ih =>
    cases part with
    | named ref => exact ih
    | inline s m =>
      change (ofBranch shape m).properties ++ (ofParts shape rest).properties = _
      rw [properties_ofBranch h, ih]
      rfl

end Composition

/-- The models of the parts that have one. -/
theorem Part.mem_filterMap_link {parts : List Part} {m : Model} :
    m ∈ parts.filterMap Part.link ↔ ∃ s, .inline s m ∈ parts := by
  rw [List.mem_filterMap]
  constructor
  · rintro ⟨part, hpart, hlink⟩
    cases part with
    | named ref => cases hlink
    | inline s r => exact ⟨s, Option.some.inj hlink ▸ hpart⟩
  · rintro ⟨s, hs⟩
    exact ⟨_, hs, rfl⟩

namespace ApiDocument

/-- The schemas that the builder may come to from a schema. -/
inductive LeadsTo (doc : ApiDocument) (start : Node) : Node → Prop
  | self : LeadsTo doc start start
  | part {schema node} (h : LeadsTo doc start schema) (hr : Pointer.reference? schema = none)
      (hp : node ∈ parts doc.dialect schema) : LeadsTo doc start node
  | target {schema ref node} (h : LeadsTo doc start schema)
      (hr : Pointer.reference? schema = some ref) (hs : doc.dialect.isSchemaRef ref = false)
      (ht : doc.resolve ref = .ok node) : LeadsTo doc start node

/-- The way from a schema, over the references that are followed, to a schema that is none. -/
inductive Follows (doc : ApiDocument) : Node → Node → Prop
  | self {schema} (hr : Pointer.reference? schema = none) : Follows doc schema schema
  | target {schema ref node last} (hr : Pointer.reference? schema = some ref)
      (hs : doc.dialect.isSchemaRef ref = false) (ht : doc.resolve ref = .ok node)
      (h : Follows doc node last) : Follows doc schema last

/-- A model made from a schema; as a property it has, besides, the marks that its place gives it. -/
inductive MadeFrom (doc : ApiDocument) (node : Node) : Model → Prop
  | own {pending isDefinition name m} (hb : doc.build pending isDefinition name node = .ok m) :
      MadeFrom doc node m
  | property {pending required key m}
      (hb : doc.build pending false (Scalar.text? key) node = .ok m) :
      MadeFrom doc node (asProperty required key m)

/-- A model made from a schema that `start` leads to. -/
def BuiltInside (doc : ApiDocument) (start : Node) (m : Model) : Prop :=
  ∃ node, doc.LeadsTo start node ∧ doc.MadeFrom node m

/-- A model in a place inside the model of `start`: no such place defines a named schema. -/
structure BuiltWithin (doc : ApiDocument) (start : Node) (m : Model) : Prop where
  inside : doc.BuiltInside start m
  anonymous : m.isDefinition = false

variable {doc : ApiDocument} {pending : List String}

theorem LeadsTo.trans {start schema node : Node} (h : doc.LeadsTo start schema)
    (hn : doc.LeadsTo schema node) : doc.LeadsTo start node := by
  induction hn with
  | self => exact h
  | part _ hr hp ih => exact .part ih hr hp
  | target _ hr hs ht ih => exact .target ih hr hs ht

theorem Follows.leadsTo {schema node : Node} (h : doc.Follows schema node) :
    doc.LeadsTo schema node := by
  induction h with
  | self => exact .self
  | target hr hs ht _ ih => exact LeadsTo.trans (.target .self hr hs ht) ih

theorem BuiltInside.mono {start schema : Node} {s : Model} (h : doc.BuiltInside schema s)
    (hl : doc.LeadsTo start schema) : doc.BuiltInside start s := by
  obtain ⟨node, hn, hs⟩ := h
  exact ⟨node, hl.trans hn, hs⟩

theorem BuiltWithin.mono {start schema : Node} {s : Model} (h : doc.BuiltWithin schema s)
    (hl : doc.LeadsTo start schema) : doc.BuiltWithin start s := ⟨h.inside.mono hl, h.anonymous⟩

/-- The place of a model has no say in its shape, its members and its properties. -/
theorem MadeFrom.exists_build {node : Node} {s : Model} (h : doc.MadeFrom node s) :
    ∃ pending isDefinition name m, doc.build pending isDefinition name node = .ok m ∧
      s.shape = m.shape ∧ s.members = m.members ∧ s.properties = m.properties := by
  cases h with
  | own hb => exact ⟨_, _, _, _, hb, rfl, rfl, rfl⟩
  | property hb => exact ⟨_, _, _, _, hb, rfl, rfl, rfl⟩

theorem leadsTo_of_branch {schema s : Node} {shape : Shape} {branches : List Node}
    (hr : Pointer.reference? schema = none)
    (hc : composition? doc.dialect schema = some (shape, branches)) (hs : s ∈ branches) :
    doc.LeadsTo schema s := .part .self hr (mem_parts_of_branches hc hs)

/-- The properties of a schema are built inside of it. -/
theorem inside_of_members {schema : Node} {required : List Scalar} {members : List Member}
    (hr : Pointer.reference? schema = none)
    (hm : doc.MakesMembers pending ((properties? schema).getD []) members) {s : Model}
    (hs : s ∈ members.map (Member.property required)) : doc.BuiltWithin schema s := by
  obtain ⟨p, hp, rfl⟩ := List.mem_map.mp hs
  have hentry : p.entry ∈ (properties? schema).getD [] := hm.entries ▸ List.mem_map_of_mem hp
  have hl : doc.LeadsTo schema p.schema := .part .self hr (mem_parts_of_properties hentry)
  exact ⟨⟨p.schema, hl, .property (hm.models p hp)⟩, rfl⟩

theorem inside_of_part {schema node : Node} {part : Part} {s : Model}
    (hl : doc.LeadsTo schema node) (hp : doc.MakesPart pending node part)
    (hs : part.link = some s) : doc.BuiltWithin schema s := by
  cases part with
  | named ref => cases hs
  | inline n m =>
    obtain rfl := Option.some.inj hs
    obtain ⟨rfl, -, hb⟩ := hp
    exact ⟨⟨_, hl, .own hb⟩, isDefinition_of_build hb⟩

/-- A model right inside a model that is built is built as well. The induction follows the branches
of intersections, which hand on their properties, and the references that are followed. -/
theorem inside_of_child {isDefinition : Bool} {name : Option String} {schema : Node} {m s : Model}
    (h : doc.build pending isDefinition name schema = .ok m) (hs : m.Child s) :
    doc.BuiltWithin schema s := by
  induction pending, schema using buildInduction generalizing isDefinition name m s with
  | step pending schema targets smaller =>
    cases step_of_build h with
    | noSchema => exact absurd hs.of_applied (Model.not_child_leaf _ _ _)
    | target hr hsr hp ht hb => exact (targets _ hp _ hb hs).mono (.target .self hr hsr ht)
    | made _ _ _ hm =>
      replace hs := hs.of_applied
      cases hm with
      | named => exact absurd hs (Model.not_child_leaf _ _ _)
      | again => exact absurd hs (Model.not_child_leaf _ _ _)
      | enum _ he =>
        obtain ⟨_, _, _, rfl⟩ := enumModel?_cases he
        exact absurd hs (Model.not_child_leaf _ _ _)
      | plain hr _ _ hm =>
        cases hm with
        | array hi hp =>
          cases hs with
          | link hs => exact inside_of_part (.part .self hr (mem_parts_of_items hi)) hp hs
          | property hs => exact absurd hs List.not_mem_nil
          | enum hs => exact absurd hs List.not_mem_nil
        | dictionary _ hv hp =>
          cases hs with
          | link hs => exact inside_of_part (.part .self hr (mem_parts_of_values hv)) hp hs
          | property hs => exact absurd hs List.not_mem_nil
          | enum hs => exact absurd hs List.not_mem_nil
        | @composition shape branches parts required members _ _ hc hp hm _ =>
          replace hs := Composition.mem_properties_of_child hs
          rcases List.mem_append.mp hs with hs | hs
          · by_cases hshape : shape = .allOf
            · subst hshape
              rw [Composition.properties_ofParts_allOf] at hs
              obtain ⟨b, hb, hs⟩ := List.mem_flatMap.mp hs
              obtain ⟨node, hnode⟩ := Part.mem_filterMap_link.mp hb
              obtain ⟨⟨hbranch, -⟩, -, hb⟩ := branch_of_inline hp hnode
              have hlt := sizeOf_composition? hc
              have hsize := List.sizeOf_lt_of_mem hbranch
              have hinside := smaller node (by omega) hb (.property hs)
              exact hinside.mono (leadsTo_of_branch hr hc hbranch)
            · rw [Composition.properties_ofParts hshape] at hs
              obtain ⟨node, hnode⟩ := Part.mem_filterMap_link.mp hs
              obtain ⟨⟨hbranch, -⟩, -, hb⟩ := branch_of_inline hp hnode
              have hl := leadsTo_of_branch hr hc hbranch
              exact ⟨⟨node, hl, .own hb⟩, isDefinition_of_build hb⟩
          · exact inside_of_members hr hm hs
        | interface _ _ _ _ hm _ =>
          exact inside_of_members hr hm (Model.mem_of_child_ofProperties hs)
        | keyword => exact absurd hs (Model.not_child_leaf _ _ _)

theorem MadeFrom.inside_of_child {node : Node} {m s : Model} (h : doc.MadeFrom node m)
    (hs : m.Child s) : doc.BuiltWithin node s := by
  cases h with
  | own hb => exact ApiDocument.inside_of_child hb hs
  | property hb => exact ApiDocument.inside_of_child hb hs.of_asProperty

/-- Every model in a model that is built is made from a schema that is led to. -/
theorem inside_of_holds {isDefinition : Bool} {name : Option String} {schema : Node} {m s : Model}
    (h : doc.build pending isDefinition name schema = .ok m) (hs : m.Holds s) :
    doc.BuiltInside schema s := by
  induction hs with
  | refl => exact ⟨schema, .self, .own h⟩
  | tail _ hc ih =>
    obtain ⟨node, hl, hs⟩ := ih
    exact (hs.inside_of_child hc).inside.mono hl

/-- No model in a model that is built defines a named schema. -/
theorem isDefinition_of_nested {isDefinition : Bool} {name : Option String} {schema : Node}
    {m s : Model} (h : doc.build pending isDefinition name schema = .ok m) (hs : m.Nested s) :
    s.isDefinition = false := by
  obtain ⟨holder, hholder, hc⟩ := Relation.TransGen.tail'_iff.mp hs
  obtain ⟨node, -, hmade⟩ := inside_of_holds h hholder
  exact (hmade.inside_of_child hc).anonymous

end ApiDocument

end ClientGen
