import ClientGen.Proofs.Document.Keyed
import ClientGen.Proofs.Schema.Inside

/-! The properties of object-like models: an object has one for each of its keys, and an
intersection takes over those of its branches, one branch after the other. -/

namespace ClientGen

namespace ApiDocument

/-- The schemas whose properties a schema takes over: the branches of an intersection, at any depth,
and those that are referred to. -/
inductive Merges (doc : ApiDocument) (start : Node) : Node → Prop
  | self : Merges doc start start
  | branch {schema branches node} (h : Merges doc start schema)
      (hr : Pointer.reference? schema = none)
      (hc : composition? doc.dialect schema = some (.allOf, branches)) (hb : node ∈ branches) :
      Merges doc start node
  | target {schema ref node} (h : Merges doc start schema)
      (hr : Pointer.reference? schema = some ref) (hs : doc.dialect.isSchemaRef ref = false)
      (ht : doc.resolve ref = .ok node) : Merges doc start node

/-- The properties that the `properties` object of a schema makes. -/
def OfObject (doc : ApiDocument) (schema : Node) (ps : List Model) : Prop :=
  ∃ pending required members, doc.MakesMembers pending ((properties? schema).getD []) members ∧
    (properties? schema = none ∨ requiredKeys schema = .ok required) ∧
    ps = members.map (Member.property required)

/-- The alternatives of a union with a model of their own. -/
def OfUnion (doc : ApiDocument) (schema : Node) (ps : List Model) : Prop :=
  ∃ pending shape branches parts, composition? doc.dialect schema = some (shape, branches) ∧
    shape ≠ .allOf ∧ List.Forall₂ (doc.MakesPart pending) (branches.filter Node.isMap) parts ∧
    ps = parts.filterMap Part.link

/-- Properties that a schema takes over together: those of one object, or of one union. -/
def IsBlock (doc : ApiDocument) (schema : Node) (ps : List Model) : Prop :=
  ∃ node, doc.Merges schema node ∧ (doc.OfObject node ps ∨ doc.OfUnion node ps)

/-- A property made from an entry of a `properties` object under the entry's key. -/
def FromEntry (doc : ApiDocument) (start : Node) (p : Model) : Prop :=
  ∃ schema es value pending required m, doc.LeadsTo start schema ∧ properties? schema = some es ∧
    (.str p.name, value) ∈ es ∧ doc.build pending false (some p.name) value = .ok m ∧
    requiredKeys schema = .ok required ∧ p = asProperty required (.str p.name) m

/-- Properties from entries, no two of them of one name. -/
structure IsRecord (doc : ApiDocument) (start : Node) (ps : List Model) : Prop where
  entries : ∀ p ∈ ps, doc.FromEntry start p
  names : (ps.map (·.name)).Nodup

variable {doc : ApiDocument} {pending : List String}

theorem Merges.trans {start schema node : Node} (h : doc.Merges start schema)
    (hn : doc.Merges schema node) : doc.Merges start node := by
  induction hn with
  | self => exact h
  | branch _ hr hc hb ih => exact .branch ih hr hc hb
  | target _ hr hs ht ih => exact .target ih hr hs ht

theorem IsBlock.mono {schema node : Node} {ps : List Model} (h : doc.IsBlock node ps)
    (hm : doc.Merges schema node) : doc.IsBlock schema ps := by
  obtain ⟨inner, hinner, hof⟩ := h
  exact ⟨inner, hm.trans hinner, hof⟩

theorem Merges.leadsTo {start node : Node} (h : doc.Merges start node) :
    doc.LeadsTo start node := by
  induction h with
  | self => exact .self
  | branch _ hr hc hb ih => exact .part ih hr (mem_parts_of_branches hc hb)
  | target _ hr hs ht ih => exact .target ih hr hs ht

theorem keyed_parts {dialect : Dialect} {schema p : Node} (h : schema.Keyed)
    (hp : p ∈ parts dialect schema) : p.Keyed := by
  rcases parts_cases hp with ⟨key, hp⟩ | ⟨shape, branches, hc, hp⟩ | ⟨es, key, hes, hp⟩
  · exact h.get? hp
  · obtain ⟨keyword, -, hk⟩ := get?_of_composition? hc
    exact (h.get? hk).item hp
  · exact (h.get? (get?_of_properties? hes)).value hp

theorem LeadsTo.keyed {start node : Node} (h : doc.LeadsTo start node) (hroot : doc.root.Keyed)
    (hstart : start.Keyed) : node.Keyed := by
  induction h with
  | self => exact hstart
  | part _ _ hp ih => exact keyed_parts ih hp
  | target _ _ _ ht _ => exact hroot.resolve ht

theorem distinct_properties {schema : Node} (h : schema.Keyed) :
    ((properties? schema).getD []).Distinct := by
  cases hes : properties? schema with
  | none => exact List.Pairwise.nil
  | some es => exact (h.get? (get?_of_properties? hes)).distinct

/-- The properties of an object are a record. -/
theorem OfObject.isRecord {start schema : Node} {ps : List Model} (h : doc.OfObject schema ps)
    (hl : doc.LeadsTo start schema) (hkeyed : schema.Keyed) : doc.IsRecord start ps := by
  obtain ⟨pending, required, members, hm, hq, rfl⟩ := h
  constructor
  · intro p hp
    obtain ⟨⟨key, value, m⟩, hmem, rfl⟩ := List.mem_map.mp hp
    have hkey : key = .str m.name := hm.key_eq hmem
    subst hkey
    have hentry : (.str m.name, value) ∈ (properties? schema).getD [] :=
      hm.entries ▸ List.mem_map_of_mem hmem
    have hrequired := hm.requiredKeys_eq hq hmem
    cases hes : properties? schema with
    | none => simp [hes] at hentry
    | some es =>
      rw [hes] at hentry
      exact ⟨schema, es, value, pending, required, m, hl, hes, hentry, hm.models _ hmem, hrequired,
        rfl⟩
  · have hdistinct := distinct_properties hkeyed
    rw [hm.entries, Entries.Distinct, List.pairwise_map] at hdistinct
    rw [List.map_map, List.Nodup, List.pairwise_map]
    refine hdistinct.imp_of_mem fun {a b} ha hb hne heq => ?_
    have hsame : a.model.name = b.model.name := by
      rwa [Function.comp_apply, Function.comp_apply, hm.name_property required ha,
        hm.name_property required hb] at heq
    rw [Member.entry, Member.entry, hm.key_eq ha, hm.key_eq hb, hsame] at hne
    exact absurd (Scalar.sameKey_str.mpr rfl) (Bool.eq_false_iff.mp hne)

/-- The alternatives of a union have no names. -/
theorem OfUnion.name_eq {schema : Node} {ps : List Model} (h : doc.OfUnion schema ps) :
    ∀ p ∈ ps, p.name = "" := by
  obtain ⟨pending, shape, branches, parts, -, -, hp, rfl⟩ := h
  intro p hmem
  obtain ⟨node, hnode⟩ := Part.mem_filterMap_link.mp hmem
  obtain ⟨-, -, hb⟩ := branch_of_inline hp hnode
  exact (Option.some.inj (name_of_build hb)).symm

theorem exists_blocks {P : List Model → Prop} {ms : List Model}
    (h : ∀ m ∈ ms, ∃ blocks : List (List Model), m.properties = blocks.flatten ∧
      ∀ block ∈ blocks, P block) :
    ∃ blocks : List (List Model), ms.flatMap Model.properties = blocks.flatten ∧
      ∀ block ∈ blocks, P block := by
  induction ms with
  | nil => exact ⟨[], rfl, by simp⟩
  | cons m rest ih =>
    obtain ⟨hm, hrest⟩ := List.forall_mem_cons.mp h
    obtain ⟨blocks, heq, hblocks⟩ := hm
    obtain ⟨others, hothers, hp⟩ := ih hrest
    refine ⟨blocks ++ others, ?_, List.forall_mem_append.mpr ⟨hblocks, hp⟩⟩
    rw [List.flatMap_cons, heq, hothers, List.flatten_append]

/-- The properties of a model come in blocks that its schema takes over. -/
theorem blocks_of_build {isDefinition : Bool} {name : Option String} {schema : Node} {m : Model}
    (h : doc.build pending isDefinition name schema = .ok m) :
    ∃ blocks : List (List Model), m.properties = blocks.flatten ∧
      ∀ block ∈ blocks, doc.IsBlock schema block := by
  have hnone {s : Node} : ∃ blocks : List (List Model), [] = blocks.flatten ∧
      ∀ block ∈ blocks, doc.IsBlock s block := ⟨[], rfl, by simp⟩
  induction pending, schema using buildInduction generalizing isDefinition name m with
  | step pending schema targets smaller =>
    cases step_of_build h with
    | noSchema => exact hnone
    | target hr hs hp ht hb =>
      obtain ⟨blocks, heq, hblocks⟩ := targets _ hp _ hb
      exact ⟨blocks, heq, fun block hblock => (hblocks block hblock).mono (.target .self hr hs ht)⟩
    | made _ _ _ hm =>
      cases hm with
      | named => exact hnone
      | again => exact hnone
      | enum _ he =>
        obtain ⟨_, _, _, rfl⟩ := enumModel?_cases he
        exact hnone
      | plain hr _ _ hm =>
        cases hm with
        | array => exact hnone
        | dictionary => exact hnone
        | @composition shape branches parts required members _ _ hc hp hm hq =>
          have hown : doc.IsBlock schema (members.map (Member.property required)) :=
            ⟨schema, .self, .inl ⟨pending, required, members, hm, hq, rfl⟩⟩
          have hparts : ∃ blocks : List (List Model),
              (Composition.ofParts shape parts).properties = blocks.flatten ∧
              ∀ block ∈ blocks, doc.IsBlock schema block := by
            by_cases hshape : shape = .allOf
            · subst hshape
              rw [Composition.properties_ofParts_allOf]
              refine exists_blocks fun b hb => ?_
              obtain ⟨node, hnode⟩ := Part.mem_filterMap_link.mp hb
              obtain ⟨⟨hbranch, -⟩, -, hb⟩ := branch_of_inline hp hnode
              have hlt := sizeOf_composition? hc
              have hsize := List.sizeOf_lt_of_mem hbranch
              obtain ⟨blocks, heq, hblocks⟩ := smaller node (by omega) hb
              exact ⟨blocks, heq, fun block hblock =>
                (hblocks block hblock).mono (.branch .self hr hc hbranch)⟩
            · rw [Composition.properties_ofParts hshape]
              refine ⟨[_], List.flatten_singleton.symm, List.forall_mem_singleton.mpr ?_⟩
              exact ⟨schema, .self, .inr ⟨pending, shape, branches, parts, hc, hshape, hp, rfl⟩⟩
          obtain ⟨blocks, heq, hblocks⟩ := hparts
          refine ⟨blocks ++ [members.map (Member.property required)], ?_, ?_⟩
          · rw [List.flatten_append, List.flatten_singleton, ← heq]
            rfl
          · exact List.forall_mem_append.mpr ⟨hblocks, List.forall_mem_singleton.mpr hown⟩
        | @interface required members _ _ _ _ hm hq =>
          refine ⟨[members.map (Member.property required)], List.flatten_singleton.symm, ?_⟩
          exact List.forall_mem_singleton.mpr
            ⟨schema, .self, .inl ⟨pending, required, members, hm, .inr hq, rfl⟩⟩
        | keyword => exact hnone

/-- An interface has the properties of one object, which its schema is or refers to. -/
theorem interface_of_build {isDefinition : Bool} {name : Option String} {schema : Node} {m : Model}
    (h : doc.build pending isDefinition name schema = .ok m) (hshape : m.shape = .interface) :
    ∃ node, doc.Follows schema node ∧ (properties? node).isSome ∧
      doc.OfObject node m.properties := by
  induction pending, schema using buildInduction with
  | step pending schema targets smaller =>
    cases step_of_build h with
    | noSchema => cases hshape
    | target hr hs hp ht hb =>
      obtain ⟨node, hn, hof⟩ := targets _ hp _ hb
      exact ⟨node, .target hr hs ht hn, hof⟩
    | made _ _ _ hm =>
      cases hm with
      | named => cases hshape
      | again => cases hshape
      | enum _ he =>
        obtain ⟨_, _, _, rfl⟩ := enumModel?_cases he
        cases hshape
      | plain hr _ _ hm =>
        cases hm with
        | array => cases hshape
        | dictionary => cases hshape
        | composition _ _ hc =>
          rcases composition?_shape hc with rfl | rfl | rfl <;> cases hshape
        | @interface required members _ _ _ he hm hq =>
          exact ⟨schema, .self hr, he, pending, required, members, hm, .inr hq, rfl⟩
        | keyword => cases hshape

theorem object_of_build {isDefinition : Bool} {name : Option String} {schema : Node} {m : Model}
    (h : doc.build pending isDefinition name schema = .ok m) (hshape : m.shape = .interface) :
    ∃ node, doc.LeadsTo schema node ∧ doc.OfObject node m.properties := by
  obtain ⟨node, hn, -, hof⟩ := interface_of_build h hshape
  exact ⟨node, hn.leadsTo, hof⟩

/-- Properties that come in blocks. A block from an object is a record, and one from a union has
alternatives without names. The whole is a record exactly if each block is one and no two share a
name. -/
def TakesOver (doc : ApiDocument) (start schema : Node) (ps : List Model) : Prop :=
  ∃ blocks : List (List Model), ps = blocks.flatten ∧
    (∀ block ∈ blocks, ∃ node, doc.Merges schema node ∧
      (doc.OfObject node block ∧ doc.IsRecord start block ∨
        doc.OfUnion node block ∧ ∀ p ∈ block, p.name = "")) ∧
    (doc.IsRecord start ps ↔ (∀ block ∈ blocks, doc.IsRecord start block) ∧
      blocks.Pairwise fun a b => (a.map (·.name)).Disjoint (b.map (·.name)))

/-- Blocks together are a record if each of them is one and no two share a name. -/
theorem isRecord_flatten {start : Node} {blocks : List (List Model)} :
    doc.IsRecord start blocks.flatten ↔ (∀ block ∈ blocks, doc.IsRecord start block) ∧
      blocks.Pairwise fun a b => (a.map (·.name)).Disjoint (b.map (·.name)) := by
  have hnames : (blocks.flatten.map (·.name)).Nodup ↔
      (∀ block ∈ blocks, (block.map (·.name)).Nodup) ∧
        blocks.Pairwise fun a b => (a.map (·.name)).Disjoint (b.map (·.name)) := by
    rw [List.map_flatten, List.nodup_flatten, List.forall_mem_map, List.pairwise_map]
  constructor
  · intro h
    obtain ⟨hnodup, hapart⟩ := hnames.mp h.names
    refine ⟨fun block hblock => ⟨fun p hp => ?_, hnodup block hblock⟩, hapart⟩
    exact h.entries p (List.mem_flatten_of_mem hblock hp)
  · rintro ⟨hrecord, hapart⟩
    refine ⟨fun p hp => ?_, hnames.mpr ⟨fun block hblock => (hrecord block hblock).names, hapart⟩⟩
    obtain ⟨block, hblock, hp⟩ := List.mem_flatten.mp hp
    exact (hrecord block hblock).entries p hp

/-- Properties of object-like models. Those of an interface are a record: they come from the entries
of one object, and no two have one name. Those of an intersection come in blocks from the schemas
that it takes over, and are a record only if each block is one and no two share a name. -/
theorem properties_of_objects {start : Node} {isDefinition : Bool} {name : String} {m s : Model}
    (hroot : doc.root.Keyed) (hstart : start.Keyed)
    (h : doc.model start isDefinition name = .ok m) (hs : m.Holds s) :
    (s.shape = .interface → doc.IsRecord start s.properties) ∧
    (s.shape = .allOf → ∃ schema, doc.LeadsTo start schema ∧ doc.MadeFrom schema s ∧
      doc.TakesOver start schema s.properties) := by
  obtain ⟨schema, hl, hmade⟩ := inside_of_holds h hs
  obtain ⟨_, _, _, r, hb, hshape, -, hproperties⟩ := hmade.exists_build
  rw [hshape, hproperties]
  constructor
  · intro hinterface
    obtain ⟨node, hn, hof⟩ := object_of_build hb hinterface
    have hnode := hl.trans hn
    exact hof.isRecord hnode (hnode.keyed hroot hstart)
  · intro _
    obtain ⟨blocks, heq, hblocks⟩ := blocks_of_build hb
    refine ⟨schema, hl, hmade, blocks, heq, fun block hblock => ?_, heq ▸ isRecord_flatten⟩
    obtain ⟨node, hmerges, hof⟩ := hblocks block hblock
    have hnode := hl.trans hmerges.leadsTo
    refine ⟨node, hmerges, hof.imp (fun hof => ⟨hof, ?_⟩) fun hof => ⟨hof, hof.name_eq⟩⟩
    exact hof.isRecord hnode (hnode.keyed hroot hstart)

namespace PetParts

def document : ApiDocument where
  dialect := .openApi3
  root := .map []
  schemas := []

def union : Node := .map [(.str "oneOf", .list [.map [], .map []])]

def object : Node := .map [(.str "properties", .map [(.str "id", .map [])])]

/-- An intersection of a union and of two objects that share a key. -/
def pet : Node := .map [(.str "allOf", .list [union, object, object])]

def anyModel (name : String) : Model := { name, shape := .generic }

def unionModel : Model := { shape := .oneOf, properties := [anyModel "", anyModel ""] }

def objectModel : Model := { properties := [anyModel "id"] }

def petModel : Model where
  name := "Pet"
  shape := .allOf
  isDefinition := true
  properties := [anyModel "", anyModel "", anyModel "id", anyModel "id"]

section Build

variable (pending : List String)

theorem build_any (name : String) :
    document.build pending false (some name) (.map []) = .ok (anyModel name) :=
  (build_of_makes rfl rfl (.plain rfl rfl rfl (.keyword rfl rfl rfl rfl))).trans rfl

theorem build_union : document.build pending false (some "") union = .ok unionModel := by
  have hany := makesPart_of_build rfl (build_any pending "")
  have hparts : List.Forall₂ (document.MakesPart pending) [.map [], .map []] _ :=
    .cons hany (.cons hany .nil)
  exact (build_of_makes rfl rfl
    (.plain rfl rfl rfl (.composition rfl rfl rfl hparts makesMembers_nil (.inr rfl)))).trans rfl

theorem build_object : document.build pending false (some "") object = .ok objectModel := by
  have hmembers : document.MakesMembers pending [(.str "id", .map [])]
      [⟨.str "id", .map [], anyModel "id"⟩] :=
    ⟨rfl, List.forall_mem_singleton.mpr (build_any pending "id")⟩
  exact (build_of_makes rfl rfl
    (.plain rfl rfl rfl (.interface rfl rfl rfl rfl hmembers rfl))).trans rfl

theorem build_pet : document.build pending true (some "Pet") pet = .ok petModel := by
  have hobject := makesPart_of_build rfl (build_object pending)
  have hparts : List.Forall₂ (document.MakesPart pending) [union, object, object] _ :=
    .cons (makesPart_of_build rfl (build_union pending)) (.cons hobject (.cons hobject .nil))
  exact (build_of_makes rfl rfl
    (.plain rfl rfl rfl (.composition rfl rfl rfl hparts makesMembers_nil (.inr rfl)))).trans rfl

end Build

theorem model_pet : document.model pet true "Pet" = .ok petModel := build_pet _

theorem keyed_any : (Node.map []).Keyed := .map .nil (by simp)

theorem keyed_entry {key : Scalar} {value : Node} (h : value.Keyed) :
    (Node.map [(key, value)]).Keyed :=
  .map (List.pairwise_singleton _ _) (List.forall_mem_singleton.mpr h)

theorem keyed_pet : pet.Keyed := by
  have hunion : union.Keyed := keyed_entry (.list (by simpa using keyed_any))
  have hobject : object.Keyed := keyed_entry (keyed_entry keyed_any)
  exact keyed_entry (.list (by simpa using ⟨hunion, hobject⟩))

theorem properties_pet : (document.root.Keyed ∧ pet.Keyed ∧
      document.model pet true "Pet" = .ok petModel ∧ petModel.Holds petModel) ∧
    (petModel.shape = .interface → document.IsRecord pet petModel.properties) ∧
    (petModel.shape = .allOf → ∃ schema, document.LeadsTo pet schema ∧
      document.MadeFrom schema petModel ∧ document.TakesOver pet schema petModel.properties) :=
  ⟨⟨keyed_any, keyed_pet, model_pet, .refl⟩,
    properties_of_objects keyed_any keyed_pet model_pet .refl⟩

theorem leadsTo_cases {node : Node} (h : document.LeadsTo pet node) :
    node = pet ∨ node = union ∨ node = object ∨ node = .map [] := by
  induction h with
  | self => exact .inl rfl
  | part _ _ hp ih =>
    rcases ih with rfl | rfl | rfl | rfl
    · have hparts : parts document.dialect pet = [union, object, object] := rfl
      simp only [hparts, List.mem_cons, List.not_mem_nil] at hp
      tauto
    · have hparts : parts document.dialect union = [.map [], .map []] := rfl
      simp only [hparts, List.mem_cons, List.not_mem_nil] at hp
      tauto
    · have hparts : parts document.dialect object = [.map []] := rfl
      simp only [hparts, List.mem_cons, List.not_mem_nil] at hp
      tauto
    · cases hp
  | target _ hr _ _ ih =>
    rcases ih with rfl | rfl | rfl | rfl <;> cases hr

/-- The alternatives of a union come from no entry, and a key of two objects names two
properties. -/
theorem pet_no_record : document.model pet true "Pet" = .ok petModel ∧ petModel.shape = .allOf ∧
    (∃ p ∈ petModel.properties, ¬ document.FromEntry pet p) ∧
    ¬ (petModel.properties.map (·.name)).Nodup := by
  refine ⟨model_pet, rfl, ⟨anyModel "", List.mem_cons_self, ?_⟩, by decide⟩
  rintro ⟨schema, es, value, -, -, -, hl, hes, hentry, -⟩
  rcases leadsTo_cases hl with rfl | rfl | rfl | rfl
  · cases hes
  · cases hes
  · obtain rfl := Option.some.inj hes
    simp [anyModel] at hentry
  · cases hes

end PetParts

end ApiDocument

end ClientGen
