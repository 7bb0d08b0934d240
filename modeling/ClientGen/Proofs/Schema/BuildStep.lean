import ClientGen.Proofs.Outcome
import ClientGen.Schema.Builder

/-! What the builder makes of one schema, in terms of the models of the schemas in it. What holds of
all models follows from this by one induction. -/

namespace ClientGen

/-- The constraints of a schema depend on the values of their keywords only. -/
theorem Constraints.fieldsOfSchema_congr {a b : Node}
    (h : ∀ k ∈ keywords, a.get? k.1 = b.get? k.1) :
    fieldsOfSchema a.entries = fieldsOfSchema b.entries := by
  refine List.filterMap_congr fun k hk => ?_
  obtain ⟨keyword, field, accepts⟩ := k
  have hget := h _ hk
  unfold Node.get? at hget
  simp only [hget]

namespace Outline

/-- A model of a shape with what its schema says whatever the shape. -/
def applied (outline : Outline) (m : Model) : Model :=
  { m with
    name := outline.name.getD ""
    description := outline.description
    isDefinition := outline.isDefinition
    isReadOnly := outline.isReadOnly
    isNullable := outline.isNullable
    defaultValue := outline.defaultValue.map .str
    constraints := (Constraints.ofFields outline.constraints).value }

@[simp] theorem type_applied (outline : Outline) (m : Model) :
    (outline.applied m).type = m.type := rfl

variable {outline : Outline}

theorem eq_applied_of_complete {m r : Model} (h : outline.complete m = .ok r) :
    r = outline.applied m := by
  unfold complete at h
  dsimp only at h
  split at h
  · exact (Except.ok.inj h).symm
  · cases h

/-- A model is made under a name that is a text. -/
theorem isSome_of_complete {m r : Model} (h : outline.complete m = .ok r) :
    outline.name.isSome := by
  cases hn : outline.name with
  | some n => rfl
  | none =>
    unfold complete at h
    simp [hn] at h

end Outline

/-- A schema inside another one: a reference to a named schema, or a schema with its model. -/
inductive Part where
  | named (ref : String)
  | inline (schema : Node) (m : Model)

/-- A property of a schema with the model of its values. -/
structure Member where
  key : Scalar
  schema : Node
  model : Model

namespace Member

def entry (p : Member) : Scalar × Node := (p.key, p.schema)

def property (required : List Scalar) (p : Member) : Model :=
  ApiDocument.asProperty required p.key p.model

end Member

namespace Part

def type : Part → TypeExpr
  | .named ref => TypeExpr.ofText ref
  | .inline _ m => m.type

def link : Part → Option Model
  | .named _ => none
  | .inline _ m => some m

/-- What a branch contributes to a composition. -/
def contribution (shape : Shape) : Part → Composition
  | .named ref => .ofReference (TypeExpr.ofText ref)
  | .inline _ m => .ofBranch shape m

end Part

namespace Composition

/-- What all branches contribute. -/
def ofParts (shape : Shape) : List Part → Composition
  | [] => {}
  | part :: rest => (part.contribution shape).append (ofParts shape rest)

@[simp] theorem append_empty (c : Composition) : c.append {} = c := by
  simp [append]

@[simp] theorem append_ofProperties_nil (c : Composition) : c.append (.ofProperties []) = c :=
  append_empty c

end Composition

namespace ApiDocument

/-- A reference to a named schema that exists. -/
def IsNamed (doc : ApiDocument) (ref : String) : Prop :=
  doc.dialect.isSchemaRef ref ∧ (doc.namedSchema? ref).isSome

theorem typeOfReference_eq_ok {doc : ApiDocument} {ref : String} {type : TypeExpr} :
    doc.typeOfReference ref = .ok type ↔
      (doc.namedSchema? ref).isSome ∧ TypeExpr.ofText ref = type := by
  unfold typeOfReference
  split
  · next h => simp [h]
  · next h => simp [h]

/-- An outline is made under the name, and for the place, that it is asked for, and says what its
schema says. -/
theorem ofSchema_eq_ok {dialect : Dialect} {isDefinition : Bool} {name : Option String}
    {schema : Node} {outline : Outline}
    (h : Outline.ofSchema dialect isDefinition name schema = .ok outline) :
    outline.name = name ∧ outline.isDefinition = isDefinition ∧
      (∃ text, schema.member "description" = .ok text ∧ text.comment = .ok outline.description) ∧
      dialect.isNullable schema = .ok outline.isNullable ∧
      DefaultLiteral.ofSchema schema = .ok outline.defaultValue := by
  obtain ⟨text, htext, h⟩ := bind_eq_ok.mp h
  obtain ⟨_, hcomment, h⟩ := bind_eq_ok.mp h
  obtain ⟨_, -, h⟩ := bind_eq_ok.mp h
  obtain ⟨_, hnullable, h⟩ := bind_eq_ok.mp h
  obtain ⟨_, hdefault, h⟩ := bind_eq_ok.mp h
  obtain rfl := pure_eq_ok.mp h
  exact ⟨rfl, rfl, ⟨text, htext, hcomment⟩, hnullable, hdefault⟩

theorem name_of_ofSchema {dialect : Dialect} {isDefinition : Bool} {name : Option String}
    {schema : Node} {outline : Outline}
    (h : Outline.ofSchema dialect isDefinition name schema = .ok outline) :
    outline.name = name := (ofSchema_eq_ok h).1

/-- A node that names no schema: its model is made in its place. -/
def IsInline (dialect : Dialect) (node : Node) : Prop :=
  ∀ ref, Pointer.reference? node = some ref → dialect.isSchemaRef ref = false

/-- What the builder makes of a node inside a schema, with the references in `pending` left. -/
def MakesPart (doc : ApiDocument) (pending : List String) (node : Node) : Part → Prop
  | .named ref => Pointer.reference? node = some ref ∧ doc.IsNamed ref
  | .inline schema m =>
    schema = node ∧ IsInline doc.dialect node ∧ doc.build pending false (some "") node = .ok m

/-- What the builder makes of the entries of a `properties` object. -/
structure MakesMembers (doc : ApiDocument) (pending : List String) (es : Entries)
    (members : List Member) : Prop where
  entries : es = members.map Member.entry
  models : ∀ p ∈ members, doc.build pending false p.key.text? p.schema = .ok p.model

/-- What the builder makes of a schema that is neither a reference nor an enumeration. Each rule
leaves out what the rules before it apply to. -/
inductive MakesStructure (doc : ApiDocument) (pending : List String) (schema kind : Node) :
    Model → Prop
  | array {node part} (hi : arrayItems? kind schema = some node)
      (hp : doc.MakesPart pending node part) :
      MakesStructure doc pending schema kind
        { shape := .array, type := part.type, link := part.link }
  | dictionary {node part} (hi : arrayItems? kind schema = none)
      (hv : dictionaryValues? kind schema = some node) (hp : doc.MakesPart pending node part) :
      MakesStructure doc pending schema kind
        { shape := .dictionary, type := Model.inDictionary part.type, link := part.link }
  | composition {shape branches parts required members} (hi : arrayItems? kind schema = none)
      (hv : dictionaryValues? kind schema = none)
      (hc : composition? doc.dialect schema = some (shape, branches))
      (hp : List.Forall₂ (doc.MakesPart pending) (branches.filter Node.isMap) parts)
      (hm : doc.MakesMembers pending ((properties? schema).getD []) members)
      (hq : properties? schema = none ∨ requiredKeys schema = .ok required) :
      MakesStructure doc pending schema kind
        (((Composition.ofParts shape parts).append
          (.ofProperties (members.map (Member.property required)))).model shape)
  | interface {required members} (hi : arrayItems? kind schema = none)
      (hv : dictionaryValues? kind schema = none) (hc : composition? doc.dialect schema = none)
      (he : (properties? schema).isSome)
      (hm : doc.MakesMembers pending ((properties? schema).getD []) members)
      (hq : requiredKeys schema = .ok required) :
      MakesStructure doc pending schema kind
        (Model.ofProperties (members.map (Member.property required)))
  | keyword (hi : arrayItems? kind schema = none) (hv : dictionaryValues? kind schema = none)
      (hc : composition? doc.dialect schema = none) (he : properties? schema = none) :
      MakesStructure doc pending schema kind { shape := .generic, type := keywordType kind }

/-- What the builder makes of a schema that it does not follow to another one. -/
inductive Makes (doc : ApiDocument) (pending : List String) (schema : Node) : Model → Prop
  | named {ref} (hr : Pointer.reference? schema = some ref) (hn : doc.IsNamed ref) :
      Makes doc pending schema { shape := .reference, type := TypeExpr.ofText ref }
  | again {ref} (hr : Pointer.reference? schema = some ref)
      (hs : doc.dialect.isSchemaRef ref = false) (hp : ref ∉ pending) :
      Makes doc pending schema { shape := .generic }
  | enum {m} (hr : Pointer.reference? schema = none)
      (he : enumModel? doc.dialect schema = .ok (some m)) : Makes doc pending schema m
  | plain {kind m} (hr : Pointer.reference? schema = none)
      (he : enumModel? doc.dialect schema = .ok none) (hk : schema.member "type" = .ok kind)
      (hm : doc.MakesStructure pending schema kind m) : Makes doc pending schema m

/-- One step of the builder: a node that is no schema stands for any value, a reference may be
followed, and any other schema makes a model with its own outline. -/
inductive Step (doc : ApiDocument) (pending : List String) (isDefinition : Bool)
    (name : Option String) (schema : Node) : Model → Prop
  | noSchema {outline} (hmap : schema.isMap = false)
      (ho : Outline.ofSchema doc.dialect isDefinition name (.map []) = .ok outline)
      (hn : name.isSome) :
      Step doc pending isDefinition name schema (outline.applied { shape := .generic })
  | target {ref node m} (hr : Pointer.reference? schema = some ref)
      (hs : doc.dialect.isSchemaRef ref = false) (hp : ref ∈ pending)
      (ht : doc.resolve ref = .ok node)
      (hb : doc.build (pending.erase ref) isDefinition name node = .ok m) :
      Step doc pending isDefinition name schema m
  | made {outline m} (hmap : schema.isMap)
      (ho : Outline.ofSchema doc.dialect isDefinition name schema = .ok outline)
      (hn : name.isSome) (hm : doc.Makes pending schema m) :
      Step doc pending isDefinition name schema (outline.applied m)

variable {doc : ApiDocument} {pending : List String}

/-- The schemas of properties are smaller than the schema that has them. -/
theorem MakesMembers.sizeOf_lt {schema : Node} {members : List Member}
    (h : doc.MakesMembers pending ((properties? schema).getD []) members) {p : Member}
    (hp : p ∈ members) : sizeOf p.schema < sizeOf schema := by
  have hentry : p.entry ∈ (properties? schema).getD [] := h.entries ▸ List.mem_map_of_mem hp
  cases he : properties? schema with
  | none => simp [he] at hentry
  | some es =>
    rw [he] at hentry
    have hes := sizeOf_properties? he
    have hmem := List.sizeOf_lt_of_mem hentry
    simp only [Member.entry, Option.getD_some, Prod.mk.sizeOf_spec] at hmem
    omega

theorem makesMembers_nil : doc.MakesMembers pending [] [] := ⟨rfl, by simp⟩

theorem MakesMembers.eq_nil {schema : Node} {members : List Member}
    (h : doc.MakesMembers pending ((properties? schema).getD []) members)
    (hnone : properties? schema = none) : members = [] := by
  have hentries := h.entries
  rw [hnone] at hentries
  exact List.map_eq_nil_iff.mp hentries.symm

theorem MakesMembers.requiredKeys_eq {schema : Node} {members : List Member}
    {required : List Scalar} (h : doc.MakesMembers pending ((properties? schema).getD []) members)
    (hq : properties? schema = none ∨ requiredKeys schema = .ok required) {p : Member}
    (hp : p ∈ members) : requiredKeys schema = .ok required :=
  hq.resolve_left fun hnone => List.ne_nil_of_mem hp (h.eq_nil hnone)

/-- A part that has a model is a branch that names no schema. -/
theorem branch_of_inline {branches : List Node} {parts : List Part}
    (h : List.Forall₂ (doc.MakesPart pending) (branches.filter Node.isMap) parts) {s : Node}
    {m : Model} (hm : .inline s m ∈ parts) :
    (s ∈ branches ∧ s.isMap) ∧ IsInline doc.dialect s ∧
      doc.build pending false (some "") s = .ok m := by
  obtain ⟨node, hnode, rfl, hinline, hb⟩ := (exists_mem_of_forall₂ h).2 _ hm
  exact ⟨List.mem_filter.mp hnode, hinline, hb⟩

theorem isInline_of_filter_eq_none {dialect : Dialect} {node : Node}
    (h : (Pointer.reference? node).filter dialect.isSchemaRef = none) : IsInline dialect node := by
  intro ref hr
  rw [hr] at h
  simpa [Option.filter] using h

theorem IsInline.filter_eq_none {dialect : Dialect} {node : Node} (h : IsInline dialect node) :
    (Pointer.reference? node).filter dialect.isSchemaRef = none := by
  rw [Option.filter_eq_none_iff]
  intro ref hr
  simp [h ref hr]

theorem makesPart_of_build {node : Node} {m : Model} (hr : Pointer.reference? node = none)
    (hb : doc.build pending false (some "") node = .ok m) :
    doc.MakesPart pending node (.inline node m) := by
  refine ⟨rfl, fun ref h => ?_, hb⟩
  rw [hr] at h
  cases h

theorem makesPart_of_buildItem {node : Node} {item : TypeExpr × Option Model}
    (h : doc.buildItem pending node = .ok item) :
    ∃ part, doc.MakesPart pending node part ∧ item = (part.type, part.link) := by
  rw [buildItem] at h
  split at h
  · next ref hf =>
    obtain ⟨hr, hs⟩ := Option.filter_eq_some_iff.mp hf
    obtain ⟨type, ht, h⟩ := bind_eq_ok.mp h
    obtain ⟨hn, rfl⟩ := typeOfReference_eq_ok.mp ht
    exact ⟨.named ref, ⟨hr, hs, hn⟩, (pure_eq_ok.mp h).symm⟩
  · next hf =>
    obtain ⟨m, hm, h⟩ := bind_eq_ok.mp h
    exact ⟨.inline node m, ⟨rfl, isInline_of_filter_eq_none hf, hm⟩, (pure_eq_ok.mp h).symm⟩

/-- The branches that are schemas make the parts of a composition. -/
theorem makesParts_of_buildBranches {shape : Shape} {branches : List Node} {c : Composition}
    (h : doc.buildBranches pending shape branches = .ok c) :
    ∃ parts, c = .ofParts shape parts ∧
      List.Forall₂ (doc.MakesPart pending) (branches.filter Node.isMap) parts := by
  induction branches generalizing c with
  | nil =>
    rw [buildBranches] at h
    exact ⟨[], (pure_eq_ok.mp h).symm, .nil⟩
  | cons branch rest ih =>
    have hcons (part : Part) (hmap : branch.isMap) (hpart : doc.MakesPart pending branch part)
        (h : (do
            let others ← doc.buildBranches pending shape rest
            return (part.contribution shape).append others) = Except.ok c) :
        ∃ parts, c = .ofParts shape parts ∧
          List.Forall₂ (doc.MakesPart pending) ((branch :: rest).filter Node.isMap) parts := by
      obtain ⟨d, hd, h⟩ := bind_eq_ok.mp h
      obtain ⟨parts, rfl, hparts⟩ := ih hd
      refine ⟨part :: parts, (pure_eq_ok.mp h).symm, ?_⟩
      rw [List.filter_cons_of_pos hmap]
      exact .cons hpart hparts
    rw [buildBranches] at h
    split at h
    · next hmap =>
      split at h
      · next ref hf =>
        obtain ⟨hr, hs⟩ := Option.filter_eq_some_iff.mp hf
        obtain ⟨type, ht, h⟩ := bind_eq_ok.mp h
        obtain ⟨hn, rfl⟩ := typeOfReference_eq_ok.mp ht
        exact hcons (.named ref) hmap ⟨hr, hs, hn⟩ h
      · next hf =>
        obtain ⟨m, hm, h⟩ := bind_eq_ok.mp h
        exact hcons (.inline branch m) hmap ⟨rfl, isInline_of_filter_eq_none hf, hm⟩ h
    · next hmap =>
      obtain ⟨part, hpart, h⟩ := bind_eq_ok.mp h
      obtain rfl := pure_eq_ok.mp hpart
      obtain ⟨d, hd, h⟩ := bind_eq_ok.mp h
      obtain ⟨parts, rfl, hparts⟩ := ih hd
      refine ⟨parts, (pure_eq_ok.mp h).symm, ?_⟩
      rwa [List.filter_cons_of_neg hmap]

/-- Where the parts are made, the branches contribute what they do. -/
theorem buildBranches_of_makesParts {branches : List Node} {parts : List Part} (shape : Shape)
    (h : List.Forall₂ (doc.MakesPart pending) (branches.filter Node.isMap) parts) :
    doc.buildBranches pending shape branches = .ok (.ofParts shape parts) := by
  induction branches generalizing parts with
  | nil =>
    obtain rfl := List.forall₂_nil_left_iff.mp h
    rw [buildBranches]
    rfl
  | cons branch rest ih =>
    rw [buildBranches]
    by_cases hmap : branch.isMap
    · rw [List.filter_cons_of_pos hmap] at h
      obtain ⟨part, others, hpart, hothers, rfl⟩ := List.forall₂_cons_left_iff.mp h
      rw [if_pos hmap]
      cases part with
      | named ref =>
        obtain ⟨hr, hs, hn⟩ := hpart
        rw [Option.filter_eq_some_iff.mpr ⟨hr, hs⟩]
        refine bind_eq_ok.mpr ⟨_, typeOfReference_eq_ok.mpr ⟨hn, rfl⟩, ?_⟩
        exact bind_eq_ok.mpr ⟨_, rfl, bind_eq_ok.mpr ⟨_, ih hothers, rfl⟩⟩
      | inline s m =>
        obtain ⟨rfl, hinline, hb⟩ := hpart
        rw [hinline.filter_eq_none]
        refine bind_eq_ok.mpr ⟨m, hb, ?_⟩
        exact bind_eq_ok.mpr ⟨_, rfl, bind_eq_ok.mpr ⟨_, ih hothers, rfl⟩⟩
    · rw [List.filter_cons_of_neg hmap] at h
      rw [if_neg hmap]
      exact bind_eq_ok.mpr ⟨_, rfl, bind_eq_ok.mpr ⟨_, ih h, rfl⟩⟩

theorem makesMembers_of_buildProperties {required : List Scalar} {es : Entries} {ms : List Model}
    (h : doc.buildProperties pending required es = .ok ms) :
    ∃ members, doc.MakesMembers pending es members ∧
      ms = members.map (Member.property required) := by
  induction es generalizing ms with
  | nil =>
    rw [buildProperties] at h
    exact ⟨[], makesMembers_nil, (pure_eq_ok.mp h).symm⟩
  | cons e rest ih =>
    obtain ⟨key, schema⟩ := e
    rw [buildProperties] at h
    obtain ⟨m, hm, h⟩ := bind_eq_ok.mp h
    obtain ⟨others, hothers, h⟩ := bind_eq_ok.mp h
    obtain ⟨members, ⟨rfl, hmembers⟩, rfl⟩ := ih hothers
    refine ⟨⟨key, schema, m⟩ :: members, ⟨rfl, ?_⟩, (pure_eq_ok.mp h).symm⟩
    exact List.forall_mem_cons.mpr ⟨hm, hmembers⟩

theorem buildProperties_of_makesMembers {es : Entries} {members : List Member}
    (required : List Scalar) (h : doc.MakesMembers pending es members) :
    doc.buildProperties pending required es = .ok (members.map (Member.property required)) := by
  obtain ⟨rfl, hmodels⟩ := h
  induction members with
  | nil =>
    rw [List.map_nil, buildProperties]
    rfl
  | cons p rest ih =>
    obtain ⟨hp, hrest⟩ := List.forall_mem_cons.mp hmodels
    rw [List.map_cons, Member.entry, buildProperties]
    exact bind_eq_ok.mpr ⟨p.model, hp, bind_eq_ok.mpr ⟨_, ih hrest, rfl⟩⟩

theorem makesStructure_of_buildStructure {outline : Outline} {schema : Node} {r : Model}
    (h : doc.buildStructure pending outline schema = .ok r) :
    ∃ kind m, schema.member "type" = .ok kind ∧ doc.MakesStructure pending schema kind m ∧
      outline.complete m = .ok r := by
  rw [buildStructure] at h
  obtain ⟨kind, hk, h⟩ := bind_eq_ok.mp h
  refine ⟨kind, ?_⟩
  split at h
  · next node hi =>
    obtain ⟨item, hitem, h⟩ := bind_eq_ok.mp h
    obtain ⟨part, hp, rfl⟩ := makesPart_of_buildItem hitem
    exact ⟨_, hk, .array hi hp, h⟩
  next hi =>
  split at h
  · next node hv =>
    obtain ⟨item, hitem, h⟩ := bind_eq_ok.mp h
    obtain ⟨part, hp, rfl⟩ := makesPart_of_buildItem hitem
    exact ⟨_, hk, .dictionary hi hv hp, h⟩
  next hv =>
  split at h
  · next shape branches hc =>
    obtain ⟨c, hbranches, h⟩ := bind_eq_ok.mp h
    obtain ⟨parts, rfl, hp⟩ := makesParts_of_buildBranches hbranches
    split at h
    · next es he =>
      obtain ⟨required, hq, h⟩ := bind_eq_ok.mp h
      obtain ⟨ms, hms, h⟩ := bind_eq_ok.mp h
      obtain ⟨members, hm, rfl⟩ := makesMembers_of_buildProperties hms
      exact ⟨_, hk, .composition hi hv hc hp (by simpa [he] using hm) (.inr hq), h⟩
    · next he =>
      have hm : doc.MakesMembers pending ((properties? schema).getD []) [] := by
        simpa [he] using makesMembers_nil
      have hq : properties? schema = none ∨ requiredKeys schema = .ok [] := .inl he
      refine ⟨_, hk, .composition hi hv hc hp hm hq, ?_⟩
      simpa using h
  next hc =>
  split at h
  · next es he =>
    obtain ⟨required, hq, h⟩ := bind_eq_ok.mp h
    obtain ⟨ms, hms, h⟩ := bind_eq_ok.mp h
    obtain ⟨members, hm, rfl⟩ := makesMembers_of_buildProperties hms
    have hm : doc.MakesMembers pending ((properties? schema).getD []) members := by
      simpa [he] using hm
    exact ⟨_, hk, .interface hi hv hc (by simp [he]) hm hq, h⟩
  · next he => exact ⟨_, hk, .keyword hi hv hc he, h⟩

theorem buildItem_of_makesPart {node : Node} {part : Part} (h : doc.MakesPart pending node part) :
    doc.buildItem pending node = .ok (part.type, part.link) := by
  rw [buildItem]
  cases part with
  | named ref =>
    obtain ⟨hr, hs, hn⟩ := h
    rw [Option.filter_eq_some_iff.mpr ⟨hr, hs⟩]
    exact bind_eq_ok.mpr ⟨_, typeOfReference_eq_ok.mpr ⟨hn, rfl⟩, rfl⟩
  | inline s m =>
    obtain ⟨rfl, hinline, hb⟩ := h
    rw [hinline.filter_eq_none]
    exact bind_eq_ok.mpr ⟨m, hb, rfl⟩

theorem buildStructure_of_makes {outline : Outline} {schema kind : Node} {m : Model}
    (hk : schema.member "type" = .ok kind) (h : doc.MakesStructure pending schema kind m) :
    doc.buildStructure pending outline schema = outline.complete m := by
  -- Each rule goes through the tests of the program, of which the rules before it fail.
  have hfails {α : Type} {x : Option α} {a : α} (hnone : x = none) (hsome : x = some a) :
      False := by
    rw [hnone] at hsome
    cases hsome
  rw [buildStructure, hk, ok_bind]
  cases h with
  | array hi hp =>
    split
    · next hi' =>
      obtain rfl := Option.some.inj (hi.symm.trans hi')
      rw [buildItem_of_makesPart hp]
      rfl
    · next hi' => exact (hfails hi' hi).elim
  | dictionary hi hv hp =>
    split
    · next hi' => exact (hfails hi hi').elim
    split
    · next hv' =>
      obtain rfl := Option.some.inj (hv.symm.trans hv')
      rw [buildItem_of_makesPart hp]
      rfl
    · next hv' => exact (hfails hv' hv).elim
  | composition hi hv hc hp hm hq =>
    split
    · next hi' => exact (hfails hi hi').elim
    split
    · next hv' => exact (hfails hv hv').elim
    split
    · next hc' =>
      obtain ⟨rfl, rfl⟩ := Prod.mk.inj (Option.some.inj (hc.symm.trans hc'))
      rw [buildBranches_of_makesParts _ hp, ok_bind]
      split
      · next he =>
        rw [he, Option.getD_some] at hm
        rw [hq.resolve_left (by simp [he])]
        change (doc.buildProperties pending _ _ >>= _) = _
        rw [buildProperties_of_makesMembers _ hm]
        rfl
      · next he =>
        rw [hm.eq_nil he, List.map_nil, Composition.append_ofProperties_nil]
    · next hc' => exact (hfails hc' hc).elim
  | interface hi hv hc he hm hq =>
    split
    · next hi' => exact (hfails hi hi').elim
    split
    · next hv' => exact (hfails hv hv').elim
    split
    · next hc' => exact (hfails hc hc').elim
    split
    · next hp =>
      rw [hp, Option.getD_some] at hm
      rw [hq]
      change (doc.buildProperties pending _ _ >>= _) = _
      rw [buildProperties_of_makesMembers _ hm]
      rfl
    · next hp =>
      rw [hp] at he
      cases he
  | keyword hi hv hc he =>
    split
    · next hi' => exact (hfails hi hi').elim
    split
    · next hv' => exact (hfails hv hv').elim
    split
    · next hc' => exact (hfails hc hc').elim
    split
    · next hp => exact (hfails he hp).elim
    · rfl

/-- What is made of a schema is its model, if it may have the outline of that schema. -/
theorem build_of_makes {isDefinition : Bool} {name : Option String} {schema : Node}
    {outline : Outline} {m : Model} (hmap : schema.isMap)
    (ho : Outline.ofSchema doc.dialect isDefinition name schema = .ok outline)
    (h : doc.Makes pending schema m) :
    doc.build pending isDefinition name schema = outline.complete m := by
  rw [build, hmap, ho]
  cases h with
  | named hr hn =>
    obtain ⟨hs, hfound⟩ := hn
    rw [hr]
    change (if doc.dialect.isSchemaRef _ = true then _ else _) = _
    rw [if_pos hs, typeOfReference_eq_ok.mpr ⟨hfound, rfl⟩]
    rfl
  | again hr hs hp =>
    rw [hr]
    change (if doc.dialect.isSchemaRef _ = true then _ else _) = _
    rw [hs, if_neg Bool.false_ne_true, dif_neg hp]
  | enum hr he =>
    rw [hr]
    change (enumModel? doc.dialect schema >>= _) = _
    rw [he]
    rfl
  | plain hr he hk hm =>
    rw [hr]
    change (enumModel? doc.dialect schema >>= _) = _
    rw [he]
    exact buildStructure_of_makes hk hm

/-- A schema that says nothing stands for any value. -/
theorem model_empty (doc : ApiDocument) (name : String) :
    doc.model (.map []) true name = .ok { name, shape := .generic, isDefinition := true } := by
  have hnone : enumModel? doc.dialect (.map []) = .ok none := by cases doc.dialect <;> rfl
  have houtline : Outline.ofSchema doc.dialect true (some name) (.map []) =
      .ok ⟨some name, true, none, false, false, none, []⟩ := by cases doc.dialect <;> rfl
  have hcomposition : composition? doc.dialect (.map []) = none := by cases doc.dialect <;> rfl
  unfold model
  rw [build_of_makes rfl houtline (.plain rfl hnone rfl (.keyword rfl rfl hcomposition rfl))]
  rfl

/-- Every model that is built comes about by a step. -/
theorem step_of_build {isDefinition : Bool} {name : Option String} {schema : Node} {m : Model}
    (h : doc.build pending isDefinition name schema = .ok m) :
    doc.Step pending isDefinition name schema m := by
  have hmade {s : Node} {outline : Outline} {body : Model}
      (ho : Outline.ofSchema doc.dialect isDefinition name s = .ok outline)
      (h : outline.complete body = .ok m) : m = outline.applied body ∧ name.isSome :=
    ⟨Outline.eq_applied_of_complete h, name_of_ofSchema ho ▸ Outline.isSome_of_complete h⟩
  rw [build] at h
  split at h
  · next hmap =>
    obtain ⟨outline, ho, h⟩ := bind_eq_ok.mp h
    obtain ⟨rfl, hn⟩ := hmade ho h
    exact .noSchema (by simpa using hmap) ho hn
  next hmap =>
  have hmap : schema.isMap := by simpa using hmap
  obtain ⟨outline, ho, h⟩ := bind_eq_ok.mp h
  split at h
  · next ref hr =>
    split at h
    · next hs =>
      obtain ⟨type, ht, h⟩ := bind_eq_ok.mp h
      obtain ⟨hnamed, rfl⟩ := typeOfReference_eq_ok.mp ht
      obtain ⟨rfl, hn⟩ := hmade ho h
      exact .made hmap ho hn (.named hr ⟨hs, hnamed⟩)
    · next hs =>
      rw [Bool.not_eq_true] at hs
      split at h
      · next hp =>
        obtain ⟨node, ht, h⟩ := bind_eq_ok.mp h
        exact .target hr hs hp ht h
      · next hp =>
        obtain ⟨rfl, hn⟩ := hmade ho h
        exact .made hmap ho hn (.again hr hs hp)
  · next hr =>
    obtain ⟨found, he, h⟩ := bind_eq_ok.mp h
    cases found with
    | some e =>
      obtain ⟨rfl, hn⟩ := hmade ho h
      exact .made hmap ho hn (.enum hr he)
    | none =>
      obtain ⟨kind, body, hk, hbody, h⟩ := makesStructure_of_buildStructure h
      obtain ⟨rfl, hn⟩ := hmade ho h
      exact .made hmap ho hn (.plain hr he hk hbody)

/-- Induction along the builder: a fact about a schema may use the fact about all nodes where one
reference less is left, and about all smaller nodes where the same references are left. -/
theorem buildInduction {P : List String → Node → Prop}
    (step : ∀ pending schema, (∀ ref ∈ pending, ∀ node, P (pending.erase ref) node) →
      (∀ node, sizeOf node < sizeOf schema → P pending node) → P pending schema)
    (pending : List String) (schema : Node) : P pending schema := by
  refine step pending schema (fun ref href node => ?_) fun node hnode => ?_
  · exact buildInduction step (pending.erase ref) node
  · exact buildInduction step pending node
termination_by (pending.length, sizeOf schema)
decreasing_by
  · refine Prod.Lex.left _ _ ?_
    rw [List.length_erase_of_mem href]
    have := List.length_pos_of_mem href
    omega
  · exact Prod.Lex.right _ hnode

/-- What is built has the name that is asked for, which must be a text. -/
theorem name_of_build {isDefinition : Bool} {name : Option String} {schema : Node} {m : Model}
    (h : doc.build pending isDefinition name schema = .ok m) : name = some m.name := by
  have happlied {s : Node} {outline : Outline} {body : Model}
      (ho : Outline.ofSchema doc.dialect isDefinition name s = .ok outline) (hn : name.isSome) :
      name = some (outline.applied body).name := by
    obtain ⟨n, rfl⟩ := Option.isSome_iff_exists.mp hn
    change some n = some (outline.name.getD "")
    rw [name_of_ofSchema ho]
    rfl
  induction pending, schema using buildInduction with
  | step pending schema targets parts =>
    cases step_of_build h with
    | noSchema _ ho hn => exact happlied ho hn
    | target _ _ hp _ hb => exact targets _ hp _ hb
    | made _ ho hn => exact happlied ho hn

/-- A model defines a named schema only if that is asked for. -/
theorem isDefinition_of_build {isDefinition : Bool} {name : Option String} {schema : Node}
    {m : Model} (h : doc.build pending isDefinition name schema = .ok m) :
    m.isDefinition = isDefinition := by
  induction pending, schema using buildInduction with
  | step pending schema targets parts =>
    cases step_of_build h with
    | noSchema _ ho => exact (ofSchema_eq_ok ho).2.1
    | target _ _ hp _ hb => exact targets _ hp _ hb
    | made _ ho => exact (ofSchema_eq_ok ho).2.1

/-- The key of a member is the name of its model. -/
theorem MakesMembers.key_eq {es : Entries} {members : List Member}
    (h : doc.MakesMembers pending es members) {p : Member} (hp : p ∈ members) :
    p.key = .str p.model.name := by
  have htext := name_of_build (h.models p hp)
  cases hkey : p.key with
  | str s =>
    rw [hkey] at htext
    rw [Option.some.inj htext]
  | _ =>
    rw [hkey] at htext
    cases htext

theorem MakesMembers.name_property {es : Entries} {members : List Member}
    (h : doc.MakesMembers pending es members) (required : List Scalar) {p : Member}
    (hp : p ∈ members) : (p.property required).name = p.model.name := by
  change p.key.text?.getD "" = p.model.name
  rw [h.key_eq hp]
  rfl

end ApiDocument

end ClientGen
