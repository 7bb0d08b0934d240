import ClientGen.Proofs.Schema.Inside

/-! What an intersection keeps of its layers: its own schema, its inline branches, and theirs, at
any depth. -/

namespace ClientGen

/-- The parents of an intersection are the named schemas among its branches, unless the model of
another branch is a reference. -/
theorem Composition.mem_parents_ofParts {parts : List Part} {q : String}
    (h : ∀ s m, .inline s m ∈ parts → m.shape ≠ .reference) :
    q ∈ (ofParts .allOf parts).parents ↔
      ∃ ref, .named ref ∈ parts ∧ (TypeExpr.ofText ref).base = q := by
  induction parts with
  | nil => simp [ofParts]
  | cons part rest ih =>
    have hrest := ih fun s m hm => h s m (List.mem_cons_of_mem part hm)
    change q ∈ (part.contribution .allOf).parents ++ (ofParts .allOf rest).parents ↔ _
    rw [List.mem_append, hrest]
    cases part with
    | named ref =>
      have hown : ((Part.named ref).contribution .allOf).parents = [(TypeExpr.ofText ref).base] :=
        rfl
      simp only [hown, List.mem_cons, List.not_mem_nil, or_false, Part.named.injEq]
      grind
    | inline s m =>
      have hshape := h s m List.mem_cons_self
      have hown : ((Part.inline s m).contribution .allOf).parents = [] := by
        change (ofBranch .allOf m).parents = []
        unfold ofBranch
        split_ifs with h1 h2
        · exact absurd rfl h1
        · rfl
        · rfl
      simp only [hown, List.mem_cons, List.not_mem_nil, false_or, reduceCtorEq]

namespace ApiDocument

/-- The branches of an intersection; other schemas have none. -/
def intersected (dialect : Dialect) (schema : Node) : List Node :=
  match composition? dialect schema with
  | some (.allOf, branches) => branches
  | _ => []

/-- An inline branch of an intersection. -/
def Branch (dialect : Dialect) (schema branch : Node) : Prop :=
  (branch ∈ intersected dialect schema ∧ branch.isMap) ∧ IsInline dialect branch

/-- An intersection with a branch that refers to a named schema. -/
def Extends (dialect : Dialect) (schema : Node) (ref : String) : Prop :=
  ∃ branch ∈ intersected dialect schema, branch.isMap ∧ Pointer.reference? branch = some ref ∧
    dialect.isSchemaRef ref

/-- A schema that its keywords make an object or an intersection. -/
structure IsLayer (schema : Node) : Prop where
  isMap : schema.isMap
  reference : schema.get? "$ref" = none
  enum : schema.get? "enum" = none
  kind : schema.get? "type" = none ∨ schema.get? "type" = some (.str "object")
  values : schema.get? "additionalProperties" = none
  oneOf : schema.get? "oneOf" = none
  anyOf : schema.get? "anyOf" = none

/-- A schema requires a key in its own list. -/
def Requires (schema : Node) (key : String) : Prop :=
  ∃ keys, requiredKeys schema = .ok keys ∧ .str key ∈ keys

/-- A property for an entry of a schema's own `properties`: it has the entry's key for its name, and
is required if the same schema requires it or if it has a default. -/
structure IsPropertyOf (doc : ApiDocument) (schema : Node) (e : Scalar × Node) (p : Model) :
    Prop where
  key : e.1 = .str p.name
  made : doc.MadeFrom e.2 p
  required : p.isRequired ↔ Requires schema p.name ∨ p.defaultValue.isSome

/-- A schema or an inline branch of it, at any depth of intersections. -/
def HasLayer (dialect : Dialect) (schema layer : Node) : Prop :=
  Relation.ReflTransGen (Branch dialect) schema layer

/-- The model of an intersection keeps the named schemas among its own branches as parents. It has a
property for each entry of `properties` in each layer, and no others. -/
structure KeepsLayers (doc : ApiDocument) (schema : Node) (m : Model) : Prop where
  parents : ∀ q, q ∈ m.parents ↔
    ∃ ref, Extends doc.dialect schema ref ∧ (TypeExpr.ofText ref).base = q
  entries : ∀ layer, HasLayer doc.dialect schema layer → ∀ e ∈ (properties? layer).getD [],
    ∃ p ∈ m.properties, doc.IsPropertyOf layer e p
  properties : ∀ p ∈ m.properties, ∃ layer, HasLayer doc.dialect schema layer ∧
    ∃ e ∈ (properties? layer).getD [], doc.IsPropertyOf layer e p

variable {doc : ApiDocument} {pending : List String} {schema kind : Node} {m : Model}

/-- What is made of a schema that is an object, an intersection or neither: the properties of its
branches come first, then its own. -/
theorem MakesStructure.properties_eq (h : doc.MakesStructure pending schema kind m)
    (hshape : m.shape = .allOf ∨ m.shape = .interface ∨ m.shape = .generic) :
    ∃ parts required members,
      List.Forall₂ (doc.MakesPart pending)
        ((intersected doc.dialect schema).filter Node.isMap) parts ∧
      doc.MakesMembers pending ((properties? schema).getD []) members ∧
      (properties? schema = none ∨ requiredKeys schema = .ok required) ∧
      m.parents = distinct (Composition.ofParts .allOf parts).parents ∧
      m.properties = (parts.filterMap Part.link).flatMap Model.properties ++
        members.map (Member.property required) := by
  have hnone (hc : composition? doc.dialect schema = none) :
      List.Forall₂ (doc.MakesPart pending)
        ((intersected doc.dialect schema).filter Node.isMap) [] := by
    rw [intersected, hc]
    exact .nil
  cases h with
  | array => rcases hshape with h | h | h <;> cases h
  | dictionary => rcases hshape with h | h | h <;> cases h
  | @composition shape branches parts required members _ _ hc hp hm hq =>
    obtain rfl : shape = .allOf := by
      rcases composition?_shape hc with rfl | rfl | rfl
      · rcases hshape with h | h | h <;> cases h
      · rcases hshape with h | h | h <;> cases h
      · rfl
    refine ⟨parts, required, members, ?_, hm, hq, ?_, ?_⟩
    · rwa [intersected, hc]
    · simp [Composition.model, Composition.append, Composition.ofProperties]
    · rw [← Composition.properties_ofParts_allOf]
      rfl
  | @interface required members _ _ hc _ hm hq =>
    exact ⟨[], required, members, hnone hc, hm, .inr hq, rfl, rfl⟩
  | keyword _ _ hc he =>
    exact ⟨[], [], [], hnone hc, by simpa [he] using makesMembers_nil, .inl he, rfl, rfl⟩

theorem IsLayer.reference?_eq_none (h : IsLayer schema) : Pointer.reference? schema = none := by
  rw [Pointer.reference?, h.reference]
  rfl

theorem IsLayer.kind_eq (h : IsLayer schema) (hk : schema.member "type" = .ok kind) :
    kind = .null ∨ kind = .str "object" := by
  rw [Node.member_eq_ok h.isMap] at hk
  obtain rfl := Except.ok.inj hk
  rcases h.kind with hget | hget <;> simp [hget]

/-- A layer makes an object, an intersection or neither. -/
theorem IsLayer.shape_cases (h : IsLayer schema) (hk : schema.member "type" = .ok kind)
    (hm : doc.MakesStructure pending schema kind m) :
    m.shape = .allOf ∨ m.shape = .interface ∨ m.shape = .generic := by
  cases hm with
  | array hi =>
    rcases h.kind_eq hk with rfl | rfl <;> simp [arrayItems?, Dialect.isText, Node.text?] at hi
  | dictionary _ hv => simp [dictionaryValues?, h.values] at hv
  | @composition shape branches _ _ _ _ _ hc =>
    obtain ⟨keyword, hmem, hget⟩ := get?_of_composition? hc
    have hkeyword := compositions_subset doc.dialect hmem
    simp only [List.mem_cons, List.not_mem_nil, or_false, Prod.mk.injEq] at hkeyword
    rcases hkeyword with ⟨rfl, -⟩ | ⟨rfl, -⟩ | ⟨-, rfl⟩
    · simp [h.oneOf] at hget
    · simp [h.anyOf] at hget
    · exact .inl rfl
  | interface => exact .inr (.inl rfl)
  | keyword => exact .inr (.inr rfl)

theorem IsLayer.not_enum (h : IsLayer schema) : enumModel? doc.dialect schema ≠ .ok (some m) := by
  intro he
  obtain ⟨source, members, hstands, -⟩ := source_of_enumModel? he
  cases hstands with
  | listed _ hv =>
    have hget := Node.get?_of_member hv Node.noConfusion
    rw [h.enum] at hget
    cases hget
  | described he =>
    unfold Dialect.hasDescriptionEnum at he
    split at he
    · obtain ⟨kind, hk, he⟩ := bind_eq_ok.mp he
      obtain ⟨node, -, he⟩ := bind_eq_ok.mp he
      have hinteger := pure_eq_ok.mp he
      rcases h.kind_eq hk with rfl | rfl <;> simp [Dialect.isText, Node.text?] at hinteger
    · cases he

/-- The parts and the properties of an intersection or a layer that is built. -/
theorem layer_of_build {isDefinition : Bool} {name : Option String}
    (h : doc.build pending isDefinition name schema = .ok m)
    (hr : Pointer.reference? schema = none) (hlayer : m.shape = .allOf ∨ IsLayer schema) :
    m.shape ≠ .reference ∧ ∃ parts required members,
      List.Forall₂ (doc.MakesPart pending)
        ((intersected doc.dialect schema).filter Node.isMap) parts ∧
      doc.MakesMembers pending ((properties? schema).getD []) members ∧
      (properties? schema = none ∨ requiredKeys schema = .ok required) ∧
      m.parents = distinct (Composition.ofParts .allOf parts).parents ∧
      m.properties = (parts.filterMap Part.link).flatMap Model.properties ++
        members.map (Member.property required) := by
  cases step_of_build h with
  | noSchema hmap =>
    rcases hlayer with hshape | hlayer
    · cases hshape
    · simp [hlayer.isMap] at hmap
  | target hr' => simp [hr] at hr'
  | @made outline body _ _ _ hm =>
    cases hm with
    | named hr' => simp [hr] at hr'
    | again hr' => simp [hr] at hr'
    | enum _ he =>
      rcases hlayer with hshape | hlayer
      · obtain ⟨source, members, -, -, -, rfl⟩ := source_of_enumModel? he
        cases hshape
      · exact absurd he hlayer.not_enum
    | plain _ _ hk hm =>
      have hshape : body.shape = .allOf ∨ body.shape = .interface ∨ body.shape = .generic :=
        hlayer.elim .inl fun hlayer => hlayer.shape_cases hk hm
      refine ⟨fun h => ?_, hm.properties_eq hshape⟩
      change body.shape = .reference at h
      rw [h] at hshape
      simp at hshape

theorem requires_iff_mem {required : List Scalar} (hq : requiredKeys schema = .ok required)
    (key : String) : Requires schema key ↔ .str key ∈ required := by
  constructor
  · rintro ⟨keys, hkeys, hmem⟩
    rw [hq] at hkeys
    exact Except.ok.inj hkeys ▸ hmem
  · exact fun hmem => ⟨required, hq, hmem⟩

theorem isPropertyOf_member {required : List Scalar} {members : List Member}
    (hm : doc.MakesMembers pending ((properties? schema).getD []) members)
    (hq : requiredKeys schema = .ok required) {p : Member} (hp : p ∈ members) :
    doc.IsPropertyOf schema p.entry (p.property required) where
  key := by rw [hm.name_property required hp, Member.entry, hm.key_eq hp]
  made := .property (hm.models p hp)
  required := by
    rw [hm.name_property required hp, requires_iff_mem hq]
    change (required.any (Scalar.sameKey p.key) || p.model.defaultValue.isSome) = true ↔ _
    rw [Bool.or_eq_true, List.any_eq_true, hm.key_eq hp]
    simp only [Scalar.str_sameKey, exists_eq_right]
    rfl

theorem mem_parts_of_intersected {dialect : Dialect} {branch : Node}
    (h : branch ∈ intersected dialect schema) : branch ∈ parts dialect schema := by
  unfold intersected at h
  split at h
  · next hc => exact mem_parts_of_branches hc h
  · cases h

/-- The properties of an intersection are those of its layers, each with the mark that its own layer
gives it. -/
theorem properties_of_layers {isDefinition : Bool} {name : Option String}
    (h : doc.build pending isDefinition name schema = .ok m)
    (hr : Pointer.reference? schema = none) (hlayer : m.shape = .allOf ∨ IsLayer schema)
    (hbelow : ∀ b, Relation.TransGen (Branch doc.dialect) schema b → IsLayer b) :
    (∀ layer, HasLayer doc.dialect schema layer → ∀ e ∈ (properties? layer).getD [],
      ∃ p ∈ m.properties, doc.IsPropertyOf layer e p) ∧
    ∀ p ∈ m.properties, ∃ layer, HasLayer doc.dialect schema layer ∧
      ∃ e ∈ (properties? layer).getD [], doc.IsPropertyOf layer e p := by
  induction pending, schema using buildInduction generalizing isDefinition name m with
  | step pending schema _ smaller =>
    obtain ⟨-, parts, required, members, hp, hm, hq, -, hproperties⟩ := layer_of_build h hr hlayer
    -- The claim for an inline branch, which is a layer as well.
    have hbranch {b : Node} {mb : Model} (hb : Branch doc.dialect schema b)
        (hmb : doc.build pending false (some "") b = .ok mb) := by
      have hlayer := hbelow b (.single hb)
      have hlt := sizeOf_parts (mem_parts_of_intersected hb.1.1)
      exact smaller b hlt hmb hlayer.reference?_eq_none (.inr hlayer)
        fun c hc => hbelow c (.head hb hc)
    have hown {p : Member} (hmem : p ∈ members) :
        doc.IsPropertyOf schema p.entry (p.property required) :=
      isPropertyOf_member hm (hm.requiredKeys_eq hq hmem) hmem
    rw [hproperties]
    constructor
    · intro layer hlayer e he
      rcases Relation.ReflTransGen.cases_head hlayer with rfl | ⟨b, hb, hbelow⟩
      · rw [hm.entries] at he
        obtain ⟨p, hmem, rfl⟩ := List.mem_map.mp he
        exact ⟨_, List.mem_append_right _ (List.mem_map_of_mem hmem), hown hmem⟩
      · obtain ⟨part, hpart, hmakes⟩ := (exists_mem_of_forall₂ hp).1 b (List.mem_filter.mpr hb.1)
        cases part with
        | named ref =>
          have hinline := hb.2 ref hmakes.1
          rw [hmakes.2.1] at hinline
          cases hinline
        | inline node mb =>
          obtain ⟨rfl, -, hmb⟩ := hmakes
          obtain ⟨p, hmem, hof⟩ := (hbranch hb hmb).1 layer hbelow e he
          have hlink := Part.mem_filterMap_link.mpr ⟨node, hpart⟩
          exact ⟨p, List.mem_append_left _ (List.mem_flatMap_of_mem hlink hmem), hof⟩
    · intro p hmem
      rcases List.mem_append.mp hmem with hmem | hmem
      · obtain ⟨mb, hlink, hmem⟩ := List.mem_flatMap.mp hmem
        obtain ⟨b, hpart⟩ := Part.mem_filterMap_link.mp hlink
        obtain ⟨hb, hinline, hmb⟩ := branch_of_inline hp hpart
        obtain ⟨layer, hlayer, hof⟩ := (hbranch ⟨hb, hinline⟩ hmb).2 p hmem
        exact ⟨layer, .head ⟨hb, hinline⟩ hlayer, hof⟩
      · obtain ⟨member, hmember, rfl⟩ := List.mem_map.mp hmem
        have hentry : member.entry ∈ (properties? schema).getD [] :=
          hm.entries ▸ List.mem_map_of_mem hmember
        exact ⟨schema, .refl, member.entry, hentry, hown hmember⟩

/-- Of objects and intersections at any depth, an intersection keeps every entry of `properties`,
each with the mark that its own layer gives it, but only the parents that its own branches name. -/
theorem intersection_keeps {isDefinition : Bool} {name : String}
    (h : doc.model schema isDefinition name = .ok m) (hshape : m.shape = .allOf)
    (hr : Pointer.reference? schema = none)
    (hbelow : ∀ b, Relation.TransGen (Branch doc.dialect) schema b → IsLayer b) :
    doc.KeepsLayers schema m := by
  obtain ⟨hentries, hproperties⟩ := properties_of_layers h hr (.inl hshape) hbelow
  refine ⟨fun q => ?_, hentries, hproperties⟩
  obtain ⟨-, parts, required, members, hp, -, -, hparents, -⟩ :=
    layer_of_build h hr (.inl hshape)
  have hreference : ∀ b mb, .inline b mb ∈ parts → mb.shape ≠ .reference := by
    intro b mb hpart
    obtain ⟨hb, hinline, hmb⟩ := branch_of_inline hp hpart
    have hlayer := hbelow b (.single ⟨hb, hinline⟩)
    exact (layer_of_build hmb hlayer.reference?_eq_none (.inr hlayer)).1
  have hextends (ref : String) : .named ref ∈ parts ↔ Extends doc.dialect schema ref := by
    constructor
    · intro hpart
      obtain ⟨b, hb, hr, hs, -⟩ := (exists_mem_of_forall₂ hp).2 _ hpart
      obtain ⟨hmem, hmap⟩ := List.mem_filter.mp hb
      exact ⟨b, hmem, hmap, hr, hs⟩
    · rintro ⟨b, hmem, hmap, hr, hs⟩
      obtain ⟨part, hpart, hmakes⟩ :=
        (exists_mem_of_forall₂ hp).1 b (List.mem_filter.mpr ⟨hmem, hmap⟩)
      cases part with
      | named ref' =>
        obtain rfl : ref = ref' := Option.some.inj (hr.symm.trans hmakes.1)
        exact hpart
      | inline node mb =>
        have hinline := hmakes.2.1 ref hr
        rw [hs] at hinline
        cases hinline
  rw [hparents, mem_distinct, Composition.mem_parents_ofParts hreference]
  simp only [hextends]

namespace PetKin

def document : ApiDocument where
  dialect := .swagger2
  root := .map [(.str "definitions", .map [(.str "Animal", .map [])])]
  schemas := [(.str "Animal", .map [])]

def animal : Node := .map [(.str "$ref", .str "#/definitions/Animal")]

/-- An intersection inside of another one. -/
def kin : Node := .map [(.str "allOf", .list [animal])]

def named : Node := .map [(.str "properties", .map [(.str "name", .map [])])]

/-- A schema that requires a key of one of its branches. -/
def pet : Node :=
  .map [(.str "allOf", .list [kin, named]), (.str "required", .list [.str "name"])]

def kinModel : Model :=
  { shape := .allOf, type := { imports := ["Animal"] }, parents := ["Animal"] }

def nameModel : Model := { name := "name", shape := .generic }

def namedModel : Model := { properties := [nameModel] }

def petModel : Model where
  name := "Pet"
  shape := .allOf
  type := { imports := ["Animal"] }
  isDefinition := true
  properties := [nameModel]

section Build

variable (pending : List String)

theorem build_kin : document.build pending false (some "") kin = .ok kinModel := by
  have htype : TypeExpr.ofText "#/definitions/Animal" =
      { text := "Animal", base := "Animal", imports := ["Animal"] } := by decide +kernel
  have hpart : document.MakesPart pending animal (.named "#/definitions/Animal") :=
    ⟨rfl, by decide, rfl⟩
  have hparts : List.Forall₂ (document.MakesPart pending) [animal] _ := .cons hpart .nil
  refine (build_of_makes rfl rfl
    (.plain rfl rfl rfl (.composition rfl rfl rfl hparts makesMembers_nil (.inr rfl)))).trans ?_
  rw [Composition.ofParts, Part.contribution, htype]
  rfl

theorem build_named : document.build pending false (some "") named = .ok namedModel := by
  have hname : document.build pending false (some "name") (.map []) = .ok nameModel :=
    (build_of_makes rfl rfl (.plain rfl rfl rfl (.keyword rfl rfl rfl rfl))).trans rfl
  have hmembers : document.MakesMembers pending [(.str "name", .map [])]
      [⟨.str "name", .map [], nameModel⟩] := ⟨rfl, List.forall_mem_singleton.mpr hname⟩
  exact (build_of_makes rfl rfl
    (.plain rfl rfl rfl (.interface rfl rfl rfl rfl hmembers rfl))).trans rfl

theorem build_pet : document.build pending true (some "Pet") pet = .ok petModel := by
  have hparts : List.Forall₂ (document.MakesPart pending) [kin, named] _ :=
    .cons (makesPart_of_build rfl (build_kin pending))
      (.cons (makesPart_of_build rfl (build_named pending)) .nil)
  exact (build_of_makes rfl rfl
    (.plain rfl rfl rfl (.composition rfl rfl rfl hparts makesMembers_nil (.inr rfl)))).trans rfl

end Build

theorem model_pet : document.model pet true "Pet" = .ok petModel := build_pet _

theorem not_branch_kin (b : Node) : ¬ Branch document.dialect kin b := by
  rintro ⟨⟨hmem, -⟩, hinline⟩
  obtain rfl : b = animal := List.mem_singleton.mp hmem
  exact absurd (hinline "#/definitions/Animal" rfl) (by decide)

theorem not_branch_named (b : Node) : ¬ Branch document.dialect named b := by
  rintro ⟨⟨hmem, -⟩, -⟩
  cases hmem

theorem branch_kin : Branch document.dialect pet kin :=
  ⟨⟨List.mem_cons_self, rfl⟩, fun ref h => by cases h⟩

theorem isLayer_below (b : Node) (h : Relation.TransGen (Branch document.dialect) pet b) :
    IsLayer b := by
  have hcases : b = kin ∨ b = named := by
    induction h with
    | single hb => simpa using (show _ ∈ [kin, named] from hb.1.1)
    | tail _ hb ih =>
      rcases ih with rfl | rfl
      · exact absurd hb (not_branch_kin _)
      · exact absurd hb (not_branch_named _)
  rcases hcases with rfl | rfl
  · exact ⟨rfl, rfl, rfl, .inl rfl, rfl, rfl, rfl⟩
  · exact ⟨rfl, rfl, rfl, .inl rfl, rfl, rfl, rfl⟩

theorem pet_keeps : (document.model pet true "Pet" = .ok petModel ∧ petModel.shape = .allOf ∧
      Pointer.reference? pet = none ∧
      ∀ b, Relation.TransGen (Branch document.dialect) pet b → IsLayer b) ∧
    document.KeepsLayers pet petModel :=
  ⟨⟨model_pet, rfl, rfl, isLayer_below⟩, intersection_keeps model_pet rfl rfl isLayer_below⟩

/-- The parent that an inner intersection names is lost, and a key that the whole requires is
optional where a branch has it. -/
theorem pet_loses : document.model pet true "Pet" = .ok petModel ∧ petModel.shape = .allOf ∧
    (Branch document.dialect pet kin ∧ Extends document.dialect kin "#/definitions/Animal" ∧
      (TypeExpr.ofText "#/definitions/Animal").base = "Animal" ∧ "Animal" ∉ petModel.parents) ∧
    Requires pet "name" ∧ petModel.properties = [nameModel] ∧ nameModel.name = "name" ∧
      ¬ nameModel.isRequired := by
  have hextends : Extends document.dialect kin "#/definitions/Animal" :=
    ⟨animal, List.mem_cons_self, rfl, rfl, by decide⟩
  have hbase : (TypeExpr.ofText "#/definitions/Animal").base = "Animal" := by decide +kernel
  have hrequires : Requires pet "name" := ⟨[.str "name"], rfl, List.mem_cons_self⟩
  exact ⟨model_pet, rfl, ⟨branch_kin, hextends, hbase, List.not_mem_nil⟩, hrequires, rfl, rfl,
    Bool.false_ne_true⟩

end PetKin

end ApiDocument

end ClientGen
