import ClientGen.Proofs.Schema.MovedSchema
import ClientGen.Proofs.Schema.NamedSchemas

/-! Both dialects make the same models of schemas without the keywords that only one of them
honours. -/

namespace ClientGen

/-- What a schema must not hold for both dialects to read it alike. -/
structure Node.IsPlain (schema : Node) : Prop where
  nullable : schema.get? "x-nullable" = none ∧ schema.get? "nullable" = none
  unions : schema.get? "oneOf" = none ∧ schema.get? "anyOf" = none
  types : ∀ items, schema.get? "type" = some (.list items) → .str "null" ∉ items
  booleans : schema.get? "type" = some (.str "boolean") → schema.get? "enum" = none
  descriptions : ∀ text, schema.get? "type" = some (.str "int") ∨
    schema.get? "type" = some (.str "integer") → schema.get? "description" = some (.str text) →
    EnumEntry.ofDescription text = .ok []
  references : ∀ value, schema.get? "$ref" = some value → ∃ key : List Char, key ≠ [] ∧ '/' ∉ key ∧
    '[' ∉ key ∧ value = .str (Dialect.swagger2.schemaNamespace ++ String.ofList key)

/-- Schemas that both dialects read alike: they are plain wherever a schema is inside them. -/
inductive Node.Shared : Node → Prop
  | intro {schema : Node} (plain : schema.IsPlain)
      (parts : ∀ p ∈ ApiDocument.parts .swagger2 schema, Shared p) : Shared schema

namespace Node.Shared

variable {schema : Node} (h : schema.Shared)
include h

theorem plain : schema.IsPlain := by
  cases h with
  | intro plain _ => exact plain

theorem parts : ∀ p ∈ ApiDocument.parts .swagger2 schema, p.Shared := by
  cases h with
  | intro _ parts => exact parts

theorem properties {es : Entries} (hp : ApiDocument.properties? schema = some es) :
    ∀ e ∈ es, e.2.Shared :=
  fun e he => h.parts e.2 (ApiDocument.mem_parts_of_properties (by simpa [hp] using he))

end Node.Shared

/-- Outcomes are one, but for the spelling of a reference in a fault. -/
inductive Agree {α : Type} : Except Fault α → Except Fault α → Prop
  | same (x : Except Fault α) : Agree x x
  | moved (fault : Fault) : Agree (.error fault) (.error fault.moved)

theorem Agree.eq_ok {α : Type} {x y : Except Fault α} {a : α} (h : Agree x y) (hx : x = .ok a) :
    y = .ok a := by
  cases h with
  | same => exact hx
  | moved => cases hx

theorem Agree.bind {α β : Type} {x y : Except Fault α} {f g : α → Except Fault β} (h : Agree x y)
    (hf : ∀ a, Agree (f a) (g a)) : Agree (x >>= f) (y >>= g) := by
  cases h with
  | same =>
    cases x with
    | ok a => exact hf a
    | error fault => exact .same (.error fault)
  | moved fault => exact .moved fault

namespace Dialect

variable {schema : Node}

theorem isText_iff {node : Node} {s : String} : isText node s ↔ node = .str s := by
  unfold isText Node.text?
  split <;> simp_all

theorem get?_of_isText {key s : String} (h : isText ((schema.get? key).getD .null) s) :
    schema.get? key = some (.str s) := by
  cases hget : schema.get? key with
  | none =>
    rw [hget] at h
    cases isText_iff.mp h
  | some value =>
    rw [hget] at h
    exact congrArg some (isText_iff.mp h)

variable (h : schema.IsPlain) (hmap : schema.isMap)
include h hmap

theorem isNullable_moved : openApi3.isNullable schema.moved = swagger2.isNullable schema := by
  unfold isNullable
  dsimp only
  rw [Node.member_moved_data _ (by decide), Node.member_moved_data _ (by decide),
    Node.member_eq_ok hmap, Node.member_eq_ok hmap, Node.member_eq_ok hmap, h.nullable.1,
    h.nullable.2]
  cases htype : schema.get? "type" with
  | none => rfl
  | some kind =>
    cases kind with
    | list items =>
      have hnull : (items.any fun item => isText item "null") = false := by
        rw [List.any_eq_false]
        intro item hitem htext
        exact h.types items htype (isText_iff.mp htext ▸ hitem)
      exact congrArg Except.ok (by simpa [Node.isBool] using hnull)
    | scalar s => rfl
    | map es => rfl

theorem hasEnum_moved : openApi3.hasEnum schema.moved = swagger2.hasEnum schema := by
  unfold hasEnum
  rw [Node.member_moved_data _ (by decide), Node.member_moved_data _ (by decide),
    Node.member_eq_ok hmap, Node.member_eq_ok hmap]
  cases htext : isText ((schema.get? "type").getD .null) "boolean" with
  | false => exact congrArg Except.ok (by simp [htext])
  | true =>
    rw [h.booleans (get?_of_isText htext)]
    rfl

/-- No description of a plain schema lists its values. -/
theorem ofDescription_of_hasDescriptionEnum (hd : swagger2.hasDescriptionEnum schema = .ok true) :
    EnumEntry.ofDescription ((((schema.get? "description").getD .null).text?).getD "") =
      .ok [] := by
  unfold hasDescriptionEnum at hd
  dsimp only at hd
  rw [Node.member_eq_ok hmap, Node.member_eq_ok hmap] at hd
  obtain ⟨htype, -⟩ := Bool.and_eq_true_iff.mp (Except.ok.inj hd)
  have htype : schema.get? "type" = some (.str "int") ∨
      schema.get? "type" = some (.str "integer") :=
    (Bool.or_eq_true_iff.mp htype).imp get?_of_isText get?_of_isText
  cases htext : ((schema.get? "description").getD .null).text? with
  | none => rfl
  | some text =>
    have hdescription : schema.get? "description" = some (.str text) :=
      get?_of_isText (by simp [isText, htext])
    exact h.descriptions text htype hdescription

end Dialect

namespace Outline

theorem ofSchema_moved {schema : Node} (h : schema.IsPlain) (hmap : schema.isMap)
    (isDefinition : Bool) (name : Option String) :
    ofSchema .openApi3 isDefinition name schema.moved =
      ofSchema .swagger2 isDefinition name schema := by
  unfold ofSchema
  rw [Dialect.isNullable_moved h hmap, DefaultLiteral.ofSchema_moved,
    Constraints.fieldsOfSchema_moved, Node.member_moved_data _ (by decide),
    Node.member_moved_data _ (by decide)]

end Outline

namespace ApiDocument

variable {schema : Node}

/-- A plain schema has no enumeration in its description. -/
theorem describedMembers_plain (h : schema.IsPlain) (hmap : schema.isMap) :
    describedMembers .swagger2 schema = .ok [] := by
  have hkinds : ∃ described, Dialect.swagger2.hasDescriptionEnum schema = .ok described := by
    unfold Dialect.hasDescriptionEnum
    dsimp only
    rw [Node.member_eq_ok hmap, Node.member_eq_ok hmap]
    exact ⟨_, rfl⟩
  obtain ⟨described, hd⟩ := hkinds
  unfold describedMembers
  rw [hd, Node.member_eq_ok hmap]
  cases described with
  | false => rfl
  | true => exact Dialect.ofDescription_of_hasDescriptionEnum h hmap hd

theorem listedMembers_moved (h : schema.IsPlain) (hmap : schema.isMap) :
    listedMembers .openApi3 schema.moved = listedMembers .swagger2 schema := by
  unfold listedMembers
  rw [Dialect.hasEnum_moved h hmap]
  simp only [Node.member_moved_data _ (show Holding.ofKey (.str "enum") = .data by decide),
    Node.member_moved_data _ (show Holding.ofKey (.str "x-enum-varnames") = .data by decide),
    Node.member_moved_data _ (show Holding.ofKey (.str "x-enum-descriptions") = .data by decide)]

theorem enumModel?_moved (h : schema.IsPlain) (hmap : schema.isMap) :
    enumModel? .openApi3 schema.moved = enumModel? .swagger2 schema := by
  unfold enumModel?
  rw [listedMembers_moved h hmap, describedMembers_plain h hmap]
  rfl

theorem composition?_moved (h : schema.IsPlain) :
    composition? .openApi3 schema.moved =
      (composition? .swagger2 schema).map fun (shape, branches) =>
        (shape, branches.map Node.moved) := by
  have hnone (keyword : String) (hdata : Holding.ofKey (.str keyword) = .data)
      (hget : schema.get? keyword = none) : branches? schema.moved keyword = none := by
    unfold branches?
    rw [Node.get?_moved_data _ hdata, hget]
  unfold composition? Dialect.compositions
  simp only [List.findSome?_cons, hnone "oneOf" (by decide) h.unions.1,
    hnone "anyOf" (by decide) h.unions.2, branches?_moved, Option.map_none]
  cases branches? schema "allOf" <;> rfl

end ApiDocument

theorem movedReference_append (key : List Char) :
    movedReference (Dialect.swagger2.schemaNamespace ++ String.ofList key) =
      Dialect.openApi3.schemaNamespace ++ String.ofList key := by
  unfold movedReference
  rw [Dialect.schemaKey?_append]

namespace ApiDocument

/-- A Swagger 2.0 document and an OpenAPI 3 document that name the same schemas. -/
structure Counterparts (doc other : ApiDocument) : Prop where
  swagger : doc.dialect = .swagger2
  openApi : other.dialect = .openApi3
  keys : ∀ key, key ∈ doc.schemas.map Prod.fst ↔ key ∈ other.schemas.map Prod.fst

section

variable {doc other : ApiDocument} (h : Counterparts doc other)
include h

theorem typeOfReference_agrees {key : List Char} (hslash : '/' ∉ key) :
    Agree (doc.typeOfReference (Dialect.swagger2.schemaNamespace ++ String.ofList key))
      (other.typeOfReference (Dialect.openApi3.schemaNamespace ++ String.ofList key)) := by
  have hdoc := namedSchema?_append doc key
  have hother := namedSchema?_append other key
  rw [h.swagger] at hdoc
  rw [h.openApi] at hother
  have hsome : (doc.schemas.get? (String.ofList (Pointer.unescapeChars key))).isSome =
      (other.schemas.get? (String.ofList (Pointer.unescapeChars key))).isSome := by
    rw [Bool.eq_iff_iff, Entries.isSome_get?, Entries.isSome_get?, h.keys]
  unfold typeOfReference
  rw [hdoc, hother, ← movedReference_append key]
  cases hd : doc.schemas.get? (String.ofList (Pointer.unescapeChars key)) with
  | none =>
    cases ho : other.schemas.get? (String.ofList (Pointer.unescapeChars key)) with
    | none => exact .moved (.unresolved _ .noSchema)
    | some schema => simp [hd, ho] at hsome
  | some schema =>
    cases ho : other.schemas.get? (String.ofList (Pointer.unescapeChars key)) with
    | none => simp [hd, ho] at hsome
    | some schema =>
      rw [movedReference_append, TypeExpr.ofText_schemaNamespace .openApi3 .swagger2 hslash]
      exact .same _

omit h in
/-- A reference of a plain schema names a schema. -/
theorem reference?_cases {schema : Node} (hs : schema.IsPlain) :
    Pointer.reference? schema = none ∨ ∃ key : List Char, key ≠ [] ∧ '/' ∉ key ∧ '[' ∉ key ∧
      Pointer.reference? schema =
        some (Dialect.swagger2.schemaNamespace ++ String.ofList key) := by
  unfold Pointer.reference?
  cases href : schema.get? "$ref" with
  | none => exact .inl rfl
  | some value =>
    obtain ⟨key, hne, hslash, hbracket, rfl⟩ := hs.references value href
    exact .inr ⟨key, hne, hslash, hbracket, rfl⟩

variable {p q : List String}

private theorem buildItem_agrees {node : Node} (hs : node.IsPlain)
    (inline : (Pointer.reference? node).filter doc.dialect.isSchemaRef = none →
      Agree (doc.build p false (some "") node) (other.build q false (some "") node.moved)) :
    Agree (doc.buildItem p node) (other.buildItem q node.moved) := by
  rw [buildItem, buildItem, Pointer.reference?_moved]
  rcases reference?_cases hs with hr | ⟨key, hne, hslash, hbracket, hr⟩
  · rw [hr] at inline ⊢
    exact (inline rfl).bind fun m => .same _
  · rw [hr, h.swagger, h.openApi, Option.map_some, movedReference_append,
      Option.filter_some_pos (Dialect.isSchemaRef_append _ hne hslash hbracket),
      Option.filter_some_pos (Dialect.isSchemaRef_append _ hne hslash hbracket)]
    exact (typeOfReference_agrees h hslash).bind fun type => .same _

private theorem buildBranches_agrees {shape : Shape} {branch : Node} {rest : List Node}
    (hs : branch.IsPlain)
    (inline : branch.isMap → (Pointer.reference? branch).filter doc.dialect.isSchemaRef = none →
      Agree (doc.build p false (some "") branch) (other.build q false (some "") branch.moved))
    (others : Agree (doc.buildBranches p shape rest)
      (other.buildBranches q shape (rest.map Node.moved))) :
    Agree (doc.buildBranches p shape (branch :: rest))
      (other.buildBranches q shape ((branch :: rest).map Node.moved)) := by
  rw [List.map_cons, buildBranches, buildBranches, Pointer.reference?_moved, Node.isMap_moved]
  split
  · next hmap =>
    rcases reference?_cases hs with hr | ⟨key, hne, hslash, hbracket, hr⟩
    · rw [hr] at inline ⊢
      exact (inline hmap rfl).bind fun m => others.bind fun c => .same _
    · rw [hr, h.swagger, h.openApi, Option.map_some, movedReference_append,
        Option.filter_some_pos (Dialect.isSchemaRef_append _ hne hslash hbracket),
        Option.filter_some_pos (Dialect.isSchemaRef_append _ hne hslash hbracket)]
      exact (typeOfReference_agrees h hslash).bind fun type =>
        others.bind fun c => .same _
  · exact others.bind fun c => .same _

omit h in
private theorem buildProperties_agrees {required : List Scalar} {key : Scalar} {schema : Node}
    {rest : Entries}
    (inline : Agree (doc.build p false key.text? schema)
      (other.build q false key.text? schema.moved))
    (others : Agree (doc.buildProperties p required rest)
      (other.buildProperties q required (rest.map fun (key, value) => (key, value.moved)))) :
    Agree (doc.buildProperties p required ((key, schema) :: rest))
      (other.buildProperties q required
        (((key, schema) :: rest).map fun (key, value) => (key, value.moved))) := by
  rw [List.map_cons, buildProperties, buildProperties]
  exact inline.bind fun m => others.bind fun ms => .same _

private theorem buildStructure_agrees {outline : Outline} {schema : Node} (hs : schema.IsPlain)
    (items : ∀ kind node, arrayItems? kind schema = some node →
      Agree (doc.buildItem p node) (other.buildItem q node.moved))
    (values : ∀ kind node, dictionaryValues? kind schema = some node →
      Agree (doc.buildItem p node) (other.buildItem q node.moved))
    (branches : ∀ shape nodes, composition? .swagger2 schema = some (shape, nodes) →
      Agree (doc.buildBranches p shape nodes) (other.buildBranches q shape (nodes.map Node.moved)))
    (properties : ∀ es, properties? schema = some es → ∀ required,
      Agree (doc.buildProperties p required es)
        (other.buildProperties q required (es.map fun (key, value) => (key, value.moved)))) :
    Agree (doc.buildStructure p outline schema) (other.buildStructure q outline schema.moved) := by
  rw [buildStructure, buildStructure, Node.member_moved_data _ (by decide)]
  refine Agree.bind (.same _) fun kind => ?_
  rw [arrayItems?_moved, dictionaryValues?_moved, properties?_moved, h.swagger, h.openApi,
    composition?_moved hs]
  cases hi : arrayItems? kind schema with
  | some node => exact (items kind node hi).bind fun found => .same _
  | none =>
  cases hv : dictionaryValues? kind schema with
  | some node => exact (values kind node hv).bind fun found => .same _
  | none =>
  cases hc : composition? .swagger2 schema with
  | some found =>
    obtain ⟨shape, nodes⟩ := found
    refine (branches shape nodes hc).bind fun c => ?_
    cases hp : properties? schema with
    | some es =>
      dsimp only [Option.map_some]
      rw [requiredKeys_moved]
      exact Agree.bind (.same _) fun required => (properties es hp required).bind fun ms => .same _
    | none => exact .same _
  | none =>
  cases hp : properties? schema with
  | some es =>
    dsimp only [Option.map_some, Option.map_none]
    rw [requiredKeys_moved]
    exact Agree.bind (.same _) fun required => (properties es hp required).bind fun ms => .same _
  | none => exact .same _

private theorem build_agrees_step {isDefinition : Bool} {name : Option String} {schema : Node}
    (hs : schema.IsPlain)
    (structured : schema.isMap → ∀ outline,
      Agree (doc.buildStructure p outline schema) (other.buildStructure q outline schema.moved)) :
    Agree (doc.build p isDefinition name schema)
      (other.build q isDefinition name schema.moved) := by
  rw [build, build, Node.isMap_moved, h.swagger, h.openApi, Pointer.reference?_moved]
  cases hmap : schema.isMap with
  | false => exact .same _
  | true =>
    simp only [Bool.not_true, Bool.false_eq_true, if_false]
    rw [Outline.ofSchema_moved hs hmap]
    refine Agree.bind (.same _) fun outline => ?_
    rcases reference?_cases hs with hr | ⟨key, hne, hslash, hbracket, hr⟩
    · rw [hr, Option.map_none, enumModel?_moved hs hmap]
      refine Agree.bind (.same _) fun found => ?_
      cases found with
      | some m => exact .same _
      | none => exact structured hmap outline
    · rw [hr, Option.map_some, movedReference_append]
      dsimp only
      rw [if_pos (Dialect.isSchemaRef_append _ hne hslash hbracket),
        if_pos (Dialect.isSchemaRef_append _ hne hslash hbracket)]
      exact (typeOfReference_agrees h hslash).bind fun type => .same _

/-- Both dialects make one model of a shared schema, or refuse it for one reason. -/
theorem build_agrees {isDefinition : Bool} {name : Option String} {schema : Node}
    (hs : schema.Shared) :
    Agree (doc.build p isDefinition name schema)
      (other.build q isDefinition name schema.moved) := by
  refine build.induct doc
    (fun p isDefinition name schema => schema.Shared → ∀ q,
      Agree (doc.build p isDefinition name schema) (other.build q isDefinition name schema.moved))
    (fun p outline schema => schema.Shared → ∀ q,
      Agree (doc.buildStructure p outline schema) (other.buildStructure q outline schema.moved))
    (fun p required es => (∀ e ∈ es, e.2.Shared) → ∀ q,
      Agree (doc.buildProperties p required es)
        (other.buildProperties q required (es.map fun (key, value) => (key, value.moved))))
    (fun p shape branches => (∀ b ∈ branches, b.Shared) → ∀ q,
      Agree (doc.buildBranches p shape branches)
        (other.buildBranches q shape (branches.map Node.moved)))
    (fun p node => node.Shared → ∀ q,
      Agree (doc.buildItem p node) (other.buildItem q node.moved))
    ?_ ?_ ?_ ?_ ?_ ?_ ?_ ?_ ?_ ?_ ?_ p isDefinition name schema hs q
  · intro p isDefinition name schema hmap hs q
    exact build_agrees_step h hs.plain fun hm => by simp [hm] at hmap
  · intro p isDefinition name schema _ _ structured hs q
    exact build_agrees_step h hs.plain fun _ outline => structured outline hs q
  · intro p outline schema items values branches properties hs q
    refine buildStructure_agrees h hs.plain ?_ ?_ ?_ ?_
    · exact fun kind node hi => items kind node hi (hs.parts node (mem_parts_of_items hi)) q
    · exact fun kind node hv => values kind node hv (hs.parts node (mem_parts_of_values hv)) q
    · exact fun shape nodes hc => branches shape nodes (h.swagger ▸ hc)
        (fun b hb => hs.parts b (mem_parts_of_branches hc hb)) q
    · exact fun es hp required => properties es hp required (hs.properties hp) q
  · intro p required _ q
    rw [List.map_nil, buildProperties, buildProperties]
    exact .same _
  · intro p required key schema rest inline others hs q
    exact buildProperties_agrees (inline (hs _ List.mem_cons_self) q)
      (others (fun e he => hs e (List.mem_cons_of_mem _ he)) q)
  · intro p shape _ q
    rw [List.map_nil, buildBranches, buildBranches]
    exact .same _
  · intro p shape branch rest _ ref hf others hs q
    exact buildBranches_agrees h (hs _ List.mem_cons_self).plain
      (fun _ hn => by simp [hf] at hn) (others (fun b hb => hs b (List.mem_cons_of_mem _ hb)) q)
  · intro p shape branch rest _ _ others inline hs q
    have hbranch := hs _ List.mem_cons_self
    exact buildBranches_agrees h hbranch.plain (fun _ _ => inline hbranch q)
      (others (fun b hb => hs b (List.mem_cons_of_mem _ hb)) q)
  · intro p shape branch rest hmap others hs q
    exact buildBranches_agrees h (hs _ List.mem_cons_self).plain (fun hm => absurd hm hmap)
      (others (fun b hb => hs b (List.mem_cons_of_mem _ hb)) q)
  · intro p node ref hf hs q
    exact buildItem_agrees h hs.plain fun hn => by simp [hf] at hn
  · intro p node _ inline hs q
    exact buildItem_agrees h hs.plain fun _ => inline hs q

/-- A schema that both dialects read alike has one model in a Swagger 2.0 document and, with its
references spelled in the other way, in an OpenAPI 3 document that names the same schemas; or it is
refused in both for one reason. -/
theorem dialects_agree {schema : Node} (hs : schema.Shared) (isDefinition : Bool) (name : String) :
    Agree (doc.model schema isDefinition name) (other.model schema.moved isDefinition name) :=
  build_agrees h hs

end

namespace PetHouse

def pet : Node := .map [(.str "$ref", .str "#/definitions/pet")]

def pets : Node := .map [(.str "type", .str "array"), (.str "items", pet)]

def owned : Node := .map [(.str "properties", .map [(.str "pets", pets)])]

def house : Node := .map [(.str "allOf", .list [pet, owned]), (.str "default", pet)]

def swagger : ApiDocument :=
  { dialect := .swagger2, root := .null, schemas := [(.str "pet", .null)] }

def openApi : ApiDocument :=
  { dialect := .openApi3, root := .null, schemas := [(.str "pet", pets)] }

def petType : TypeExpr := { text := "Pet", base := "Pet", imports := ["Pet"] }

def petsModel : Model := { name := "Pets", shape := .array, isDefinition := true, type := petType }

theorem shared_pet : pet.Shared := by
  refine .intro ⟨⟨rfl, rfl⟩, ⟨rfl, rfl⟩, nofun, nofun, ?_, ?_⟩ nofun
  · rintro text (h | h) <;> cases h
  · rintro value ⟨⟩
    exact ⟨"pet".toList, by decide, by decide, by decide, rfl⟩

theorem shared_pets : pets.Shared := by
  refine .intro ⟨⟨rfl, rfl⟩, ⟨rfl, rfl⟩, ?_, fun _ => rfl, fun _ _ => nofun, nofun⟩ ?_
  · rintro items ⟨⟩
  · rw [show parts .swagger2 pets = [pet] from rfl]
    simp [shared_pet]

theorem shared_owned : owned.Shared := by
  refine .intro ⟨⟨rfl, rfl⟩, ⟨rfl, rfl⟩, nofun, nofun, fun _ _ => nofun, nofun⟩ ?_
  rw [show parts .swagger2 owned = [pets] from rfl]
  simp [shared_pets]

theorem shared_house : house.Shared := by
  refine .intro ⟨⟨rfl, rfl⟩, ⟨rfl, rfl⟩, nofun, nofun, fun _ _ => nofun, nofun⟩ ?_
  rw [show parts .swagger2 house = [pet, owned] from rfl]
  simp [shared_pet, shared_owned]

theorem model_pets : swagger.model pets true "Pets" = .ok petsModel := by
  let outline : Outline := ⟨some "Pets", true, none, false, false, none, []⟩
  have htype : swagger.typeOfReference "#/definitions/pet" = .ok petType :=
    typeOfReference_eq_ok.mpr ⟨rfl, by decide +kernel⟩
  have hitem (pending : List String) : swagger.buildItem pending pet = .ok (petType, none) := by
    rw [buildItem]
    change (do return (← swagger.typeOfReference "#/definitions/pet", none)) = _
    rw [htype]
    rfl
  have hbuild (pending : List String) :
      swagger.build pending true (some "Pets") pets = .ok petsModel :=
    calc swagger.build pending true (some "Pets") pets
      _ = swagger.buildStructure pending outline pets := by
        rw [build]
        rfl
      _ = (do
          let item ← swagger.buildItem pending pet
          outline.complete { shape := .array, type := item.1, link := item.2 }) := by
        rw [buildStructure]
        rfl
      _ = outline.complete { shape := .array, type := petType } := by
        rw [hitem]
        rfl
      _ = .ok petsModel := rfl
  exact hbuild _

/-- The models of an array of pets are one; a default that looks like a reference is data and is
not moved. -/
theorem dialects_agree_house :
    house.Shared ∧ house.moved.get? "default" = some pet ∧
    Agree (swagger.model house true "House") (openApi.model house.moved true "House") ∧
    pets.Shared ∧ pet.moved = .map [(.str "$ref", .str "#/components/schemas/pet")] ∧
    swagger.model pets true "Pets" = .ok petsModel ∧
    openApi.model pets.moved true "Pets" = .ok petsModel := by
  have hc : swagger.Counterparts openApi := ⟨rfl, rfl, fun _ => Iff.rfl⟩
  have hpets := dialects_agree hc shared_pets true "Pets"
  exact ⟨shared_house, rfl, dialects_agree hc shared_house true "House", shared_pets, rfl,
    model_pets, hpets.eq_ok model_pets⟩

end PetHouse

end ApiDocument

end ClientGen
