import ClientGen.Proofs.Schema.Expansion

/-! Schemas of Swagger 2.0 documents as they stand in OpenAPI 3 documents: the named schemas are at
another place, so that references to them are spelled in another way. -/

namespace ClientGen

/-- A reference to a named schema as OpenAPI 3 documents spell it. -/
def movedReference (ref : String) : String :=
  match Dialect.swagger2.schemaKey? ref with
  | some key => Dialect.openApi3.schemaNamespace ++ String.ofList key
  | none => ref

/-- A fault of a moved schema. -/
def Fault.moved : Fault → Fault
  | .unresolved ref fault => .unresolved (movedReference ref) fault
  | fault => fault

/-- What a schema holds at a keyword. -/
inductive Holding where
  | reference
  | schema
  | branches
  | properties
  | data
deriving DecidableEq

namespace Holding

def ofKey (key : Scalar) : Holding :=
  if key = .str "$ref" then .reference
  else if key = .str "items" ∨ key = .str "additionalProperties" then .schema
  else if key = .str "allOf" then .branches
  else if key = .str "properties" then .properties
  else .data

end Holding

namespace Node

mutual

/-- A schema whose references to named schemas are spelled in the other way, at every place of a
schema inside it. -/
def moved : Node → Node
  | .map es => .map (movedEntries es)
  | node => node

/-- The entries of a moved schema. -/
def movedEntries : List (Scalar × Node) → List (Scalar × Node)
  | [] => []
  | (key, value) :: rest => (key, movedAt (.ofKey key) value) :: movedEntries rest

/-- What a moved schema holds. -/
def movedAt (holding : Holding) (value : Node) : Node :=
  match holding, value with
  | .reference, .scalar (.str ref) => .str (movedReference ref)
  | .schema, .map es => .map (movedEntries es)
  | .branches, .list branches => .list (movedAll branches)
  | .properties, .map es => .map (movedProperties es)
  | _, value => value

def movedAll : List Node → List Node
  | [] => []
  | schema :: rest => moved schema :: movedAll rest

def movedProperties : List (Scalar × Node) → List (Scalar × Node)
  | [] => []
  | (key, schema) :: rest => (key, moved schema) :: movedProperties rest

end

theorem movedAt_schema (node : Node) : movedAt .schema node = node.moved := by
  cases node <;> rfl

theorem movedAt_data (node : Node) : movedAt .data node = node := by
  cases node <;> rfl

theorem movedAt_null (holding : Holding) : movedAt holding .null = .null := by
  cases holding <;> rfl

theorem movedAll_eq_map (schemas : List Node) : movedAll schemas = schemas.map moved := by
  induction schemas with
  | nil => rfl
  | cons schema rest ih => rw [movedAll, ih, List.map_cons]

theorem movedProperties_eq_map (es : Entries) :
    movedProperties es = es.map fun (key, schema) => (key, schema.moved) := by
  induction es with
  | nil => rfl
  | cons e rest ih =>
    obtain ⟨key, schema⟩ := e
    rw [movedProperties, ih, List.map_cons]

private theorem get?_movedEntries (es : Entries) (key : String) :
    Entries.get? (movedEntries es) key =
      (Entries.get? es key).map (movedAt (.ofKey (.str key))) := by
  induction es with
  | nil => rfl
  | cons e rest ih =>
    obtain ⟨k, value⟩ := e
    unfold Entries.get? Entries.find? at ih ⊢
    rw [movedEntries, List.find?_cons, List.find?_cons]
    cases hk : k.sameKey (.str key) with
    | false => simpa [hk] using ih
    | true =>
      obtain rfl := Scalar.sameKey_str.mp hk
      simp

variable (node : Node) (key : String)

theorem get?_moved :
    node.moved.get? key = (node.get? key).map (movedAt (.ofKey (.str key))) := by
  cases node with
  | map es => exact get?_movedEntries es key
  | scalar s => rfl
  | list items => rfl

theorem member_moved :
    node.moved.member key = (node.member key).map (movedAt (.ofKey (.str key))) := by
  cases node with
  | map es =>
    change Except.ok ((Entries.get? (movedEntries es) key).getD .null) =
      Except.ok (movedAt _ ((Entries.get? es key).getD .null))
    rw [get?_movedEntries]
    cases Entries.get? es key with
    | none => rw [Option.map_none, Option.getD_none, movedAt_null]
    | some value => rfl
  | scalar s => rfl
  | list items => rfl

@[simp] theorem isMap_moved : node.moved.isMap = node.isMap := by
  cases node <;> rfl

@[simp] theorem isBool_moved (b : Bool) : node.moved.isBool b = node.isBool b := by
  cases node <;> rfl

variable {key}

/-- What is no schema is not moved. -/
theorem get?_moved_data (h : Holding.ofKey (.str key) = .data) :
    node.moved.get? key = node.get? key := by
  rw [get?_moved, h, show movedAt .data = id from funext movedAt_data, Option.map_id_fun, id]

theorem member_moved_data (h : Holding.ofKey (.str key) = .data) :
    node.moved.member key = node.member key := by
  rw [member_moved, h, show movedAt .data = id from funext movedAt_data]
  cases node.member key <;> rfl

theorem mentions_moved_data (h : Holding.ofKey (.str key) = .data) :
    node.moved.mentions key = node.mentions key := by
  have hget := get?_moved_data node h
  cases node with
  | map es => exact congrArg (fun value : Option Node => Except.ok value.isSome) hget
  | scalar s => rfl
  | list items => rfl

theorem required_moved_data (h : Holding.ofKey (.str key) = .data) :
    node.moved.required key = node.required key := by
  have hget := get?_moved_data node h
  cases node with
  | map es =>
    change Entries.get? (movedEntries es) key = Entries.get? es key at hget
    simp only [moved, required, hget]
  | scalar s => rfl
  | list items => rfl

end Node

namespace Pointer

theorem reference?_moved (node : Node) :
    reference? node.moved = (reference? node).map movedReference := by
  unfold reference?
  rw [Node.get?_moved]
  cases node.get? "$ref" with
  | none => rfl
  | some value =>
    cases value with
    | scalar s => cases s <;> rfl
    | list items => rfl
    | map es => rfl

end Pointer

/-! The parts of a moved schema. -/

theorem DefaultLiteral.ofSchema_moved (schema : Node) :
    ofSchema schema.moved = ofSchema schema := by
  unfold ofSchema
  rw [Node.mentions_moved_data _ (by decide), Node.required_moved_data _ (by decide),
    Node.member_moved_data _ (by decide)]

theorem Constraints.fieldsOfSchema_moved (schema : Node) :
    fieldsOfSchema schema.moved.entries = fieldsOfSchema schema.entries := by
  have hdata : ∀ k ∈ keywords, Holding.ofKey (.str k.1) = .data := by decide
  exact fieldsOfSchema_congr fun k hk => Node.get?_moved_data schema (hdata k hk)

namespace ApiDocument

variable (schema : Node)

theorem arrayItems?_moved (kind : Node) :
    arrayItems? kind schema.moved = (arrayItems? kind schema).map Node.moved := by
  unfold arrayItems?
  split
  · rw [Node.get?_moved, show Holding.ofKey (.str "items") = .schema by decide,
      show Node.movedAt .schema = Node.moved from funext Node.movedAt_schema, Option.filter_map]
    congr 2
    exact funext fun node => Node.isMap_moved node
  · rfl

theorem dictionaryValues?_moved (kind : Node) :
    dictionaryValues? kind schema.moved = (dictionaryValues? kind schema).map Node.moved := by
  unfold dictionaryValues?
  split
  · rw [Node.get?_moved, show Holding.ofKey (.str "additionalProperties") = .schema by decide,
      show Node.movedAt .schema = Node.moved from funext Node.movedAt_schema, Option.filter_map]
    congr 2
    exact funext fun node => by simp
  · rfl

theorem properties?_moved :
    properties? schema.moved =
      (properties? schema).map fun es => es.map fun (key, value) => (key, value.moved) := by
  unfold properties?
  rw [Node.get?_moved, show Holding.ofKey (.str "properties") = .properties by decide]
  cases schema.get? "properties" with
  | none => rfl
  | some value =>
    cases value with
    | map es => exact congrArg some (Node.movedProperties_eq_map es)
    | scalar s => rfl
    | list items => rfl

theorem branches?_moved :
    branches? schema.moved "allOf" = (branches? schema "allOf").map (List.map Node.moved) := by
  unfold branches?
  rw [Node.get?_moved, show Holding.ofKey (.str "allOf") = .branches by decide]
  cases schema.get? "allOf" with
  | none => rfl
  | some value =>
    cases value with
    | list branches =>
      cases branches with
      | nil => rfl
      | cons branch rest =>
        change some (branch.moved :: Node.movedAll rest) = _
        rw [Node.movedAll_eq_map]
        rfl
    | scalar s => rfl
    | map es => rfl

theorem requiredKeys_moved : requiredKeys schema.moved = requiredKeys schema := by
  unfold requiredKeys
  rw [Node.member_moved_data _ (by decide)]

end ApiDocument

end ClientGen
