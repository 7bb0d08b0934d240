import ClientGen.Schema.Model

/-! Reading models and their parts from records of fields. -/

namespace ClientGen

def FieldReader.texts : FieldReader (List String) := .list .text

def TypeExpr.ofFields (es : Entries) : Checked TypeExpr := do
  pure {
    text := ← FieldReader.field es "type" .text "any"
    base := ← FieldReader.field es "base" .text "any"
    template := ← FieldReader.field es "template" (.optional .text) none
    imports := distinct (← FieldReader.field es "imports" .texts []) }

/-- Reads a member of an enumeration. -/
def EnumEntry.ofFields (es : Entries) : Checked EnumEntry := do
  pure {
    name := ← FieldReader.mandatory es "name" .text ""
    value := ← FieldReader.mandatory es "value" .text ""
    type := ← FieldReader.field es "type" .text "string"
    description := ← FieldReader.field es "description" (.optional .text) none }

def Shape.words : List (String × Shape) := Shape.all.map fun shape => (shape.name, shape)

namespace Model

def isShapely (m : Model) : Bool := m.properties.isEmpty || m.shape.isComposite

/-- The message about a model that has properties although its shape has none. -/
def shapeMessage (m : Model) : String :=
  s!"Value error, Model '{m.name}' with export '{m.shape.name}' cannot have properties"

mutual

/-- Reads a model from its fields; whether its shape admits them is not looked at. -/
def ofFields (es : Entries) : Checked Model := do
  let name ← FieldReader.field es "name" .text ""
  let shape ← FieldReader.field es "export" (.oneOf Shape.words .interface) .interface
  let text ← FieldReader.field es "type" .text "any"
  let base ← FieldReader.field es "base" .text "any"
  let template ← FieldReader.field es "template" (.optional .text) none
  let link ←
    match _h : es.get? "link" with
    | none | some .null => pure none
    | some node => (do pure (some (← ofNode node))).within "link"
  let description ← FieldReader.field es "description" (.optional .text) none
  let isDefinition ← FieldReader.field es "is_definition" .truth false
  let isReadOnly ← FieldReader.field es "is_read_only" .truth false
  let isRequired ← FieldReader.field es "is_required" .truth false
  let isNullable ← FieldReader.field es "is_nullable" .truth false
  let constraints ← Constraints.ofFields es
  let defaultValue ← FieldReader.field es "default" (.optional pure) none
  let imports ← FieldReader.field es "imports" .texts []
  let parents ← FieldReader.field es "extends" .texts []
  let members ←
    FieldReader.field es "enum" (.list (.record EnumEntry.ofFields default)) []
  let enums ←
    match _h : es.get? "enums" with
    | none => pure []
    | some (.list nodes) => (ofNodes 0 nodes).within "enums"
    | some _ => (Checked.issue .notList []).within "enums"
  let properties ←
    match _h : es.get? "properties" with
    | none => pure []
    | some (.list nodes) => (ofNodes 0 nodes).within "properties"
    | some _ => (Checked.issue .notList []).within "properties"
  pure {
    name, shape, link, description, isDefinition, isReadOnly, isRequired, isNullable, constraints
    defaultValue, members, enums, properties
    type := { text, base, template, imports := distinct imports }
    parents := distinct parents }
termination_by (sizeOf (Node.map es), 0)
decreasing_by
  all_goals
    have hlt := Node.sizeOf_lt_of_entry _h
    try simp only [Node.list.sizeOf_spec] at hlt
    exact Prod.Lex.left _ _ (by omega)

def ofNode (node : Node) : Checked Model :=
  match node with
  | .map es => (ofFields es).ensure isShapely shapeMessage
  | _ => Checked.issue .notRecord default
termination_by (sizeOf node, 1)

def ofNodes (position : Nat) : List Node → Checked (List Model)
  | [] => pure []
  | node :: rest => do
    let head ← (ofNode node).within (toString position)
    let tail ← ofNodes (position + 1) rest
    pure (head :: tail)
termination_by nodes => (sizeOf nodes, 0)

end

end Model

end ClientGen
