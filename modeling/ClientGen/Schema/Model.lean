import ClientGen.Checked
import ClientGen.Schema.EnumEntry
import ClientGen.Schema.TypeExpr

/-! Models: the shapes of the named and anonymous types of a client. -/

namespace ClientGen

inductive Shape where
  | interface
  | reference
  | enum
  | array
  | dictionary
  | generic
  | oneOf
  | anyOf
  | allOf
deriving DecidableEq, Repr, Inhabited

namespace Shape

def name : Shape → String
  | .interface => "interface"
  | .reference => "reference"
  | .enum => "enum"
  | .array => "array"
  | .dictionary => "dictionary"
  | .generic => "generic"
  | .oneOf => "one-of"
  | .anyOf => "any-of"
  | .allOf => "all-of"

def all : List Shape :=
  [.interface, .reference, .enum, .array, .dictionary, .generic, .oneOf, .anyOf, .allOf]

/-- Shapes that may have properties. -/
def isComposite : Shape → Bool
  | .interface | .oneOf | .anyOf | .allOf => true
  | _ => false

end Shape

structure Constraints where
  format : Option String := none
  maximum : Option Double := none
  exclusiveMaximum : Option Bool := none
  minimum : Option Double := none
  exclusiveMinimum : Option Bool := none
  multipleOf : Option Double := none
  maxLength : Option Int := none
  minLength : Option Int := none
  pattern : Option String := none
  maxItems : Option Int := none
  minItems : Option Int := none
  uniqueItems : Option Bool := none
  maxProperties : Option Int := none
  minProperties : Option Int := none
deriving DecidableEq, Repr, Inhabited

namespace Constraints

inductive Accepts where
  | text
  | number
  | integer
  | truth
deriving DecidableEq, Repr

/-- Whether a value is of the kind that a constraint holds; truth values are no numbers here. -/
def Accepts.admits : Accepts → Node → Bool
  | .text, .scalar (.str _) => true
  | .number, .scalar (.int _) => true
  | .number, .scalar (.float _) => true
  | .integer, .scalar (.int _) => true
  | .truth, .scalar (.bool _) => true
  | _, _ => false

/-- Keywords of a schema, the field of a model that each one sets, and what it holds. -/
def keywords : List (String × String × Accepts) :=
  [("format", "format", .text), ("maximum", "maximum", .number),
    ("exclusiveMaximum", "exclusive_maximum", .truth), ("minimum", "minimum", .number),
    ("exclusiveMinimum", "exclusive_minimum", .truth), ("multipleOf", "multiple_of", .number),
    ("maxLength", "max_length", .integer), ("minLength", "min_length", .integer),
    ("pattern", "pattern", .text), ("maxItems", "max_items", .integer),
    ("minItems", "min_items", .integer), ("uniqueItems", "unique_items", .truth),
    ("maxProperties", "max_properties", .integer), ("minProperties", "min_properties", .integer)]

/-- The constraints of a schema as fields of a model; a value of another kind is no constraint. -/
def fieldsOfSchema (schema : Entries) : Entries :=
  keywords.filterMap fun (keyword, field, accepts) =>
    match schema.get? keyword with
    | some value => if accepts.admits value then some (.str field, value) else none
    | none => none

def ofFields (es : Entries) : Checked Constraints := do
  let text (name : String) := FieldReader.field es name (.optional .text) none
  let number (name : String) := FieldReader.field es name (.optional .number) none
  let truth (name : String) := FieldReader.field es name (.optional .truth) none
  let integer (name : String) := FieldReader.field es name (.optional .integer) none
  pure {
    format := ← text "format"
    maximum := ← number "maximum"
    exclusiveMaximum := ← truth "exclusive_maximum"
    minimum := ← number "minimum"
    exclusiveMinimum := ← truth "exclusive_minimum"
    multipleOf := ← number "multiple_of"
    maxLength := ← integer "max_length"
    minLength := ← integer "min_length"
    pattern := ← text "pattern"
    maxItems := ← integer "max_items"
    minItems := ← integer "min_items"
    uniqueItems := ← truth "unique_items"
    maxProperties := ← integer "max_properties"
    minProperties := ← integer "min_properties" }

end Constraints

/-- A type of a client. Models name each other in `type`, `parents` and imports; only anonymous
parts are held inside: the item of a collection in `link`, and the members in `properties`. -/
structure Model where
  name : String := ""
  shape : Shape := .interface
  type : TypeExpr := {}
  link : Option Model := none
  description : Option String := none
  isDefinition : Bool := false
  isReadOnly : Bool := false
  isRequired : Bool := false
  isNullable : Bool := false
  constraints : Constraints := {}
  defaultValue : Option Node := none
  parents : List String := []
  members : List EnumEntry := []
  enums : List Model := []
  properties : List Model := []
deriving Inhabited

namespace Model

def imports (m : Model) : List String := m.type.imports

end Model

end ClientGen
