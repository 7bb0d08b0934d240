import ClientGen.Api.Client
import ClientGen.Text.Identifier

/-! Models as type expressions of generated code. -/

namespace ClientGen

def EnumEntry.literal (entry : EnumEntry) : String :=
  if entry.type = "string" then singleQuoted entry.value else entry.value

/-- Joins alternatives or parts; several are put in parentheses. -/
def joinTypes (separator : String) : List String → String
  | [] => "any"
  | [type] => type
  | types => "(" ++ separator.intercalate types ++ ")"

namespace Model

def memberUnion (m : Model) : String :=
  if m.members.isEmpty then m.type.text else " | ".intercalate (m.members.map (·.literal))

/-- The name of the enumeration for a property, inside the namespace of its parent. -/
def enumTypeName (m : Model) : String :=
  if Text.isIdentifier m.name then m.name
  else
    let name := Naming.camelCase m.name
    if name = "" then "value" else name

/-- A type that may also be nothing. -/
def orNull (m : Model) (type : String) : String := if m.isNullable then type ++ " | null" else type

/-- The start of a property: its marks and its name. -/
def propertyHead (m : Model) : String :=
  (if m.isReadOnly then "readonly " else "") ++ Naming.propertyKey m.name ++
    (if m.isRequired then "" else "?") ++ ": "

def objectType (members : List String) : String :=
  if members.isEmpty then "any" else "\x7b " ++ " ".intercalate members ++ " \x7d"

mutual

/-- The type of a model. An enumeration with a name is addressed in the namespace of `parent`, if
there is one and `union` does not ask for literals. -/
def typeExpression (parent : Option String) (union : Bool) : Model → String
  | m@⟨_, shape, type, link, _, _, _, _, _, _, _, parents, _, _, properties⟩ =>
    orNull m <|
      match shape with
      | .enum =>
        match parent with
        | none | some "" => m.memberUnion
        | some parent =>
          if m.name ≠ "" ∧ !union then parent ++ "." ++ m.enumTypeName else m.memberUnion
      | .array => "Array<" ++ linkExpression union type link ++ ">"
      | .dictionary => "Dictionary<" ++ linkExpression union type link ++ ">"
      | .oneOf | .anyOf => joinTypes " | " (parents ++ typeExpressions union properties)
      | .allOf =>
        joinTypes " & " (parents ++ match properties with
          | [] => []
          | ps => [objectType (signatures none union ps)])
      | .interface => objectType (signatures none union properties)
      | .reference | .generic => type.text

/-- The type of a collection's items. -/
def linkExpression (union : Bool) (type : TypeExpr) : Option Model → String
  | none => type.text
  | some item => typeExpression none union item

def typeExpressions (union : Bool) : List Model → List String
  | [] => []
  | m :: rest => typeExpression none union m :: typeExpressions union rest

/-- Properties with their types. -/
def signatures (parent : Option String) (union : Bool) : List Model → List String
  | [] => []
  | m :: rest =>
    (m.propertyHead ++ typeExpression parent union m ++ ";") :: signatures parent union rest

end

def signature (m : Model) (parent : Option String) (union : Bool) : String :=
  m.propertyHead ++ typeExpression parent union m ++ ";"

def objectLiteral (properties : List Model) (parent : Option String) (union : Bool) : String :=
  objectType (signatures parent union properties)

/-- What stands behind the name of a type: the own properties of an intersection may address the
enumerations in its namespace. -/
def definition (m : Model) (union : Bool) : String :=
  if m.shape = .allOf ∧ !m.properties.isEmpty then
    orNull m (joinTypes " & " (m.parents ++ [objectLiteral m.properties (some m.name) union]))
  else typeExpression none union m

end Model

namespace Parameter

/-- Parameters without a default that are required come first, then those with a default. -/
def signatureRank (p : Parameter) : Nat :=
  if p.model.defaultValue.isSome then 1 else if p.model.isRequired then 0 else 2

def signatureOrder (parameters : List Parameter) : List Parameter :=
  parameters.mergeSort fun a b => decide (a.signatureRank ≤ b.signatureRank)

/-- A positional parameter with its type and default. -/
def signature (p : Parameter) (union : Bool) : String :=
  let type := p.model.typeExpression none union
  match p.model.defaultValue with
  | some value => p.name ++ ": " ++ type ++ " = " ++ value.display
  | none => p.name ++ (if p.model.isRequired then "" else "?") ++ ": " ++ type

end Parameter

def resultType (results : List Model) (union : Bool) : String :=
  match results with
  | [] => "void"
  | m :: _ => m.typeExpression none union

end ClientGen
