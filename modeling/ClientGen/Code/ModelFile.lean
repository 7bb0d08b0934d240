import ClientGen.Code.Expression
import ClientGen.Code.Lines

/-! Files that declare the models of a client. -/

namespace ClientGen

namespace Model

def fileImports (m : Model) : List String :=
  sortNames (m.imports.filter fun name => name != m.name && name != TypeExpr.dictionary)

/-- Whether the file of a model exports a value, and not types alone. -/
def exportsValue (m : Model) (union : Bool) : Bool :=
  !union && (m.shape == .enum || !m.enums.isEmpty)

def declaresEnum (m : Model) (union : Bool) : Bool := m.shape == .enum && !union

end Model

namespace Code

def importType (name file : String) : String :=
  "import type " ++ braced (" " ++ name ++ " ") ++ " from '" ++ file ++ "';"

/-- The import of the dictionary type, from beside the folder of the core. -/
def importDictionary : String := importType TypeExpr.dictionary "../core/Dictionary"

/-- The members of an enumeration, each with a sign between name and value. -/
def memberLines (sign : String) (members : List EnumEntry) : List String :=
  members.map fun e => e.name ++ sign ++ e.literal ++ ","

namespace TypeScript

def describedMembers (members : List EnumEntry) : List String :=
  members.flatMap fun e =>
    (match e.description with
      | none | some "" => []
      | some text => comment [text]) ++ memberLines " = " [e]

/-- The properties of an interface with their descriptions. -/
def propertyLines (m : Model) (union : Bool) : List String :=
  m.properties.flatMap fun p => description p.description ++ [p.signature (some m.name) union]

def declaration (m : Model) (union : Bool) : List String :=
  if m.shape = .interface then
    closed ("export type " ++ m.name ++ " = ") (propertyLines m union) ";"
  else if m.declaresEnum union then block ("export enum " ++ m.name) (describedMembers m.members)
  else ["export type " ++ m.name ++ " = " ++ m.definition union ++ ";"]

/-- The namespace of the enumerations among the properties of a model. -/
def namespaceLines (m : Model) (union : Bool) : List String :=
  if m.enums.isEmpty ∨ union then []
  else
    "" :: block ("export namespace " ++ m.name) (m.enums.flatMap fun e =>
      "" :: description e.description ++
        block ("export enum " ++ e.enumTypeName) (memberLines " = " e.members))

def modelFile (m : Model) (union : Bool) : List String :=
  (m.fileImports.map fun name => importType name ("./" ++ name)) ++
  (if TypeExpr.dictionary ∈ m.imports then [importDictionary] else []) ++
  [""] ++ description m.description ++ declaration m union ++ namespaceLines m union

end TypeScript

namespace JavaScript

/-- The properties of an interface, each with its type and description on one line. -/
def propertyLines (m : Model) (union : Bool) : List String :=
  m.properties.map fun p =>
    "@property " ++ braced (p.typeExpression (some m.name) union) ++ " " ++
      (if p.isRequired then p.name else "[" ++ p.name ++ "]") ++ remark p.description

def declaration (m : Model) (union : Bool) : List String :=
  if m.declaresEnum union then
    closed ("export const " ++ m.name ++ " = Object.freeze(") (memberLines ": " m.members) ");"
  else if m.shape = .interface then
    comment (("@typedef " ++ braced "Object" ++ " " ++ m.name) :: propertyLines m union)
  else comment ["@typedef " ++ braced (m.definition union) ++ " " ++ m.name]

/-- The object of the enumerations among the properties of a model. -/
def enumsObject (m : Model) : List String :=
  closed ("export const " ++ m.name ++ " = ") (m.enums.flatMap fun e =>
    closed (e.enumTypeName ++ ": Object.freeze(") (memberLines ": " e.members) "),") ";"

def modelFile (m : Model) (union : Bool) : List String :=
  description m.description ++ declaration m union ++
  (if !m.enums.isEmpty && !union then "" :: enumsObject m
  else if m.declaresEnum union then []
  else ["", "export " ++ braced "" ++ ";"])

end JavaScript

def modelFile (language : Language) (m : Model) (union : Bool) : List String :=
  match language with
  | .typescript => TypeScript.modelFile m union
  | .javascript => JavaScript.modelFile m union

end Code

end ClientGen
