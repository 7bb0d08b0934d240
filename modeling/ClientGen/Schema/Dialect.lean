import ClientGen.Document.Pointer
import ClientGen.Schema.Model

/-! The two dialects of API documents and the schema keywords that each one honours. -/

namespace ClientGen

/-- A dialect of API documents. -/
inductive Dialect where
  | swagger2
  | openApi3
deriving DecidableEq, Repr, Inhabited

namespace Dialect

/-- The digit that names a dialect. -/
def version : Dialect → String
  | .swagger2 => "2"
  | .openApi3 => "3"

def schemaNamespace : Dialect → String
  | .swagger2 => "#/definitions/"
  | .openApi3 => "#/components/schemas/"

/-- Keywords of compositions and the shapes of their models; the first one present counts. -/
def compositions : Dialect → List (String × Shape)
  | .swagger2 => [("allOf", .allOf)]
  | .openApi3 => [("oneOf", .oneOf), ("anyOf", .anyOf), ("allOf", .allOf)]

/-- Whether a node is the text `s`. -/
def isText (node : Node) (s : String) : Bool := node.text? == some s

/-- Whether a schema admits nothing as a value. -/
def isNullable (dialect : Dialect) (schema : Node) : Except Fault Bool :=
  match dialect with
  | .swagger2 => do return (← schema.member "x-nullable").isBool true
  | .openApi3 => do
    let kind ← schema.member "type"
    let nullable ← schema.member "nullable"
    let listsNull :=
      match kind with
      | .list items => items.any fun item => isText item "null"
      | _ => false
    return nullable.isBool true || listsNull

/-- Whether a schema lists its values. -/
def hasEnum (dialect : Dialect) (schema : Node) : Except Fault Bool := do
  let listed :=
    match ← schema.member "enum" with
    | .list _ => true
    | _ => false
  match dialect with
  | .swagger2 => return listed
  | .openApi3 => return listed && !isText (← schema.member "type") "boolean"

/-- Whether the description of a schema may list its values. -/
def hasDescriptionEnum (dialect : Dialect) (schema : Node) : Except Fault Bool :=
  match dialect with
  | .swagger2 => do
    let kind ← schema.member "type"
    return (isText kind "int" || isText kind "integer") && (← schema.member "description").isPresent
  | .openApi3 => .ok false

/-- The key in a reference to a named schema, still escaped. -/
def schemaKey? (dialect : Dialect) (ref : String) : Option (List Char) :=
  let start := dialect.schemaNamespace.toList
  if start.isPrefixOf ref.toList then some (ref.toList.drop start.length) else none

/-- Whether a reference names a whole schema rather than a place inside one. -/
def isSchemaRef (dialect : Dialect) (ref : String) : Bool :=
  match dialect.schemaKey? ref with
  | none => false
  | some key =>
    let name := key.takeWhile (· != '[')
    !name.isEmpty && !name.contains '/'

end Dialect

structure ApiDocument where
  dialect : Dialect
  root : Node
  schemas : Entries
deriving Inhabited

namespace ApiDocument

/-- A key and a value from a sequence of two. -/
def pairOf (node : Node) : Except Fault (Scalar × Node) := do
  match ← node.walk with
  | [.scalar key, value] => .ok (key, value)
  | [_, _] => .error (.malformed .wrongKind)
  | _ => .error (.malformed .notListed)

/-- The entries that a value stands for: those of a map, or the pairs that a sequence lists. -/
def entriesOf (node : Node) : Except Fault Entries :=
  match node with
  | .map es => .ok es
  | .list items => do
    let pairs ← items.mapM pairOf
    return pairs.foldl (fun es (key, value) => es.insert key value) []
  | .scalar (.str _) => .error (.malformed .notListed)
  | _ => .error (.malformed .wrongKind)

/-- An empty map in place of an absent value. -/
def orEmptyMap (node : Node) : Node := node.orElse (.map [])

/-- The place of the named schemas in a document. -/
def schemasNode (dialect : Dialect) (root : Node) : Except Fault Node :=
  match dialect with
  | .swagger2 => do return orEmptyMap (← root.member "definitions")
  | .openApi3 => do
    return orEmptyMap (← (orEmptyMap (← root.member "components")).member "schemas")

def ofRoot (dialect : Dialect) (root : Node) : Except Fault ApiDocument := do
  let schemas ← entriesOf (← schemasNode dialect root)
  return { dialect, root, schemas }

/-- The value that a local reference points to. -/
def resolve (doc : ApiDocument) (ref : String) : Except Fault Node := Pointer.resolve doc.root ref

/-- Follows a chain of references. -/
def dereference (doc : ApiDocument) (node : Node) : Except Fault Node :=
  Pointer.dereference doc.root node

/-- The named schema of a reference, if there is one. -/
def namedSchema? (doc : ApiDocument) (ref : String) : Option Node :=
  let key := ref.toList.drop doc.dialect.schemaNamespace.length
  doc.schemas.get? (String.ofList (Pointer.unescapeChars key))

/-- The type of a reference to a named schema, which must exist. -/
def typeOfReference (doc : ApiDocument) (ref : String) : Except Fault TypeExpr :=
  match doc.namedSchema? ref with
  | some _ => .ok (TypeExpr.ofText ref)
  | none => .error (.unresolved ref .noSchema)

end ApiDocument

end ClientGen
