import ClientGen.Schema.Builder

/-! Parameters of operations. -/

namespace ClientGen

inductive Location where
  | path
  | query
  | header
  | cookie
  | formData
  | body
deriving DecidableEq, Repr, Inhabited

namespace Location

def name : Location → String
  | .path => "path"
  | .query => "query"
  | .header => "header"
  | .cookie => "cookie"
  | .formData => "formData"
  | .body => "body"

def all : List Location := [.path, .query, .header, .cookie, .formData, .body]

def words : List (String × Location) := all.map fun location => (location.name, location)

/-- The position of a location in a signature. -/
def rank (location : Location) : Nat := all.idxOf location

/-- The location that a value names. -/
def ofNode? (node : Node) : Option Location := node.text?.bind fun s => words.lookup s

/-- The location of a parameter object, which must name one. -/
def ofParameter (parameter : Node) : Except Fault Location := do
  match ofNode? (← parameter.required "in") with
  | some location => return location
  | none => throw (.malformed .notListed)

end Location

/-- A parameter: the model of its values, named for the argument; `wireName` is its name on the
wire. -/
structure Parameter where
  model : Model
  location : Location
  wireName : String
  mediaType : Option String := none
deriving Inhabited

namespace Parameter

def name (p : Parameter) : String := p.model.name

end Parameter

namespace ApiDocument

/-- The default of the named schema that a reference points to. -/
def referencedDefault (doc : ApiDocument) (ref : String) : Except Fault (Option String) :=
  if doc.dialect.isSchemaRef ref then
    DefaultLiteral.ofSchema ((doc.namedSchema? ref).getD (.map []))
  else .ok none

/-- The default of a parameter: of its model, else of the parameter object, else of the schema
that a reference points to. -/
def parameterDefault (doc : ApiDocument) (parameter : Node) (m : Model) (ref : Option String) :
    Except Fault (Option Node) := do
  if m.defaultValue.isSome then return m.defaultValue
  match ← DefaultLiteral.ofSchema parameter with
  | some text => return some (.str text)
  | none =>
    match ref with
    | none | some "" => return none
    | some ref => return (← doc.referencedDefault ref).map .str

def wireName (parameter : Node) : Except Fault String := do
  match ← parameter.required "name" with
  | .str s => return s
  | _ => throw (.malformed .wrongKind)

/-- Makes a model a parameter. It is required if the object says so, if it is part of the path or if
it has a default. -/
def parameterOf (doc : ApiDocument) (parameter : Node) (m : Model) (location : Location)
    (ref : Option String) : Except Fault Parameter := do
  let wireName ← wireName parameter
  let description ← (← parameter.member "description").comment
  let defaultValue ← doc.parameterDefault parameter m ref
  let isRequired :=
    (← parameter.member "required").isBool true || location == .path || defaultValue.isSome
  return {
    model := { m with
      name := Naming.parameterName wireName
      isDefinition := false
      description := description <|> m.description
      defaultValue
      isRequired }
    location
    wireName }

def parameterOfSchema (doc : ApiDocument) (parameter schema : Node) (location : Location) :
    Except Fault Parameter := do
  let m ← doc.anonymousModel schema
  doc.parameterOf parameter m location (Pointer.reference? schema)

def preferredMediaTypes : List String :=
  ["application/json-patch+json", "application/json", "text/json", "text/plain",
    "multipart/form-data", "multipart/mixed", "multipart/related", "multipart/batch"]

def formMediaTypes : List String := ["multipart/form-data", "application/x-www-form-urlencoded"]

/-- The first preferred media type that has a schema. -/
def preferredContent (content : Node) : List String → Except Fault (Option (Scalar × Node))
  | [] => .ok none
  | mediaType :: rest => do
    let media := orEmptyMap (← content.member mediaType)
    let schema ← media.member "schema"
    if schema.isMap then return some (.str mediaType, schema)
    preferredContent content rest

/-- The media type and schema of a body: a preferred media type, else the first with a schema. -/
def content? (content : Node) : Except Fault (Option (Scalar × Node)) := do
  match ← preferredContent content preferredMediaTypes with
  | some found => return some found
  | none =>
    return (← content.members).findSome? fun (mediaType, media) =>
      ((media.get? "schema").filter Node.isMap).map fun schema => (mediaType, schema)

/-- The parameter of a parameter object in a Swagger 2.0 document: it has a schema if it is the
body, and is itself a schema otherwise. An object with items is a dictionary of the items. -/
def swaggerParameter (doc : ApiDocument) (parameter : Node) : Except Fault Parameter := do
  let location ← Location.ofParameter parameter
  let schema ← parameter.member "schema"
  if schema.isMap then return ← doc.parameterOfSchema parameter schema location
  let items ← parameter.member "items"
  if Dialect.isText (← parameter.member "type") "object" && items.isMap then
    let value ← doc.anonymousModel items
    let description ← (← parameter.member "description").comment
    let defaultValue ← DefaultLiteral.ofSchema parameter
    let m : Model :=
      { shape := .dictionary
        type := Model.inDictionary value.type
        description
        defaultValue := defaultValue.map .str }
    return ← doc.parameterOf parameter m location none
  doc.parameterOfSchema parameter parameter location

/-- The parameter of a parameter object in an OpenAPI 3 document: of its schema or of its
content. -/
def openApiParameter (doc : ApiDocument) (parameter : Node) : Except Fault Parameter := do
  let location ← Location.ofParameter parameter
  if (Pointer.reference? parameter).isSome then
    return ← doc.parameterOfSchema parameter parameter location
  let schema ← parameter.member "schema"
  if schema.isMap then return ← doc.parameterOfSchema parameter schema location
  match ← content? (orEmptyMap (← parameter.member "content")) with
  | some (_, schema) => doc.parameterOfSchema parameter schema location
  | none => doc.parameterOf parameter { shape := .generic } location none

def parameter (doc : ApiDocument) (node : Node) : Except Fault Parameter :=
  match doc.dialect with
  | .swagger2 => doc.swaggerParameter node
  | .openApi3 => doc.openApiParameter node

/-- The name of the argument for a body of its own. -/
def requestBody : String := "requestBody"

/-- The parameter for the body of an operation, in a dialect where the body is none of the
parameters. -/
def bodyParameter? (doc : ApiDocument) (operation : Node) : Except Fault (Option Parameter) := do
  match doc.dialect with
  | .swagger2 => return none
  | .openApi3 =>
    let raw ← operation.member requestBody
    if !raw.isMap then return none
    let body ← doc.dereference raw
    let content ← content? (orEmptyMap (← body.member "content"))
    let mediaType := content.bind fun (mediaType, _) =>
      if mediaType = .null then none else some mediaType.display
    let location :=
      if (mediaType.map formMediaTypes.contains).getD false then Location.formData else .body
    let m ←
      match content with
      | some (_, schema) => doc.anonymousModel schema
      | none => pure { shape := .generic }
    let object : Node := .map
      [(.str "name", .str requestBody),
        (.str "required", .bool ((← body.member "required").isBool true)),
        (.str "description", ← body.member "description")]
    let p ← doc.parameterOf object m location
      (content.bind fun (_, schema) => Pointer.reference? schema)
    return some { p with mediaType }

/-- Whether a parameter object is used as it is rather than replaced by what it refers to. -/
def isSchemaParameter (doc : ApiDocument) (node : Node) : Bool :=
  ((Pointer.reference? node).map doc.dialect.isSchemaRef).getD false

/-- The key of a parameter object: its name and location. -/
abbrev ParameterKey := Scalar × Scalar

/-- Whether two keys are equal. -/
def sameKey (a b : ParameterKey) : Bool := a.1.sameKey b.1 && a.2.sameKey b.2

/-- Adds a parameter object; one with the same key is replaced in its place. -/
def mergeInto (key : ParameterKey) (node : Node) :
    List (ParameterKey × Node) → List (ParameterKey × Node)
  | [] => [(key, node)]
  | (k, n) :: rest =>
    if sameKey k key then (k, node) :: rest else (k, n) :: mergeInto key node rest

/-- A scalar, as a key must be. -/
def keyPart (node : Node) : Except Fault Scalar :=
  match node with
  | .scalar s => .ok s
  | _ => .error (.malformed .wrongKind)

/-- The key of a parameter object, if it has a name and a location. -/
def parameterKey? (node : Node) : Except Fault (Option ParameterKey) := do
  if !(← node.mentions "name") then return none
  if !(← node.mentions "in") then return none
  let name ← node.required "name"
  let location ← node.required "in"
  return some (← keyPart name, ← keyPart location)

/-- Merges parameter objects, following references; objects without name or location are dropped. -/
def mergeParameters (doc : ApiDocument) (merged : List (ParameterKey × Node)) :
    List Node → Except Fault (List (ParameterKey × Node))
  | [] => return merged
  | raw :: rest => do
    let node ← if doc.isSchemaParameter raw then pure raw else doc.dereference raw
    match ← parameterKey? node with
    | none => mergeParameters doc merged rest
    | some key => mergeParameters doc (mergeInto key node merged) rest

/-- The place of a path parameter in a path template; others come after it. -/
def templatePosition (path : String) (p : Parameter) : Nat :=
  let position :=
    if p.location = .path then
      Text.position? ('\x7b' :: (p.wireName.toList ++ ['\x7d'])) path.toList
    else none
  position.getD path.length

/-- The order of parameters: by location, and in the path by place in the template. -/
def precedes (path : String) (a b : Parameter) : Bool :=
  a.location.rank < b.location.rank ||
    (a.location.rank == b.location.rank && templatePosition path a ≤ templatePosition path b)

/-- The parameters of an operation: those of the path, replaced by those of the operation with the
same name and location, in the order of a signature. -/
def parameters (doc : ApiDocument) (path : String) (pathLevel operationLevel : Node) :
    Except Fault (List Parameter) := do
  let raw := (← pathLevel.walk) ++ (← operationLevel.walk)
  let merged ← doc.mergeParameters [] raw
  let known := merged.filter fun (key, _) => (Location.ofNode? (.scalar key.2)).isSome
  let resolved ← known.mapM fun (_, node) => doc.parameter node
  return resolved.mergeSort (precedes path)

end ApiDocument

end ClientGen
