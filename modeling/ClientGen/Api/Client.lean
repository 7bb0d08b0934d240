import ClientGen.Api.Response

/-! Operations, the services they are grouped into, and the client of a document. -/

namespace ClientGen

inductive HttpMethod where
  | get
  | put
  | post
  | delete
  | options
  | head
  | patch
deriving DecidableEq, Repr, Inhabited

namespace HttpMethod

def name : HttpMethod → String
  | .get => "get"
  | .put => "put"
  | .post => "post"
  | .delete => "delete"
  | .options => "options"
  | .head => "head"
  | .patch => "patch"

/-- The verb of a request, in capitals. -/
def verb (method : HttpMethod) : String := String.ofList (method.name.toList.map Char.toUpper)

def all : List HttpMethod := [.get, .put, .post, .delete, .options, .head, .patch]

def words : List (String × HttpMethod) := all.map fun method => (method.name, method)

def ofKey? (key : String) : Option HttpMethod :=
  words.lookup (String.ofList (key.toList.map Char.toLower))

end HttpMethod

/-- An operation: one path with one method. -/
structure Operation where
  service : String
  name : String
  summary : Option String := none
  description : Option String := none
  deprecated : Bool := false
  method : HttpMethod
  path : String
  parameters : List Parameter := []
  imports : List String := []
  results : List Response := []
  errors : List ErrorResponse := []
deriving Inhabited

namespace Operation

def located (op : Operation) (location : Location) : List Parameter :=
  op.parameters.filter (·.location == location)

end Operation

/-- A group of operations that becomes one class. -/
structure Service where
  name : String
  operations : List Operation := []
  imports : List String := []
deriving Inhabited

/-- All that is generated from a document. -/
structure Client where
  server : String := ""
  version : String := "1.0"
  models : List Model := []
  services : List Service := []
deriving Inhabited

namespace Client

def model? (client : Client) (name : String) : Option Model :=
  client.models.find? (·.name == name)

def service? (client : Client) (name : String) : Option Service :=
  client.services.find? (·.name == name)

end Client

def sortNames (names : List String) : List String := names.mergeSort fun a b => decide (a ≤ b)

namespace Service

/-- Tells operations of one name apart by numbers. -/
def renameClashes (taken : List String) : List Operation → List Operation
  | [] => []
  | op :: rest =>
    let name := Naming.fresh taken op.name ""
    { op with name } :: renameClashes (name :: taken) rest

def ofOperations (name : String) (operations : List Operation) : Service :=
  { name
    operations := renameClashes [] operations
    imports := sortNames (distinct (operations.flatMap (·.imports))) }

/-- Groups operations by their services, in the order in which these first occur. -/
def group (operations : List Operation) : List Service :=
  (distinct (operations.map (·.service))).map fun name =>
    ofOperations name (operations.filter (·.service == name))

end Service

namespace ApiDocument

/-- A named schema and the name of its model. -/
structure Declaration where
  key : Scalar
  name : String
  schema : Node

def modelName (dialect : Dialect) (key : Scalar) : String :=
  (TypeExpr.ofText (dialect.schemaNamespace ++ key.display)).base

/-- The named schemas of a document. -/
def declarations (doc : ApiDocument) : List Declaration :=
  doc.schemas.map fun (key, schema) => ⟨key, modelName doc.dialect key, schema⟩

def keepFirst (seen : List String) : List Declaration → List Declaration
  | [] => []
  | d :: rest =>
    if d.name ∈ seen then keepFirst seen rest else d :: keepFirst (d.name :: seen) rest

/-- The declarations of a document up to the first key without a text. -/
def readable (doc : ApiDocument) : List Declaration :=
  doc.declarations.takeWhile fun d => d.key.hasText

/-- The models of the named schemas; of schemas with one model name the first counts. -/
def models (doc : ApiDocument) : Except Fault (List Model) := do
  let models ← (keepFirst [] doc.readable).mapM fun d => doc.model d.schema true d.name
  if doc.readable.length < doc.declarations.length then throw (.malformed .tooLong)
  return models

/-- The declarations whose names are taken, up to the first schema without a model. -/
def duplicates (doc : ApiDocument) (seen : List String) : List Declaration → List Declaration
  | [] => []
  | d :: rest =>
    if d.name ∈ seen then d :: duplicates doc seen rest
    else
      match doc.model d.schema true d.name with
      | .ok _ => duplicates doc (d.name :: seen) rest
      | .error _ => []

/-- The warning about a declaration whose name is taken. -/
def Declaration.warning (d : Declaration) : String :=
  s!"Duplicate model name '{d.name}' (from '{d.key.display}'); keeping the first"

/-- Warnings about named schemas that are left out. -/
def warnings (doc : ApiDocument) : List String :=
  if (keepFirst [] doc.readable).length = doc.schemas.length then []
  else (doc.duplicates [] doc.readable).map Declaration.warning

/-- The first path segment with more than braces, without braces around it. -/
def firstSegment? (path : String) : Option (List Char) :=
  ((Text.splitOn '/' path.toList).map
    (Text.trimWhile fun c => c == '\x7b' || c == '\x7d')).find? (· ≠ [])

/-- The service of an operation without a tag. -/
def defaultService : String := "Default"

/-- The service of an operation: named for its first tag, else for its first path segment. -/
def serviceName (operation : Node) (path : String) : Except Fault String := do
  let ofPath := Naming.serviceClassName
    (((firstSegment? path).map String.ofList).getD defaultService)
  match ← operation.member "tags" with
  | .list (tag :: _) =>
    let text ← tag.shown
    if Text.isBlank text.toList then return ofPath
    return Naming.serviceClassName text
  | _ => return ofPath

/-- The name of an operation, from its identifier, else from its method and path. -/
def operationName (operation : Node) (method : HttpMethod) (path : String) :
    Except Fault String := do
  match (← operation.member "operationId").orElse (.str (method.name ++ "-" ++ path)) with
  | .str s => return Naming.operationName s
  | _ => throw (.malformed .wrongKind)

/-- An empty list in place of an absent value. -/
def orEmptyList (node : Node) : Node := node.orElse (.list [])

/-- Adds the body to parameters in the order of a signature. -/
def withBody (parameters : List Parameter) (body : Option Parameter) : List Parameter :=
  match body with
  | none => parameters
  | some body =>
    (parameters ++ [body]).mergeSort fun a b => decide (a.location.rank ≤ b.location.rank)

def operation (doc : ApiDocument) (path : String) (method : HttpMethod) (node : Node)
    (pathParameters : Node) : Except Fault Operation := do
  let own := orEmptyList (← node.member "parameters")
  let parameters ← doc.parameters path pathParameters own
  let parameters := withBody parameters (← doc.bodyParameter? node)
  let (results, errors) ← doc.results (orEmptyMap (← node.member "responses"))
  let service ← serviceName node path
  let name ← operationName node method path
  let summary ← (← node.member "summary").comment
  let description ← (← node.member "description").comment
  return {
    service, name, summary, description
    deprecated := (← node.member "deprecated").isBool true
    method, path, parameters
    imports := distinct
      (parameters.flatMap (·.model.imports) ++ results.flatMap (·.model.imports))
    results, errors }

/-- The operations of a path item; keys that are no methods are left out. -/
def operationsOfItem (doc : ApiDocument) (path : Scalar) (pathParameters : Node) :
    Entries → Except Fault (List Operation)
  | [] => return []
  | (.str key, node) :: rest => do
    match HttpMethod.ofKey? key with
    | none => operationsOfItem doc path pathParameters rest
    | some method =>
      let op ← doc.operation path.display method node pathParameters
      match path with
      | .str _ =>
        let others ← operationsOfItem doc path pathParameters rest
        return op :: others
      | _ => throw (.malformed .noFeature)
  | _ :: _ => throw (.malformed .noFeature)

def operationsOfPaths (doc : ApiDocument) : Entries → Except Fault (List Operation)
  | [] => return []
  | (path, raw) :: rest => do
    let item ← doc.dereference raw
    let pathParameters := orEmptyList (← item.member "parameters")
    let ops ← doc.operationsOfItem path pathParameters (← item.members)
    let others ← operationsOfPaths doc rest
    return ops ++ others

def operations (doc : ApiDocument) : Except Fault (List Operation) := do
  doc.operationsOfPaths (← (orEmptyMap (← doc.root.member "paths")).members)

def services (doc : ApiDocument) : Except Fault (List Service) := do
  return Service.group (← doc.operations)

def dropFinalSlashes (s : String) : String :=
  String.ofList (Text.dropRightWhile (· == '/') s.toList)

/-- Writes the defaults of variables into an address. -/
def fillVariables (url : List Char) : Entries → Except Fault (List Char)
  | [] => return url
  | (.str name, declared) :: rest => do
    let value := match ← (orEmptyMap declared).member "default" with
      | .null => if (declared.get? "default").isSome then Node.null else .str ""
      | node => node
    let pattern := '\x7b' :: (name.toList ++ ['\x7d'])
    fillVariables (Text.replaceAll pattern (← value.shown).toList url) rest
  | _ :: _ => throw (.malformed .wrongKind)

/-- The base address of a Swagger 2.0 document: first scheme, host and base path. -/
def swaggerServer (root : Node) : Except Fault String := do
  let schemes := (← root.member "schemes").orElse (.list [.str "http"])
  let host := (← root.member "host").orElse (.str "localhost")
  let basePath := (← root.member "basePath").orElse (.str "")
  let scheme ← schemes.first
  return dropFinalSlashes ((← scheme.shown) ++ "://" ++ (← host.shown) ++ (← basePath.shown))

/-- The base address of an OpenAPI 3 document: the first server, its variables set to their
defaults. -/
def openApiServer (root : Node) : Except Fault String := do
  let servers ← root.member "servers"
  if !servers.isPresent then return ""
  let server ← servers.first
  if !server.isMap then return ""
  let url ← ((← server.member "url").orElse (.str "")).shown
  let settings ← (orEmptyMap (← server.member "variables")).members
  return dropFinalSlashes (String.ofList (← fillVariables url.toList settings))

/-- The base address of the API, without a slash at the end. -/
def server (doc : ApiDocument) : Except Fault String :=
  match doc.dialect with
  | .swagger2 => swaggerServer doc.root
  | .openApi3 => openApiServer doc.root

/-- The version of the API, without a leading `v`. -/
def version (doc : ApiDocument) : Except Fault String := do
  let info := orEmptyMap (← doc.root.member "info")
  let text ← ((← info.member "version").orElse (.str "1.0")).shown
  match text.toList with
  | 'v' :: rest => return String.ofList rest
  | 'V' :: rest => return String.ofList rest
  | _ => return text

def client (doc : ApiDocument) : Except Fault Client := do
  let models ← doc.models
  let services ← doc.services
  let server ← doc.server
  let version ← doc.version
  return { server, version, models, services }

end ApiDocument

end ClientGen
