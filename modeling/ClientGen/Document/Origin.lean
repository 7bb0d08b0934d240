import ClientGen.Document.Json.Reader
import ClientGen.Document.Yaml.Reader
import ClientGen.Schema.Dialect
import ClientGen.Wording
import ClientGen.Workspace.Surroundings

/-! Where documents come from, and what they must be. -/

namespace ClientGen

inductive Notation where
  | json
  | yaml
deriving DecidableEq, Repr

inductive LoadError where
  | noInput
  | notFound (path : String)
  | unreadable (path : String) (flaw : Text.Utf8.Flaw)
  | emptyFile (path : String)
  | status (code : Int) (url : String)
  | unreachable (url reason : String)
  | json (origin message : String)
  | yaml (origin : String) (flaw : Yaml.Flaw)
  | neither (origin message : String) (flaw : Yaml.Flaw)
  | notMap (origin kind : String)
  /-- A value inside the text is not of the form its type demands. -/
  | malformed (form : Malformed)
  | oldSwagger (version : String)
  | otherOpenApi (version : String)
  | noVersion
deriving DecidableEq, Repr

namespace LoadError

/-- What follows an unsupported version. -/
def supported : String := "Only Swagger 2.0 and OpenAPI 3.0.x are supported."

def message (w : Wording) : LoadError → String
  | .noInput => "No input received from stdin"
  | .notFound path => s!"Spec file not found: {path}"
  | .unreadable path flaw => s!"Failed to read spec file {path}: " ++ w.unreadable flaw
  | .emptyFile path => s!"Spec file is empty: {path}"
  | .status code url => s!"HTTP {code} fetching spec from {url}"
  | .unreachable url reason => s!"Failed to fetch spec from {url}: {reason}"
  | .json origin message => s!"Invalid JSON in {origin}: {message}"
  | .yaml origin flaw => s!"Invalid YAML in {origin}: " ++ w.yaml flaw
  | .neither origin message flaw =>
    s!"{origin} is neither JSON nor YAML\n  JSON error: {message}\n  YAML error: " ++ w.yaml flaw
  | .notMap origin kind => s!"{origin} must hold a JSON/YAML object, got {kind}"
  | .malformed _ => "a value has the wrong form"
  | .oldSwagger version => s!"Unsupported Swagger version: {version}. {supported}"
  | .otherOpenApi version => s!"Unsupported OpenAPI version: {version}. {supported}"
  | .noVersion => "Missing 'swagger' or 'openapi' field. Is this an OpenAPI document?"

end LoadError

namespace Document

def requireMap (origin : String) (node : Node) : Except LoadError Node :=
  match node with
  | .map _ => .ok node
  | .null => .error (.notMap origin "an empty document")
  | _ => .error (.notMap origin node.kindName)

/-- Reads a YAML text, with an error for a text that is none. -/
def readYaml (text : List Char) (failed : Yaml.Flaw → LoadError) : Except LoadError Node :=
  match Yaml.read text with
  | .ok node => .ok node
  | .error (.value form) => .error (.malformed form)
  | .error flaw => .error (failed flaw)

/-- Reads a JSON text, with an outcome for a text that is none. -/
def readJson (text : List Char) (failed : String → Except LoadError Node) :
    Except LoadError Node :=
  match Json.read text with
  | .ok node => .ok node
  | .error e => if e.ofNotation then failed (e.message text) else .error (.malformed .tooLong)

/-- Reads a value in a notation; without one JSON is tried before YAML. -/
def decode (text : List Char) (syntaxOf : Option Notation) (origin : String) :
    Except LoadError Node :=
  match syntaxOf with
  | some .yaml => readYaml text (.yaml origin)
  | some .json => readJson text fun message => .error (.json origin message)
  | none => readJson text fun message => readYaml text (.neither origin message)

/-- Reads a document, which is a map. -/
def read (text : List Char) (syntaxOf : Option Notation) (origin : String) :
    Except LoadError Node := do
  requireMap origin (← decode text syntaxOf origin)

/-- The dialect of a document, from its version field. -/
def dialect (node : Node) : Except (Fault ⊕ LoadError) Dialect := do
  let lift {α : Type} (m : Except Fault α) : Except (Fault ⊕ LoadError) α := m.mapError .inl
  let startsWith (c : Char) (s : String) : Bool := s.toList.head? == some c
  if ← lift (node.mentions "swagger") then
    let version ← lift (← lift (node.required "swagger")).shown
    if startsWith '2' version then return .swagger2
    throw (.inr (.oldSwagger version))
  if !(← lift (node.mentions "openapi")) then throw (.inr .noVersion)
  let version ← lift (← lift (node.required "openapi")).shown
  if startsWith '3' version then return .openApi3
  throw (.inr (.otherOpenApi version))

def notationOfType? (contentType : String) : Option Notation :=
  let lower := contentType.toList.map Char.toLower
  if Text.occursIn "json".toList lower then some .json
  else if Text.occursIn "yaml".toList lower || Text.occursIn "yml".toList lower then some .yaml
  else none

/-- The notation that the ending of a file name tells. -/
def notationOfSuffix? (suffix : String) : Option Notation :=
  match String.ofList (suffix.toList.map Char.toLower) with
  | ".json" => some .json
  | ".yaml" | ".yml" => some .yaml
  | _ => none

def fetchText (s : Surroundings) (url : String) : Except LoadError (List Char × Option Notation) :=
  match s.fetch url with
  | .failure reason => .error (.unreachable url reason)
  | .answer status contentType body =>
    if 200 ≤ status ∧ status < 300 then
      .ok (Text.characters body.toList, notationOfType? contentType)
    else .error (.status status url)

def fileText (s : Surroundings) (path : String) : Except LoadError (List Char × Option Notation) :=
  let p := Path.ofText path
  match s.fileAt? p with
  | none => .error (.notFound path)
  | some content =>
    match content.read with
    | .error flaw => .error (.unreadable path flaw)
    | .ok text =>
      if Text.isBlank text then .error (.emptyFile path)
      else .ok (text, notationOfSuffix? p.suffix)

def isUrl (source : String) : Bool :=
  ["http://", "https://"].any fun start => start.toList.isPrefixOf source.toList

/-- Loads a document: a dash stands for the standard input, and other sources are addresses or
files. -/
def load (s : Surroundings) (source : String) : Except LoadError Node := do
  if source = "-" then
    let text := Text.characters s.standardInput.toList
    if Text.isBlank text then throw .noInput
    read text none "stdin"
  else
    let (text, syntaxOf) ←
      if isUrl source then fetchText s source else fileText s source
    read text syntaxOf source

end Document

end ClientGen
