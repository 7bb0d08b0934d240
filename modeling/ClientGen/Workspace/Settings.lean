import ClientGen.Document.Json.Reader
import ClientGen.Options
import ClientGen.Wording
import ClientGen.Workspace.Surroundings

/-! Settings of a generation: from the command, else from the environment, else from the project
file. -/

namespace ClientGen

/-- What a client is generated from, where it goes, and how it looks. -/
structure Settings where
  input : Option String := none
  output : Option String := none
  options : Options := {}
deriving DecidableEq, Repr, Inhabited

/-- Why settings cannot be found. -/
inductive SettingsError where
  | noFile (path : Path)
  | notText (path : Path) (flaw : Text.Utf8.Flaw)
  | notJson (path : Path) (message : String)
  | invalidFile (path : Path) (issues : List Issue)
  | invalidOptions (issues : List Issue)
  /-- A path starts with a tilde that stands for no home directory. -/
  | noHome
deriving DecidableEq, Repr

def Settings.fileVariable : String := "SPECGEN_CONFIG"

/-- The variable for the source of the document. -/
def Settings.inputVariable : String := "SPECGEN_INPUT"

/-- The variable for the folder of the client. -/
def Settings.outputVariable : String := "SPECGEN_OUTPUT"

namespace SettingsError

def message (w : Wording) : SettingsError → String
  | .noFile path => s!"Config file not found: {path.text} (from $" ++ Settings.fileVariable ++ ")"
  | .notText path flaw => s!"Invalid project config at {path.text}: " ++ flaw.message
  | .notJson path message => s!"Invalid project config at {path.text}: {message}"
  | .invalidFile path issues =>
    s!"Invalid project config at {path.text}: " ++ w.issues "GenerateConfig" issues
  | .invalidOptions issues =>
    "Invalid generation options: " ++ w.issues "GenerationOptions" issues
  | .noHome => "Could not determine home directory."

def issues : SettingsError → List Issue
  | .invalidFile _ issues => issues
  | .invalidOptions issues => issues
  | _ => []

end SettingsError

namespace Settings

def fieldNames : List String := ["input", "output", "options"]

def unknownFields (es : Entries) : List Issue :=
  es.filterMap fun (key, _) =>
    if fieldNames.contains key.display then none else some ⟨[key.display], .unknownField⟩

def ofNode : FieldReader Settings :=
  .record (fun es => do
    let input ← FieldReader.field es "input" (.optional .text) none
    let output ← FieldReader.field es "output" (.optional .text) none
    let options ← FieldReader.field es "options" Options.ofNode {}
    ⟨{ input, output, options }, unknownFields es⟩) {}

def filePath? (s : Surroundings) : Option Path :=
  match s.setting? fileVariable with
  | some text => s.expandHome? (Path.ofText text)
  | none => some (.ofPlace (s.current ++ ["specgen.json"]))

/-- Reads the content of a project file. -/
def ofContent (path : Path) (content : Content) : Except SettingsError Settings := do
  let text ← content.read.mapError (.notText path)
  let node ← (Json.read text).mapError fun e => .notJson path (e.message text)
  (ofNode node).result.mapError (.invalidFile path)

/-- The settings of the project file. It may be missing unless the environment names it. -/
def ofProject (s : Surroundings) : Except SettingsError Settings := do
  let some path := filePath? s | throw .noHome
  match s.fileAt? path with
  | some content => ofContent path content
  | none => if (s.setting? fileVariable).isSome then throw (.noFile path) else return {}

def overlay (es given : Entries) : Entries :=
  given.foldl (fun es (key, node) =>
    match node with
    | .null => es
    | _ => es.insert key node) es

/-- The settings of a command. Of a field's values the first counts: given with the command, set in
the environment, written in the project file. -/
def resolve (s : Surroundings) (input output : Node) (options : Entries) :
    Except SettingsError Settings := do
  let project ← ofProject s
  let choose (given : Node) (name : String) (field : Option String) : Node :=
    match given with
    | .null => (((s.setting? name) <|> field).map .str).getD .null
    | node => node
  let checked : Checked Settings := do
    let input ← (FieldReader.optional .text
      (choose input inputVariable project.input)).within "input"
    let output ← (FieldReader.optional .text
      (choose output outputVariable project.output)).within "output"
    pure { input, output }
  let options ← (Options.ofNode (.map (overlay project.options.fields options))).result.mapError
    .invalidOptions
  let settings ← checked.result.mapError .invalidOptions
  return { settings with options }

end Settings

end ClientGen
