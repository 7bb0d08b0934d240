import ClientGen.Command.CommandLine
import ClientGen.Command.Failure

/-! Running commands. -/

namespace ClientGen

inductive Ending where
  | success
  | failure (failure : Failure)
  | helpShown (exitCode : Nat)
  | refused (error : ArgumentError)
deriving DecidableEq

def Ending.exitCode : Ending → Nat
  | .success => 0
  | .failure f => f.exitCode
  | .helpShown code => code
  | .refused _ => 2

/-- What a command leaves: the files after it, what it printed and how it ended. -/
structure Outcome where
  files : FileTree
  printed : Printed
  ending : Ending := .success
  /-- The folder whose files were replaced. -/
  replaced : Option Place := none

namespace Command

def fail (w : Wording) (report : Report) (files : FileTree) (printed : Printed) (f : Failure) :
    Outcome :=
  let advice :=
    match f with
    | .unexpected _ => report.suggest "Re-run with --verbose for the traceback."
    | _ => {}
  { files, printed := printed ++ Report.error (f.message w) ++ advice, ending := .failure f }

def loadDocument (s : Surroundings) (source : String) : Except Failure ApiDocument := do
  let root ← (Document.load s source).mapError Failure.ofLoad
  let dialect ←
    match Document.dialect root with
    | .ok dialect => pure dialect
    | .error (.inl fault) => throw (.ofFault fault)
    | .error (.inr e) => throw (.ofLoad e)
  (ApiDocument.ofRoot dialect root).mapError Failure.ofFault

/-- Resolves the client of a source; warnings show even if that fails. -/
def resolveClient (s : Surroundings) (source : String) :
    Printed × Except Failure (Dialect × Client) :=
  match loadDocument s source with
  | .error f => ({}, .error f)
  | .ok doc =>
    (doc.warnings.foldl (fun printed text => printed ++ Report.message text) {},
      (doc.client.map fun client => (doc.dialect, client)).mapError Failure.ofFault)

/-- What is printed after a client was written. -/
def summary (report : Report) (client : Client) (input output : String) : Printed :=
  let empty :=
    if client.models.isEmpty && client.services.isEmpty then
      Report.warning s!"{input} defines no models or operations; only the core runtime was written"
    else {}
  let counts :=
    s!"{client.models.length} models and {client.services.length} services"
  empty ++ report.success s!"Wrote {counts} to {output}" ++
    report.suggest s!"Import the client from {output}/index"

/-- Generates a client from settings. -/
def generateFrom (w : Wording) (report : Report) (s : Surroundings) (input output : String)
    (options : Options) : Outcome :=
  let start :=
    report.debug ("Options: " ++ (Node.map options.fields).display) ++
      report.info s!"Generating {options.language.name} client from {input}"
  match resolveClient s input with
  | (warnings, .error f) => fail w report s.files (start ++ warnings) f
  | (warnings, .ok (_, client)) =>
    let target := Path.ofText output
    match client.write options s target with
    | (files, .error e) =>
      { fail w report files (start ++ warnings) (.ofWrite e) with
        replaced :=
          match e with
          | .failed .. | .unencodable _ => some (s.placeOf target)
          | _ => none }
    | (files, .ok place) =>
      { files
        printed := start ++ warnings ++ summary report client input output
        replaced := some place }

def generateClient (w : Wording) (report : Report) (s : Surroundings) (input output : Option String)
    (options : Entries) : Outcome :=
  let given (text : Option String) : Node := (text.map .str).getD .null
  match Settings.resolve s (given input) (given output) options with
  | .error e => fail w report s.files {} (.ofSettings e)
  | .ok settings =>
    match settings.input.filter (· ≠ ""), settings.output.filter (· ≠ "") with
    | none, _ => fail w report s.files {} .noInput
    | _, none => fail w report s.files {} .noOutput
    | some input, some output => generateFrom w report s input output settings.options

/-- A text, or a dash for an empty one. -/
def orDash (text : String) : String := if text = "" then "-" else text

/-- The row of a model: of its properties the first five are named. -/
def modelRow (m : Model) : List String :=
  let names := m.properties.map (·.name)
  let shown := ", ".intercalate (names.take 5) ++ (if names.length > 5 then "..." else "")
  [m.name, m.shape.name, m.type.text, orDash shown, orDash (", ".intercalate m.imports)]

def operationRow (s : Service) (op : Operation) : List String :=
  let result := ((op.results.head?).map (·.model.type.text)).getD "void"
  [s.name, op.name, op.method.verb, op.path, result]

/-- What there is to know of a client as a whole. -/
def overview (dialect : Dialect) (client : Client) : List (String × (String ⊕ Nat)) :=
  [("openapi_version", .inl dialect.version), ("server", .inl (orDash client.server)),
    ("version", .inl client.version), ("models", .inr client.models.length),
    ("services", .inr client.services.length),
    ("operations", .inr (client.services.foldl (fun n s => n + s.operations.length) 0))]

def describe (report : Report) (dialect : Dialect) (client : Client) : Subject → Printed
  | .models =>
    if client.models.isEmpty then report.info "No models defined in this spec."
    else
      report.table ["Model", "Export", "Type", "Properties", "Imports"]
        (client.models.map modelRow)
  | .services =>
    if client.services.isEmpty then report.info "No operations defined in this spec."
    else
      report.table ["Service", "Operation", "Method", "Path", "Result"]
        (client.services.flatMap fun s => s.operations.map (operationRow s))
  | .info =>
    let fields := overview dialect client
    match report.format with
    | .json =>
      Report.json (.map (fields.map fun (name, value) =>
        (.str name, value.elim .str fun n => .int (Int.ofNat n))))
    | .plain =>
      report.table ["Field", "Value"]
        (fields.map fun (name, value) => [name, value.elim id toString])

def inspectClient (w : Wording) (report : Report) (s : Surroundings) (subject : Subject)
    (input : Option String) : Outcome :=
  match Settings.resolve s ((input.map .str).getD .null) .null [] with
  | .error e => fail w report s.files {} (.ofSettings e)
  | .ok settings =>
    match settings.input.filter (· ≠ "") with
    | none => fail w report s.files {} .noInput
    | some source =>
      let start := report.debug ("Resolving " ++ source)
      match resolveClient s source with
      | (warnings, .error f) => fail w report s.files (start ++ warnings) f
      | (warnings, .ok (dialect, client)) =>
        { files := s.files
          printed := start ++ warnings ++ describe report dialect client subject }

def run (w : Wording) (report : Report) (s : Surroundings) : Command → Outcome
  | .generate input output options => generateClient w report s input output options
  | .inspect subject input => inspectClient w report s subject input

end Command

namespace Invocation

def programVersion : String := "0.3.0"

def usage : String := "Usage: specgen [OPTIONS] COMMAND [ARGS]..."

def helpText : String :=
  "\n".intercalate
    [usage, "", "Generate TypeScript and JavaScript clients from OpenAPI 2.0/3.0 specs.", "",
      "Commands:", "  generate                      Generate a client.",
      "  inspect models|services|info  Inspect the client a spec resolves to.", "",
      "Options: --version --json --plain --no-color -q/--quiet -v/--verbose --help", ""]

/-- A message in a frame of eighty columns. -/
def framed (text : String) : String :=
  let line (n : Nat) := String.ofList (List.replicate n '─')
  let blanks := String.ofList (List.replicate (76 - text.length) ' ')
  "╭─ Error " ++ line 70 ++ "╮\n│ " ++ text ++ blanks ++ " │\n╰" ++ line 78 ++ "╯\n"

/-- What a refusal prints; a missing or unwanted value needs no reminder of the usage. -/
def refusal (e : ArgumentError) : String :=
  let lead :=
    match e with
    | .missingValue _ | .unwantedValue _ => ""
    | _ => usage ++ "\n"
  lead ++ framed e.message

/-- Does what the program is asked to do. -/
def run (w : Wording) (s : Surroundings) : Invocation → Outcome
  | .help code =>
    { files := s.files, printed := { data := helpText }, ending := .helpShown code }
  | .version => { files := s.files, printed := Report.line ("specgen " ++ programVersion) }
  | .refused e =>
    { files := s.files, printed := { messages := refusal e }, ending := .refused e }
  | .command report asked => asked.run w report s

end Invocation

end ClientGen
