import ClientGen.Command.Arguments
import ClientGen.Command.Report
import ClientGen.Options

/-! The commands of the program and their switches. -/

namespace ClientGen

inductive Subject where
  | models
  | services
  | info
deriving DecidableEq, Repr, Inhabited

def Subject.words : List (String × Subject) :=
  [("models", .models), ("services", .services), ("info", .info)]

/-- A command with what was given for it. -/
inductive Command where
  | generate (input output : Option String) (options : Entries)
  | inspect (subject : Subject) (input : Option String)

/-- What the program is asked to do. -/
inductive Invocation where
  | help (exitCode : Nat)
  | version
  | refused (error : ArgumentError)
  | command (report : Report) (command : Command)

namespace CommandLine

def help : Switch := { names := ["--help"] }

def version : Switch := { names := ["--version"] }

def json : Switch := { names := ["--json"] }

def plain : Switch := { names := ["--plain"] }

/-- The switch that turns off colours, which there are none of. -/
def noColor : Switch := { names := ["--no-color"] }

def quiet : Switch := { names := ["--quiet", "-q"] }

def verbose : Switch := { names := ["--verbose", "-v"] }

/-- The switch for the source of the document. -/
def input : Switch := { names := ["--input", "-i"], takesValue := true }

/-- The switch for the folder of the client. -/
def output : Switch := { names := ["--output", "-o"], takesValue := true }

def transport : Switch := { names := ["--client", "-c"], takesValue := true }

def language : Switch := { names := ["--language", "-l"], takesValue := true }

def indent : Switch := { names := ["--indent"], takesValue := true }

def useUnionTypes : Switch := { names := ["--use-union-types"] }

/-- The switch for arguments in one object. -/
def useOptions : Switch := { names := ["--use-options"] }

def noCore : Switch := { names := ["--no-core"] }

def noModels : Switch := { names := ["--no-models"] }

def noServices : Switch := { names := ["--no-services"] }

def globalSwitches : List Switch := [version, json, plain, noColor, quiet, verbose, help]

def generateSwitches : List Switch :=
  [input, output, transport, language, useUnionTypes, useOptions, indent, noCore, noModels,
    noServices, help]

/-- Switches with words for values. -/
def choices : List (Switch × List String) :=
  [(transport, Transport.words.map (·.1)), (language, Language.words.map (·.1)),
    (indent, Indent.words.map (·.1))]

/-- The first value that is none of its switch's words. -/
def badValue? (a : Arguments) : Option ArgumentError :=
  choices.findSome? fun (s, words) =>
    match a.value? s with
    | some value =>
      if words.contains value then none else some (.badValue (s.names.headD "") value)
    | none => none

def givenOptions (a : Arguments) : Entries :=
  let word (name : String) (s : Switch) : Entries :=
    match a.value? s with
    | some value => [(.str name, .str value)]
    | none => []
  let flag (name : String) (s : Switch) (value : Bool) : Entries :=
    if a.has s then [(.str name, .bool value)] else []
  word "language" language ++ word "http_client" transport ++ word "indent" indent ++
    flag "use_union_types" useUnionTypes true ++ flag "use_options" useOptions true ++
    flag "export_core" noCore false ++ flag "export_models" noModels false ++
    flag "export_services" noServices false

/-- Reads the arguments of a command that has no commands of its own. -/
def readCommand (report : Report) (switches : List Switch) (command : Arguments → Command)
    (arguments : List String) : Invocation :=
  match Arguments.parse switches true arguments with
  | .error e => .refused e
  | .ok a =>
    if a.has help then .help 0
    else
      match badValue? a, a.rest with
      | some e, _ => .refused e
      | none, argument :: _ => .refused (.extraArgument argument)
      | none, [] => .command report (command a)

/-- The answer to switches that need no command: the first of them counts. -/
def immediate? (a : Arguments) : Option Invocation :=
  a.given.findSome? fun (s, _) =>
    if s = help then some (.help 0) else if s = version then some .version else none

/-- Reads switches and a command after them. A word that is no command is read as a switch again if
it looks like one. -/
def readGroup (switches : List Switch) (arguments : List String)
    (command : Arguments → String → List String → Option Invocation) : Invocation :=
  if arguments.isEmpty then .help 2
  else
    match Arguments.parse switches false arguments with
    | .error e => .refused e
    | .ok a =>
      match immediate? a, a.rest with
      | some invocation, _ => invocation
      | none, [] => .refused .missingCommand
      | none, word :: rest =>
        match command a word rest with
        | some invocation => invocation
        | none =>
          match Arguments.parse switches false (word :: rest) with
          | .error e => .refused e
          | .ok again => (immediate? again).getD (.refused (.unknownCommand word))

/-- How a command reports after the switches before it; JSON prevails over plain data. -/
def reportOf (a : Arguments) : Report :=
  { format := if a.has json then .json else .plain
    isQuiet := a.has quiet
    isVerbose := a.has verbose }

def readInspect (report : Report) (arguments : List String) : Invocation :=
  readGroup [help] arguments fun _ word rest =>
    (Subject.words.lookup word).map fun subject =>
      readCommand report [input, help] (fun a => .inspect subject (a.value? input)) rest

def read (arguments : List String) : Invocation :=
  readGroup globalSwitches arguments fun a word rest =>
    let report := reportOf a
    match word with
    | "generate" =>
      some (readCommand report generateSwitches
        (fun a => .generate (a.value? input) (a.value? output) (givenOptions a)) rest)
    | "inspect" => some (readInspect report rest)
    | _ => none

end CommandLine

end ClientGen
