import ClientGen.Command.Run

/-! The program: it looks at the files that matter, runs the command and carries out its changes. -/

namespace ClientGen

namespace Program

/-- Text from outside in the spelling of texts inside. -/
def spelled (text : String) : String := String.ofList (Text.spell text.toList)

/-- The characters of a text for the outside. -/
def unspelled (text : String) : String := String.ofList (Text.characters text.toList)

/-- What is at a place, as far as it can be read. -/
def lookAt (place : Place) : IO (Option FileEntry) := do
  try
    let bytes ← IO.FS.readBinFile (unspelled place.text)
    return some (.file (.bytes bytes.toList))
  catch e =>
    match e with
    | .inappropriateType .. => return some .directory
    | _ => return none

/-- Adds what is at a path, and at those above it, to a tree. -/
def lookAlong (current : Place) (t : FileTree) (p : Path) : IO FileTree := do
  let mut tree := t
  for count in List.range (p.names.length + 1) do
    let place := Path.resolve current { p with names := p.names.take count }
    for depth in List.range (place.length + 1) do
      let above := place.take depth
      if (tree.entry? above).isNone then
        if let some entry ← lookAt above then tree := tree.insert above entry
  return tree

/-- The environment variables that commands read. -/
def environmentNames : List String :=
  ["HOME", Settings.fileVariable, Settings.inputVariable, Settings.outputVariable]

def readEnvironment : IO (List (String × String)) := do
  let mut known := []
  for name in environmentNames do
    if let some text ← IO.getEnv name then known := (name, spelled text) :: known
  return known

/-- A record of the system's table of users. -/
structure UserRecord where
  name : String
  number : String
  home : String

def UserRecord.ofLine? (line : String) : Option UserRecord :=
  match (Text.splitOn ':' (spelled line).toList).map String.ofList with
  | name :: _ :: number :: _ :: _ :: home :: _ => some { name, number, home }
  | _ => none

/-- The lines of a table of the system, none if it cannot be read. -/
def readTable (file : String) : IO (List String) := do
  try
    return (← IO.FS.lines file).toList
  catch _ => return []

/-- The number of the user who runs the program, from a line of what the system tells about it. -/
def numberOfLine? (line : String) : Option String :=
  match (Text.splitOn '\t' line.toList).map String.ofList with
  | "Uid:" :: number :: _ => some number
  | _ => none

/-- The users of the system, and the one who runs the program. -/
def readUsers : IO (List (String × String) × Option String) := do
  let records := (← readTable "/etc/passwd").filterMap UserRecord.ofLine?
  let number? := (← readTable "/proc/self/status").findSome? numberOfLine?
  let current := records.find? fun record => some record.number == number?
  return (records.map fun record => (record.name, record.home), current.map (·.name))

/-- The input and output that a command settles on. -/
def endpoints (s : Surroundings) : Command → List String
  | .generate input output options =>
    let given (text : Option String) : Node := (text.map .str).getD .null
    match Settings.resolve s (given input) (given output) options with
    | .ok settings => settings.input.toList ++ settings.output.toList
    | .error _ => []
  | .inspect _ input =>
    match Settings.resolve s ((input.map .str).getD .null) .null [] with
    | .ok settings => settings.input.toList
    | .error _ => []

def look (command : Command) : IO Surroundings := do
  let current := (Path.ofText (spelled (← IO.currentDir).toString)).names
  let (users, user) ← readUsers
  let bare : Surroundings :=
    { current, environment := ← readEnvironment, users, user
      fetch := fun _ => .failure "this program has no access to the network" }
  let start ← lookAlong current {} (.ofPlace current)
  let files ← ((Settings.filePath? bare).toList).foldlM (lookAlong current) start
  let ends := endpoints { bare with files } command
  let files ← (ends.map Path.ofText).foldlM (lookAlong current) files
  let standardInput ← if ends.head? = some "-" then (← IO.getStdin).readToEnd else pure ""
  return { bare with files, standardInput := spelled standardInput }

/-- Carries out what changed between two trees, after removing a folder that was replaced. -/
def carryOut (before : FileTree) (o : Outcome) : IO Unit := do
  let isReplaced (place : Place) : Bool := o.replaced.any (·.isPrefixOf place)
  if let some folder := o.replaced then
    if before.isDirectory folder then IO.FS.removeDirAll (unspelled folder.text)
  for (place, entry) in o.files.entries.reverse do
    if isReplaced place || before.entry? place != some entry then
      let path := unspelled place.text
      match entry with
      | .directory => IO.FS.createDirAll path
      | .file (.text s) => IO.FS.writeFile path (unspelled s)
      | .file (.bytes b) => IO.FS.writeBinFile path ⟨b.toArray⟩

/-- Does what the arguments ask for and gives the exit code. -/
def run (arguments : List String) : IO UInt32 := do
  let invocation := CommandLine.read (arguments.map spelled)
  let s ←
    match invocation with
    | .command _ command => look command
    | _ => pure { fetch := fun _ => .failure "" }
  let o := invocation.run .full s
  carryOut s.files o
  IO.print (unspelled o.printed.data)
  IO.eprint (unspelled o.printed.messages)
  return UInt32.ofNat o.ending.exitCode

end Program

end ClientGen

def main (arguments : List String) : IO UInt32 := ClientGen.Program.run arguments
