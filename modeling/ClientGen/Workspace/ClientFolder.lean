import ClientGen.Code.SourceFile
import ClientGen.Wording
import ClientGen.Workspace.Surroundings

/-! Writing the source files of a client into a folder, which replaces what the folder held. -/

namespace ClientGen

inductive WriteError where
  | unrendered (error : RenderError)
  /-- A path that the system cannot look for. -/
  | unusablePath (output : Path)
  | noHome
  | protectedFolder (place : Place)
  | notFolder (place : Place)
  | failed (output : Path) (fault : FileFault)
  /-- A file whose text has no bytes. -/
  | unencodable (run : Text.Unencodable)
deriving DecidableEq, Repr

def WriteError.message (w : Wording) : WriteError → String
  | .unrendered e =>
    s!"Failed to render {e.path} from {e.template}: " ++ w.missingTemplate e.missing
  | .unusablePath output => s!"no path: {output.text}"
  | .noHome => "Could not determine home directory."
  | .protectedFolder place =>
    s!"Refusing to replace {place.text}: it contains the working or home directory"
  | .notFolder place => s!"Output path {place.text} exists and is not a directory"
  | .failed output fault => s!"Failed to write client to {output.text}: " ++ w.unwritable fault
  | .unencodable run => run.message

/-- The first halves of surrogate pairs in the text of a file, if there are any. -/
def SourceFile.unencodable? (file : SourceFile) : Option Text.Unencodable :=
  Text.unencodable? file.text.toList

/-- What is written of a text: nothing, if a part of it has no bytes. -/
def SourceFile.writtenText (file : SourceFile) : String :=
  if file.unencodable?.isSome then "" else file.text

namespace ClientFolder

/-- Whether a place must not be replaced: the home directory, and the current directory with those
above it. -/
def isProtected (s : Surroundings) (home : Path) (place : Place) : Bool :=
  place == s.placeOf home || place.isPrefixOf s.current

/-- Why a folder is not replaced, if there is a reason. The root is told before the home directory
is looked for. -/
def refusal? (s : Surroundings) (output : Path) : Option WriteError :=
  let place := s.placeOf output
  if !output.isUsable then some (.unusablePath output)
  else if place = [] then some (.protectedFolder place)
  else
    match s.home? with
    | none => some .noHome
    | some home =>
      if isProtected s home place then some (.protectedFolder place)
      else
        match s.files.entry? place with
        | some (.file _) => some (.notFolder place)
        | _ => none

/-- Makes an empty folder, in place of one that is there. -/
def reset (s : Surroundings) (output : Path) : Except WriteError FileTree :=
  let place := s.placeOf output
  match refusal? s output with
  | some e => .error e
  | none => ((s.files.removeAll place).makePath [] (.ofPlace place)).mapError (.failed output)

/-- Writes a file below a folder, with the directories above it. The file is there before its text
is found to have no bytes. -/
def writeFile (current : Place) (output : Path) (t : FileTree) (file : SourceFile) :
    FileTree × Option WriteError :=
  let target := output.append (Path.ofText file.path).names
  match t.makePath current target.parent with
  | .error fault => (t, some (.failed output fault))
  | .ok made =>
    match made.writeText current target file.writtenText with
    | .error fault => (made, some (.failed output fault))
    | .ok written => (written, file.unencodable?.map .unencodable)

/-- Writes files below a folder up to the first that cannot be written. -/
def writeFiles (current : Place) (output : Path) (t : FileTree) :
    List SourceFile → FileTree × Option WriteError
  | [] => (t, none)
  | file :: rest =>
    match writeFile current output t file with
    | (written, none) => writeFiles current output written rest
    | failed => failed

/-- Writes files into a folder in place of what it held: the tree after it, and the folder's
place. -/
def replace (s : Surroundings) (output : Path) (files : List SourceFile) :
    FileTree × Except WriteError Place :=
  match reset s output with
  | .error e => (s.files, .error e)
  | .ok t =>
    match writeFiles s.current output t files with
    | (written, none) => (written, .ok (s.placeOf output))
    | (written, some e) => (written, .error e)

end ClientFolder

/-- Writes the source files of a client into a folder, once all of them are rendered: the tree after
it, and the folder's place. -/
def Client.write (client : Client) (options : Options) (s : Surroundings) (output : Path) :
    FileTree × Except WriteError Place :=
  match client.render options s.missingTemplates with
  | .error e => (s.files, .error (.unrendered e))
  | .ok files => ClientFolder.replace s output files

end ClientGen
