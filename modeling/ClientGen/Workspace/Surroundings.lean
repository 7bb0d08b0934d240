import ClientGen.Workspace.FileTree

/-! What a command finds around it. -/

namespace ClientGen

inductive Reply where
  | answer (status : Int) (contentType : String) (body : String)
  | failure (reason : String)
deriving DecidableEq, Repr

/-- Files, the current directory, environment variables, the users of the system with their home
directories, the one who runs the command if there is a record of them, templates that are not
installed, the standard input and the network. -/
structure Surroundings where
  files : FileTree := {}
  current : Place := []
  environment : List (String × String) := []
  users : List (String × String) := []
  user : Option String := none
  missingTemplates : List String := []
  standardInput : String := ""
  fetch : String → Reply

namespace Surroundings

/-- The value of an environment variable; an empty one counts as unset. -/
def setting? (s : Surroundings) (name : String) : Option String :=
  (s.environment.lookup name).filter (· ≠ "")

/-- The path of a home directory; the slashes at its end do not count. -/
def homePath (text : String) : Path :=
  match Text.dropRightWhile (· == '/') text.toList with
  | [] => ⟨true, []⟩
  | chars => Path.ofText (String.ofList chars)

/-- The home directory of the user: what the variable for it says, even if that is empty, else what
the record of the user says. -/
def homeText? (s : Surroundings) : Option String :=
  s.environment.lookup "HOME" <|> s.user.bind fun user => s.users.lookup user

/-- The home directory that a tilde stands for, alone or before the name of a user. One that starts
with a tilde itself is none. -/
def homeOf? (s : Surroundings) (user : String) : Option Path :=
  let text? := if user = "" then s.homeText? else s.users.lookup user
  (text?.filter fun text => text.toList.head? != some '~').map homePath

/-- The home directory of the user, if there is one. -/
def home? (s : Surroundings) : Option Path := s.homeOf? ""

/-- Replaces the first name of a path, if it starts with a tilde, by the home directory that it
stands for. -/
def expandHome? (s : Surroundings) (p : Path) : Option Path :=
  match p.absolute, p.names with
  | false, first :: rest =>
    match first.toList with
    | '~' :: user => (s.homeOf? (String.ofList user)).map (·.append rest)
    | _ => some p
  | _, _ => some p

def placeOf (s : Surroundings) (p : Path) : Place := p.resolve s.current

def fileAt? (s : Surroundings) (p : Path) : Option Content := s.files.fileAt? s.current p

end Surroundings

end ClientGen
