import ClientGen.Text.Point
import ClientGen.Text.Space
import ClientGen.Text.Utf8
import ClientGen.Workspace.Path

/-! Trees of files and directories. -/

namespace ClientGen

inductive Content where
  | text (s : String)
  | bytes (b : List UInt8)
deriving DecidableEq, Repr, Inhabited

inductive FileEntry where
  | directory
  | file (content : Content)
deriving DecidableEq, Repr, Inhabited

/-- Why the file system refuses an operation. -/
inductive FileFault where
  | missing
  | notDirectory
  | isDirectory
  | exists
deriving DecidableEq, Repr

def FileFault.message : FileFault → String
  | .missing => "No such file or directory"
  | .notDirectory => "Not a directory"
  | .isDirectory => "Is a directory"
  | .exists => "File exists"

/-- Entries at places below the root, which is always a directory. -/
structure FileTree where
  entries : List (Place × FileEntry) := []
deriving Inhabited

namespace FileTree

def entry? (t : FileTree) (place : Place) : Option FileEntry :=
  if place = [] then some .directory else t.entries.lookup place

def isDirectory (t : FileTree) (place : Place) : Bool := t.entry? place == some .directory

def insert (t : FileTree) (place : Place) (e : FileEntry) : FileTree :=
  ⟨(place, e) :: t.entries.filter (·.1 != place)⟩

def removeAll (t : FileTree) (place : Place) : FileTree :=
  ⟨t.entries.filter fun e => !place.isPrefixOf e.1⟩

/-- Makes a place and those above it directories, as far as they are not there. -/
def ensureDirectory (t : FileTree) (place : Place) : FileTree :=
  let above := (List.range (place.length + 1)).map place.take
  above.foldl (fun t p => if (t.entry? p).isSome then t else t.insert p .directory) t

/-- Puts a file and the directories above it. -/
def putFile (t : FileTree) (place : Place) (content : Content) : FileTree :=
  (t.ensureDirectory place.dropLast).insert place (.file content)

/-- Walks names from a place; each name but the last must be in a directory that is there. -/
def walk (t : FileTree) (place : Place) : List String → Except FileFault Place
  | [] => .ok place
  | name :: rest =>
    match t.entry? place with
    | some .directory => walk t (if name = ".." then place.dropLast else place ++ [name]) rest
    | some (.file _) => .error .notDirectory
    | none => .error .missing

def locate (t : FileTree) (current : Place) (p : Path) : Except FileFault Place :=
  t.walk (if p.absolute then [] else current) p.names

def entryAt? (t : FileTree) (current : Place) (p : Path) : Option FileEntry :=
  (t.locate current p).toOption.bind t.entry?

def fileAt? (t : FileTree) (current : Place) (p : Path) : Option Content :=
  match t.entryAt? current p with
  | some (.file content) => some content
  | _ => none

def makeDirectory (t : FileTree) (current : Place) (p : Path) : Except FileFault FileTree := do
  let place ← t.locate current p
  if (t.entry? place).isSome then throw .exists
  return t.insert place .directory

/-- Makes one directory; one that is there will do. -/
def allowDirectory (t : FileTree) (current : Place) (p : Path) (made : Except FileFault FileTree) :
    Except FileFault FileTree :=
  match made with
  | .ok t => .ok t
  | .error fault => if t.entryAt? current p = some .directory then .ok t else .error fault

/-- Makes a directory and those above it where they are missing. -/
def makeDirectories (t : FileTree) (current : Place) : (names : List String) → (p : Path) →
    Except FileFault FileTree
  | [], p => t.allowDirectory current p (t.makeDirectory current p)
  | _ :: above, p =>
    match t.makeDirectory current p with
    | .error .missing => do
      let t ← t.makeDirectories current above p.parent
      t.allowDirectory current p (t.makeDirectory current p)
    | made => t.allowDirectory current p made

/-- Makes the directory of a path and those above it where they are missing. -/
def makePath (t : FileTree) (current : Place) (p : Path) : Except FileFault FileTree :=
  t.makeDirectories current p.names p

def writeText (t : FileTree) (current : Place) (p : Path) (s : String) :
    Except FileFault FileTree := do
  let place ← t.locate current p
  if t.isDirectory place then throw .isDirectory
  return t.insert place (.file (.text s))

def below (t : FileTree) (place : Place) : List (Place × FileEntry) :=
  t.entries.filterMap fun (p, e) =>
    if place.isPrefixOf p ∧ p ≠ place then some (p.drop place.length, e) else none

/-- Files below a place, and directories without any entry, marked by a slash, in order. -/
def listing (t : FileTree) (place : Place) : List String :=
  let entries := t.below place
  let isEmpty (p : Place) : Bool := !entries.any fun (q, _) => p.isPrefixOf q && p != q
  let shown := entries.filterMap fun (p, e) =>
    match e with
    | .file _ => some ("/".intercalate p)
    | .directory => if isEmpty p then some ("/".intercalate p ++ "/") else none
  shown.mergeSort fun a b => decide (a ≤ b)

end FileTree

namespace Content

/-- The characters of a file; every kind of line end counts as a line feed. -/
def read : Content → Except Text.Utf8.Flaw (List Char)
  | .text s => .ok (Text.unifyNewlines (Text.characters s.toList))
  | .bytes b => (Text.Utf8.decode b).map Text.unifyNewlines

end Content

end ClientGen
