import ClientGen.Text.Point
import ClientGen.Text.Replace

/-! Paths of files: names between slashes. -/

namespace ClientGen

/-- A place in a file tree: the names on the way from the root. -/
abbrev Place := List String

def Place.text (place : Place) : String := "/" ++ "/".intercalate place

/-- A path as it is written, without empty names and single dots. -/
structure Path where
  absolute : Bool
  names : List String
deriving DecidableEq, Repr, Inhabited

namespace Path

def ofText (s : String) : Path :=
  { absolute := s.toList.head? == some '/'
    names := ((Text.splitOn '/' s.toList).map String.ofList).filter fun n => n != "" && n != "." }

def ofPlace (place : Place) : Path := ⟨true, place⟩

def text (p : Path) : String :=
  let names := "/".intercalate p.names
  if p.absolute then "/" ++ names else if p.names.isEmpty then "." else names

def append (p : Path) (names : List String) : Path := { p with names := p.names ++ names }

def parent (p : Path) : Path := { p with names := p.names.dropLast }

def name (p : Path) : String := p.names.getLastD ""

/-- The ending of the last name from its last dot on; a dot at either end of the name makes none. -/
def suffix (p : Path) : String :=
  let chars := p.name.toList
  let after := (chars.reverse.takeWhile (· != '.')).length
  let dot := chars.length - after
  if chars.contains '.' ∧ dot > 1 ∧ after > 0 then String.ofList (chars.drop (dot - 1)) else ""

/-- Whether the system can look for a name that holds a point. Of the halves it knows those that
stand for bytes beyond ASCII. -/
def admits : Text.Point → Bool
  | .char c => c != '\x00'
  | .half offset => 0x480 ≤ offset.val && offset.val < 0x500

def isUsable (p : Path) : Bool := p.names.all fun name => (Text.points name.toList).all admits

/-- Takes the steps of names from a place, where two dots step back. -/
def stepFrom (place : Place) : List String → Place
  | [] => place
  | name :: rest =>
    if name = ".." then stepFrom place.dropLast rest else stepFrom (place ++ [name]) rest

def resolve (current : Place) (p : Path) : Place :=
  stepFrom (if p.absolute then [] else current) p.names

end Path

end ClientGen
