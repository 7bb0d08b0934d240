import ClientGen.Fault

/-! Writing documents as JSON text. -/

namespace ClientGen.Json

/-- How a value is laid out: on one line, or with one item a line at a number of blanks a level;
and whether characters beyond ASCII are escaped. -/
structure Style where
  indent : Option Nat
  asciiOnly : Bool

def unitEscape (unit : Nat) : List Char := '\\' :: 'u' :: hexDigits 4 unit

/-- The escape of a character, in one or two code units. -/
def charEscape (c : Char) : List Char :=
  if c.toNat < 0x10000 then unitEscape c.toNat
  else
    let offset := c.toNat - 0x10000
    unitEscape (0xd800 + offset / 0x400) ++ unitEscape (0xdc00 + offset % 0x400)

def stringChar (asciiOnly : Bool) (c : Char) : List Char :=
  if c = '"' ∨ c = '\\' then ['\\', c]
  else if c = '\n' then ['\\', 'n']
  else if c = '\r' then ['\\', 'r']
  else if c = '\t' then ['\\', 't']
  else if c = '\x08' then ['\\', 'b']
  else if c = '\x0c' then ['\\', 'f']
  else if c.toNat < 0x20 ∨ (asciiOnly ∧ 0x7e < c.toNat) then charEscape c
  else (Text.Point.char c).spelling

/-- Writes one point of a string; a half is escaped like other points beyond ASCII. -/
def stringPoint (asciiOnly : Bool) : Text.Point → List Char
  | .char c => stringChar asciiOnly c
  | .half offset =>
    if asciiOnly then unitEscape (Text.Point.half offset).code
    else (Text.Point.half offset).spelling

def writeString (asciiOnly : Bool) (s : String) : String :=
  String.ofList ('"' :: ((Text.points s.toList).flatMap (stringPoint asciiOnly) ++ ['"']))

/-- Writes a floating-point number; the special values have words of their own. -/
def writeDouble : Double → String
  | .nan => "NaN"
  | .infinite negative => if negative then "-Infinity" else "Infinity"
  | x => x.text

/-- Writes a scalar, if it is of a kind that JSON has. -/
def writeScalar (asciiOnly : Bool) : Scalar → Except Fault String
  | .null => .ok "null"
  | .bool b => .ok (if b then "true" else "false")
  | .int i => (Node.int i).shown
  | .float x => .ok (writeDouble x)
  | .str s => .ok (writeString asciiOnly s)
  | .date _ | .time _ | .bytes _ => .error (.malformed .wrongKind)

/-- Writes the key of a member; a key that is no text is written as the text of its value. -/
def writeKey (asciiOnly : Bool) : Scalar → Except Fault String
  | .str s => .ok (writeString asciiOnly s)
  | .float x => .ok (writeString asciiOnly (writeDouble x))
  | s => (writeScalar asciiOnly s).map (writeString asciiOnly)

def Style.lineBreak (style : Style) (depth : Nat) : String :=
  match style.indent with
  | none => ""
  | some width => "\n" ++ String.ofList (List.replicate (width * depth) ' ')

def Style.separator (style : Style) (depth : Nat) : String :=
  match style.indent with
  | none => ", "
  | some _ => "," ++ style.lineBreak depth

/-- Puts brackets around written items. -/
def Style.enclose (style : Style) (depth : Nat) (opening closing : String)
    (items : List String) : String :=
  if items.isEmpty then opening ++ closing
  else
    opening ++ style.lineBreak (depth + 1) ++ (style.separator (depth + 1)).intercalate items ++
      style.lineBreak depth ++ closing

mutual

/-- Writes a value at a depth, if all its parts are of kinds that JSON has. -/
def writeAt (style : Style) (depth : Nat) : Node → Except Fault String
  | .scalar s => writeScalar style.asciiOnly s
  | .list items => (writeItems style (depth + 1) items).map (style.enclose depth "[" "]")
  | .map es => (writeMembers style (depth + 1) es).map (style.enclose depth "\x7b" "\x7d")

def writeItems (style : Style) (depth : Nat) : List Node → Except Fault (List String)
  | [] => return []
  | item :: rest => do
    let head ← writeAt style depth item
    let tail ← writeItems style depth rest
    return head :: tail

def writeMembers (style : Style) (depth : Nat) :
    List (Scalar × Node) → Except Fault (List String)
  | [] => return []
  | (key, value) :: rest => do
    let name ← writeKey style.asciiOnly key
    let head ← writeAt style depth value
    let tail ← writeMembers style depth rest
    return (name ++ ": " ++ head) :: tail

end

def write (style : Style) (node : Node) : Except Fault String := writeAt style 0 node

end ClientGen.Json
