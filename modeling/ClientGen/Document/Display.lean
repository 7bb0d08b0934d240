import ClientGen.Document.Node
import ClientGen.Number.Reader
import ClientGen.Number.Shortest
import ClientGen.Text.Point
import ClientGen.Text.Printable

/-! Plain text of a document value, for messages and for names taken from values. -/

namespace ClientGen

/-- Decimal digits padded with zeros to a width. -/
def padded (width n : Nat) : String :=
  let digits := Nat.toDigits 10 n
  String.ofList (List.replicate (width - digits.length) '0' ++ digits)

/-- Year, month and day with dashes. -/
def CalendarDate.text (d : CalendarDate) : String :=
  padded 4 d.year ++ "-" ++ padded 2 d.month ++ "-" ++ padded 2 d.day

/-- The offset from universal time, as a sign, hours and minutes. -/
def offsetText (minutes : Int) : String :=
  (if minutes < 0 then "-" else "+") ++ padded 2 (minutes.natAbs / 60) ++ ":" ++
    padded 2 (minutes.natAbs % 60)

/-- Date and time with a separator between them; microseconds only if there are any. -/
def Timestamp.text (t : Timestamp) (separator : String) : String :=
  t.date.text ++ separator ++ padded 2 t.hour ++ ":" ++ padded 2 t.minute ++ ":" ++
    padded 2 t.second ++ (if t.microsecond = 0 then "" else "." ++ padded 6 t.microsecond) ++
    (t.offset.map offsetText).getD ""

/-- Writes one character of a quoted text whose quote is `quote`. -/
def quotedChar (quote c : Char) : List Char :=
  if c = quote ∨ c = '\\' then ['\\', c]
  else if c = '\n' then ['\\', 'n']
  else if c = '\r' then ['\\', 'r']
  else if c = '\t' then ['\\', 't']
  else if Text.isPrintable c then [c]
  else if c.toNat < 0x100 then '\\' :: 'x' :: hexDigits 2 c.toNat
  else if c.toNat < 0x10000 then '\\' :: 'u' :: hexDigits 4 c.toNat
  else '\\' :: 'U' :: hexDigits 8 c.toNat

/-- Writes one point of a quoted text. -/
def quotedPoint (quote : Char) : Text.Point → List Char
  | .char c => quotedChar quote c
  | .half offset => '\\' :: 'u' :: hexDigits 4 (Text.Point.half offset).code

/-- A text in single quotes, or in double ones if it holds a single quote and no double one. -/
def quoted (s : String) : String :=
  let quote := if s.toList.contains '\'' && !s.toList.contains '"' then '"' else '\''
  String.ofList (quote :: ((Text.points s.toList).flatMap (quotedPoint quote) ++ [quote]))

def quotedByte (quote : Char) (b : UInt8) : List Char :=
  let c := Char.ofNat b.toNat
  if b.toNat < 0x80 then quotedChar quote c else '\\' :: 'x' :: hexDigits 2 b.toNat

def Timestamp.parts (t : Timestamp) : String :=
  let base := [t.date.year, t.date.month, t.date.day, t.hour, t.minute]
  let tail :=
    if t.microsecond ≠ 0 then [t.second, t.microsecond]
    else if t.second ≠ 0 then [t.second] else []
  ", ".intercalate ((base ++ tail).map toString)

def offsetParts (minutes : Int) : String :=
  if minutes = 0 then "datetime.timezone.utc"
  else
    let days := Int.fdiv minutes 1440
    let seconds := Int.fmod minutes 1440 * 60
    let parts := (if days = 0 then [] else [s!"days={days}"]) ++
      (if seconds = 0 then [] else [s!"seconds={seconds}"])
    "datetime.timezone(datetime.timedelta(" ++ ", ".intercalate parts ++ "))"

namespace Scalar

/-- The text of a scalar inside a list or map, where texts are quoted. -/
def inner : Scalar → String
  | .null => "None"
  | .bool b => if b then "True" else "False"
  | .int i => toString i
  | .float x => x.text
  | .str s => quoted s
  | .date d => s!"datetime.date({d.year}, {d.month}, {d.day})"
  | .time t =>
    "datetime.datetime(" ++ t.parts ++
      (t.offset.map fun o => ", tzinfo=" ++ offsetParts o).getD "" ++ ")"
  | .bytes b =>
    let quote := if b.contains 39 && !b.contains 34 then '"' else '\''
    "b" ++ String.ofList (quote :: (b.flatMap (quotedByte quote) ++ [quote]))

/-- The text of a scalar that stands alone. -/
def display : Scalar → String
  | .str s => s
  | .date d => d.text
  | .time t => t.text " "
  | s => s.inner

/-- Whether a scalar has a text: an integer of too many digits has none. -/
def hasText : Scalar → Bool
  | .int i => Numeral.hasText i
  | _ => true

end Scalar

namespace Node

mutual

/-- The text of a value inside a list or map. -/
def inner : Node → String
  | .scalar s => s.inner
  | .list items => "[" ++ ", ".intercalate (innerList items) ++ "]"
  | .map es => "\x7b" ++ ", ".intercalate (innerEntries es) ++ "\x7d"

/-- The texts of the items of a list. -/
def innerList : List Node → List String
  | [] => []
  | item :: rest => item.inner :: innerList rest

/-- The texts of the entries of a map. -/
def innerEntries : List (Scalar × Node) → List String
  | [] => []
  | (key, value) :: rest => (key.inner ++ ": " ++ value.inner) :: innerEntries rest

end

/-- The text of a value that stands alone. -/
def display : Node → String
  | .scalar s => s.display
  | node => node.inner

mutual

/-- Whether a value has a text: all scalars in it have texts. -/
def hasText : Node → Bool
  | .scalar s => s.hasText
  | .list items => itemsHaveText items
  | .map es => entriesHaveText es

/-- Whether all items of a list have texts. -/
def itemsHaveText : List Node → Bool
  | [] => true
  | item :: rest => item.hasText && itemsHaveText rest

/-- Whether all keys and values of a map have texts. -/
def entriesHaveText : List (Scalar × Node) → Bool
  | [] => true
  | (key, value) :: rest => key.hasText && value.hasText && entriesHaveText rest

end

/-- The name of the kind of a value, as messages give it. -/
def kindName : Node → String
  | .scalar .null => "NoneType"
  | .scalar (.bool _) => "bool"
  | .scalar (.int _) => "int"
  | .scalar (.float _) => "float"
  | .scalar (.str _) => "str"
  | .scalar (.date _) => "date"
  | .scalar (.time _) => "datetime"
  | .scalar (.bytes _) => "bytes"
  | .list _ => "list"
  | .map _ => "dict"

end Node

end ClientGen
