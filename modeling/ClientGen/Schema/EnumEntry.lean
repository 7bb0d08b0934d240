import ClientGen.Fault
import ClientGen.Naming.Fresh
import ClientGen.Number.Reader
import ClientGen.Text.DecimalDigit
import ClientGen.Text.UpperCase

/-! Members of enumerations, from a list of values or from a description of `Name=Number` pairs. -/

namespace ClientGen

/-- A member of an enumeration: `value` is the text on the wire, and `type` tells whether it is a
text, a number or a truth value. -/
structure EnumEntry where
  name : String
  value : String
  type : String := "string"
  description : Option String := none
deriving DecidableEq, Repr, Inhabited

namespace EnumEntry

/-- Puts an underscore before a leading digit. -/
def guardDigit : List Char → List Char
  | [] => []
  | c :: rest => if Text.isDecimalDigit c then '_' :: c :: rest else c :: rest

/-- Puts an underscore between a small ASCII letter and a capital one. -/
def splitHumps : List Char → List Char
  | a :: b :: rest =>
    if a.isLower && b.isUpper then a :: '_' :: splitHumps (b :: rest)
    else a :: splitHumps (b :: rest)
  | s => s

/-- The member name of a text: capitals with underscores between words. -/
def memberName (value : String) : String :=
  let spaced := Text.markGaps Text.isWordChar '_' false value.toList
  String.ofList (Text.upper (splitHumps (guardDigit spaced)))

def numberName (text : String) : String :=
  "_" ++ String.ofList (text.toList.flatMap fun c =>
    if c = '-' then "MINUS_".toList else if c = '.' then ['_'] else [c])

/-- The member for a scalar; nothing, dates and bytes have none. An integer without a text is an
error. -/
def ofScalar? : Scalar → Except Fault (Option EnumEntry)
  | .bool b =>
    .ok (some { name := if b then "TRUE" else "FALSE", value := if b then "true" else "false",
                type := "boolean" })
  | .int i => (Node.int i).shown.map fun text =>
    some { name := numberName text, value := text, type := "number" }
  | .float x => .ok (some { name := numberName x.text, value := x.text, type := "number" })
  | .str s => .ok (some { name := if s = "" then "EMPTY" else memberName s, value := s })
  | _ => .ok none

/-- Whether two values are one member: they are of one kind and equal. -/
def sameValue : Scalar → Scalar → Bool
  | .float x, .float y => x.equals y
  | a, b => a == b

/-- Adds the member for a value unless an earlier value is the same one. The name is told apart from
the names of earlier members. -/
def collect (seen : List Scalar) (taken : List String) :
    List Node → Except Fault (List EnumEntry)
  | [] => .ok []
  | .scalar s :: rest =>
    if seen.any (sameValue s) then collect seen taken rest
    else
      match ofScalar? s with
      | .error fault => .error fault
      | .ok none => collect seen taken rest
      | .ok (some entry) =>
        let name := Naming.fresh taken entry.name "_"
        (collect (s :: seen) (name :: taken) rest).map ({ entry with name := name } :: ·)
  | _ :: rest => collect seen taken rest

/-- One member for each distinct scalar, in order. -/
def ofValues (values : List Node) : Except Fault (List EnumEntry) := collect [] [] values

/-- One text for each member, if the extension lists exactly as many values. -/
def extension? (count : Nat) : Node → Option (List Node)
  | .list items => if items.length = count then some items else none
  | _ => none

/-- The text that an item of an extension gives; an absent item gives none. -/
def itemText? (item : Node) : Except Fault (Option String) :=
  if item.isPresent then item.shown.map some else .ok none

/-- The texts that an extension gives to members; without it there are none. -/
def extensionTexts (entries : List EnumEntry) (extension : Node) :
    Except Fault (List (Option String)) :=
  match extension? entries.length extension with
  | none => .ok (entries.map fun _ => none)
  | some items => items.mapM itemText?

/-- Gives members names and descriptions; where there is none, nothing changes. -/
def rename (entries : List EnumEntry) (names descriptions : List (Option String)) :
    List EnumEntry :=
  (entries.zip (names.zip descriptions)).map fun (entry, name, description) =>
    { entry with
      name := name.getD entry.name
      description := description <|> entry.description }

/-- Applies the extensions of a schema for member names and descriptions. -/
def extend (entries : List EnumEntry) (names descriptions : Node) :
    Except Fault (List EnumEntry) := do
  return rename entries (← extensionTexts entries names) (← extensionTexts entries descriptions)

/-- The word and the digits of one item `word=digits`. -/
def pair? (s : List Char) : Option (List Char × List Char) :=
  let word := s.takeWhile Text.isWordChar
  match s.dropWhile Text.isWordChar with
  | '=' :: digits =>
    if word ≠ [] ∧ digits ≠ [] ∧ digits.all Char.isDigit then some (word, digits) else none
  | _ => none

def dropFinalComma (s : List Char) : List Char :=
  if s.getLast? = some ',' then s.dropLast else s

/-- The items of a description that consists of `word=digits` items and commas. -/
def pairs? (description : List Char) : Option (List (List Char × List Char)) :=
  (Text.splitOn ',' (dropFinalComma (Text.trim description))).mapM pair?

/-- An item with the number that its digits stand for; there may be too many of them. -/
def numbered (pair : List Char × List Char) : Except Fault (List Char × Nat) :=
  if pair.2.length ≤ Numeral.digitLimit then .ok (pair.1, Numeral.natOfDigits pair.2)
  else .error (.malformed .tooLong)

/-- Puts a pair into a list in increasing order of numbers, unless its number is there. -/
def insertPair (pair : List Char × Nat) : List (List Char × Nat) → List (List Char × Nat)
  | [] => [pair]
  | first :: rest =>
    if pair.2 < first.2 then pair :: first :: rest
    else if pair.2 = first.2 then first :: rest
    else first :: insertPair pair rest

/-- The members of a description of `Name=Number` pairs, by increasing number; the first name of a
number counts. -/
def ofDescription (description : String) : Except Fault (List EnumEntry) :=
  match pairs? description.toList with
  | none => .ok []
  | some pairs => (pairs.mapM numbered).map fun pairs =>
    (pairs.foldl (fun sorted pair => insertPair pair sorted) []).map fun (word, n) =>
      { name := memberName (String.ofList word), value := toString n, type := "number" }

/-- The values of a description's members as a union, in parentheses if asked and if there are
several. -/
def unionOfDescription? (description : String) (parenthesize : Bool) :
    Except Fault (Option String) :=
  (ofDescription description).map fun entries =>
    if entries = [] then none
    else
      let union := " | ".intercalate (entries.map (·.value))
      some (if parenthesize ∧ entries.length > 1 then "(" ++ union ++ ")" else union)

end EnumEntry

end ClientGen
