import ClientGen.Document.Json.Writer
import ClientGen.Number.Reader

/-! The default value of a schema as a literal of generated code. -/

namespace ClientGen

/-- A text in single quotes; quotes and backslashes inside are escaped by a backslash. -/
def singleQuoted (s : String) : String :=
  let escape (c : Char) : List Char := if c = '\\' ∨ c = '\'' then ['\\', c] else [c]
  String.ofList ('\'' :: (s.toList.flatMap escape ++ ['\'']))

namespace DefaultLiteral

def numberKeywords : List String := ["int", "integer", "long", "short", "float", "double", "number"]

/-- Whether a type keyword stands for numbers; a collection is no keyword at all. -/
def isNumberKeyword (kind : Node) : Except Fault Bool :=
  match kind with
  | .scalar (.str s) => .ok (numberKeywords.contains s)
  | .scalar _ => .ok false
  | _ => .error (.malformed .wrongKind)

/-- The text of a number; an integral one is written without a point. -/
def numberText (x : Double) : String :=
  match x.toInt? with
  | some i => toString i
  | none => x.text

def json (indent : Option Nat) (value : Node) : Except Fault String :=
  Json.write ⟨indent, true⟩ value

/-- The literal of a default for a number: a text that reads as a number counts as that number. -/
def ofNumeric (value : Node) : Except Fault String :=
  match value with
  | .int i => (Node.int i).shown
  | .float x => .ok x.text
  | .str s =>
    match Numeral.double? s.toList with
    | some x => .ok (numberText x)
    | none => json none value
  | _ => json none value

/-- The literal of any other default: texts in quotes, collections as JSON text. -/
def ofValue (value : Node) : Except Fault String :=
  match value with
  | .str s => .ok (singleQuoted s)
  | .bool b => .ok (if b then "true" else "false")
  | .int i => (Node.int i).shown
  | .float x => .ok x.text
  | _ => json (some 4) value

/-- The literal of the default of a schema; a default of nothing is the literal `null`. -/
def ofSchema (schema : Node) : Except Fault (Option String) := do
  if !(← schema.mentions "default") then return none
  let value ← schema.required "default"
  match value with
  | .null => return some "null"
  | _ =>
    let numeric ← isNumberKeyword (← schema.member "type")
    match numeric, value with
    | true, .bool _ => return some (← ofValue value)
    | true, _ => return some (← ofNumeric value)
    | false, _ => return some (← ofValue value)

end DefaultLiteral

end ClientGen
