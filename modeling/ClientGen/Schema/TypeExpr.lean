import ClientGen.Naming

/-! Type expressions of generated code, read from type keywords and references. -/

namespace ClientGen

/-- Drops repeated items and keeps the first of each. -/
def distinct : List String → List String := go []
where
  /-- Goes on after the items `seen`. -/
  go (seen : List String) : List String → List String
    | [] => []
    | x :: rest => if x ∈ seen then go seen rest else x :: go (x :: seen) rest

/-- A type as generated code writes it: `text` is the whole expression, `base` the type inside an
array or the name before type arguments, and `imports` are the named types it mentions. -/
structure TypeExpr where
  text : String := "any"
  base : String := "any"
  template : Option String := none
  imports : List String := []
deriving DecidableEq, Repr, Inhabited

namespace TypeExpr

def keywords : List (String × String) :=
  [("File", "File"), ("file", "File"), ("any", "any"), ("object", "any"), ("array", "any[]"),
    ("boolean", "boolean"), ("byte", "string"), ("int", "number"), ("integer", "number"),
    ("long", "number"), ("short", "number"), ("float", "number"), ("double", "number"),
    ("number", "number"), ("char", "string"), ("date", "string"), ("date-time", "string"),
    ("password", "string"), ("binary", "string"), ("string", "string"), ("void", "void"),
    ("null", "null")]

/-- Types that need no import. -/
def builtIns : List String := ["any", "boolean", "number", "string", "File", "void", "null"]

/-- Names that the runtime of a generated client uses. -/
def reserved : List String :=
  ["ApiError", "ApiRequestOptions", "ApiResult", "Array", "Blob", "Dictionary", "File", "OpenAPI",
    "Promise", "Record"]

/-- The container that stands for maps with text keys. -/
def dictionary : String := "Dictionary"

def ofKeyword? (keyword : String) : Option String := keywords.lookup keyword

/-- Whether a text is a reference rather than a keyword. -/
def isReference (s : String) : Bool := s.toList.head? == some '#' || s.toList.contains '/'

/-- What follows the last slash of a text. -/
def lastSegment (s : List Char) : List Char := (s.reverse.takeWhile (· != '/')).reverse

/-- The text after the last slash before any bracket, without surrounding white space. -/
def stripNamespaceChars (s : List Char) : List Char :=
  let s := Text.trim s
  lastSegment (s.takeWhile (· != '[')) ++ s.dropWhile (· != '[')

/-- The text after the last slash before any bracket. -/
def stripNamespace (s : String) : String := String.ofList (stripNamespaceChars s.toList)

/-- The type name of the last segment of a reference: Pascal case, not led by a digit, and not one
of the reserved names; a segment without letters and digits names no type. -/
def nameOfReference (ref : String) : String :=
  let name := Naming.pascalCase (stripNamespace ref)
  if name = "" then "any"
  else
    let name := if (name.toList.headD ' ').isDigit then "_" ++ name else name
    if name ∈ reserved then "Model" ++ name else name

/-- A type that is one name, imported unless it is `any`. -/
def named (expression : String) : TypeExpr :=
  let name := nameOfReference expression
  if name = "any" then {} else { text := name, base := name, imports := [name] }

/-- The type of a word: a keyword, else a type name if the word comes from a reference. -/
def ofWord (fromReference : Bool) (word : String) : TypeExpr :=
  match ofKeyword? word with
  | some "any[]" => { text := "any[]", base := "any" }
  | some type => { text := type, base := type }
  | none => if fromReference ∧ word ≠ "" then named word else {}

def arrayOf (items : TypeExpr) : TypeExpr :=
  { items with text := items.text ++ "[]", imports := distinct items.imports }

def dictionaryOf (value : TypeExpr) : TypeExpr :=
  { text := dictionary ++ "<" ++ value.text ++ ">", base := dictionary, template := some value.base,
    imports := distinct (value.imports ++ [dictionary]) }

/-- A type applied to a type argument; `array` makes an array of it. -/
def apply (head argument : TypeExpr) : TypeExpr :=
  if head.text = "any[]" then arrayOf argument
  else if argument.text = "" then head
  else
    { text := head.text ++ "<" ++ argument.text ++ ">", base := head.text,
      template := some argument.text, imports := distinct (head.imports ++ argument.imports) }

/-- Splits `head[argument]` at the first bracket; both parts are on one line. -/
def splitApplication? (s : List Char) : Option (List Char × List Char) :=
  match s.dropWhile (· != '[') with
  | '[' :: inner =>
    if inner.getLast? = some ']' ∧ '\n' ∉ s then some (s.takeWhile (· != '['), inner.dropLast)
    else none
  | _ => none

theorem length_of_splitApplication? {s head argument : List Char}
    (h : splitApplication? s = some (head, argument)) : argument.length < s.length := by
  unfold splitApplication? at h
  split at h
  · next inner heq =>
    split at h
    · have hle := (s.dropWhile_sublist (· != '[')).length_le
      simp only [heq, List.length_cons] at hle
      simp only [Option.some.injEq, Prod.mk.injEq] at h
      rw [← h.2, List.length_dropLast]
      omega
    · exact nomatch h
  · exact nomatch h

/-- Reads an expression of words and type arguments in brackets. -/
def ofChars (fromReference : Bool) (s : List Char) : TypeExpr :=
  match _h : splitApplication? s with
  | some (head, argument) =>
    apply (ofWord fromReference (String.ofList head)) (ofChars fromReference argument)
  | none => ofWord fromReference (String.ofList s)
termination_by s.length
decreasing_by exact length_of_splitApplication? _h

/-- Reads a keyword, a reference or an expression with type arguments. A reference without type
arguments always names a schema, even where its name is a keyword. -/
def ofText (s : String) : TypeExpr :=
  let clean := Text.trim s.toList
  if isReference (String.ofList clean) then
    let expression := stripNamespaceChars clean
    if (splitApplication? expression).isNone ∧ expression ≠ [] then
      named (String.ofList expression)
    else ofChars true expression
  else ofChars false clean

/-- Reads a type inside a generic declaration, whose parameter is written `T`. -/
def ofTextWithin (template : String) (s : String) : TypeExpr :=
  let type := ofText s
  if type.text = template then { text := "T", base := "T" } else type

end TypeExpr

end ClientGen
