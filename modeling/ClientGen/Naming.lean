import ClientGen.Text.Replace
import ClientGen.Text.Space
import ClientGen.Text.WordChar

/-! Names of generated code, made from names and descriptions of an API document. -/

namespace ClientGen.Naming

/-- Characters of a word in a name: ASCII letters and digits. -/
def isNameChar (c : Char) : Bool := c.isAlphanum

/-- Words of a text whose current word has the reversed characters `current`. -/
def wordsFrom (current : List Char) : List Char → List (List Char)
  | [] => if current.isEmpty then [] else [current.reverse]
  | c :: rest =>
    if isNameChar c then wordsFrom (c :: current) rest
    else if current.isEmpty then wordsFrom [] rest
    else current.reverse :: wordsFrom [] rest

/-- The maximal runs of ASCII letters and digits. -/
def words (s : List Char) : List (List Char) := wordsFrom [] s

/-- A word with a capital and without a small letter. -/
def isShouted (word : List Char) : Bool := word.any Char.isUpper && !word.any Char.isLower

/-- Makes the first letter a capital and keeps the others. -/
def upperFirst : List Char → List Char
  | [] => []
  | c :: rest => c.toUpper :: rest

/-- Makes the first letter small and keeps the others. -/
def lowerFirst : List Char → List Char
  | [] => []
  | c :: rest => c.toLower :: rest

/-- Makes the first letter a capital and the others small. -/
def capitalize : List Char → List Char
  | [] => []
  | c :: rest => c.toUpper :: rest.map Char.toLower

/-- The first word of a camel-case name: a shouted word becomes small. -/
def camelHead (word : List Char) : List Char :=
  if isShouted word then word.map Char.toLower else lowerFirst word

/-- A later word of a camel-case name: a shouted word keeps only its first capital. -/
def camelTail (word : List Char) : List Char :=
  if isShouted word then capitalize word else upperFirst word

/-- The words of a text in camel case. -/
def camelChars (s : List Char) : List Char :=
  match words s with
  | [] => []
  | first :: rest => camelHead first ++ rest.flatMap camelTail

/-- The words of a text in Pascal case, where shouted words stay as they are. -/
def pascalChars (s : List Char) : List Char := (words s).flatMap upperFirst

/-- Camel case, as in `xRequestId`. -/
def camelCase (s : String) : String := String.ofList (camelChars s.toList)

/-- Pascal case, as in `PetStore` and `HTTPError`. -/
def pascalCase (s : String) : String := String.ofList (pascalChars s.toList)

/-- Characters of a member's text that stay; they are words of any script and dashes. -/
def isMemberPart (c : Char) : Bool := Text.isWordChar c || c == '-'

/-- Characters of a tag that stay; white space is among them. -/
def isTagPart (c : Char) : Bool := Text.isWordChar c || Text.isSpace c || c == '-'

/-- The camel-case name of a text from its first ASCII letter on, with a dash for all that stands
between words of any script. -/
def memberName (s : String) : String :=
  let start := s.toList.dropWhile fun c => !c.isAlpha
  String.ofList (camelChars (Text.trim (Text.markGaps isMemberPart '-' false start)))

/-- The name of a method, from an operation's identifier or from its method and path. -/
def operationName (s : String) : String := memberName s

/-- The name of an argument, from the name of a parameter on the wire. -/
def parameterName (s : String) : String := memberName s

/-- The name of the class for a tag: Pascal case that ends in `Service` once. -/
def serviceClassName (s : String) : String :=
  let name := pascalChars (Text.trim (Text.markGaps isTagPart '_' false s.toList))
  if name ≠ [] ∧ ¬ "Service".toList.isSuffixOf name then String.ofList name ++ "Service"
  else String.ofList name

def isBareStart (c : Char) : Bool := c.isAlpha || c == '_' || c == '$'

/-- A character that may follow in a bare property name. -/
def isBarePart (c : Char) : Bool := Text.isWordChar c || c == '$'

/-- A property name that needs no quotes; one line feed at the end does not count. -/
def isBareName : List Char → Bool
  | [] => false
  | c :: rest =>
    isBareStart c &&
      (rest.all isBarePart || (rest.getLast? == some '\n' && rest.dropLast.all isBarePart))

/-- Puts a property name in single quotes unless it needs none. -/
def propertyKey (s : String) : String :=
  if s = "" ∨ isBareName s.toList then s else "'" ++ s ++ "'"

/-- The body of a template literal that denotes a text: backslashes, backticks and placeholders are
escaped. -/
def templateBody : List Char → List Char
  | [] => []
  | '$' :: '\x7b' :: rest => '\\' :: '$' :: '\x7b' :: templateBody rest
  | c :: rest =>
    if c = '\\' ∨ c = '\x60' then '\\' :: c :: templateBody rest else c :: templateBody rest

def templateText (s : String) : String := String.ofList (templateBody s.toList)

/-- Breaks every comment end by a backslash. -/
def breakCommentEnds : List Char → List Char
  | [] => []
  | '*' :: '/' :: rest => '*' :: '\\' :: '/' :: breakCommentEnds rest
  | c :: rest => c :: breakCommentEnds rest

/-- A description fit for a block comment; a blank one is none. -/
def comment (s : String) : Option String :=
  match Text.trim (breakCommentEnds s.toList) with
  | [] => none
  | text => some (String.ofList text)

end ClientGen.Naming
