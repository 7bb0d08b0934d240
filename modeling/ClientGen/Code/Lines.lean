import ClientGen.Options
import ClientGen.Text.Replace
import ClientGen.Text.Space

/-! Lines of generated code. They carry no indentation, which the layout adds from their
brackets. -/

namespace ClientGen.Code

/-- Lines in braces after a head, with a text after the last brace. -/
def closed (head : String) (body : List String) (tail : String) : List String :=
  (head ++ "\x7b") :: body ++ ["\x7d" ++ tail]

/-- Lines in braces after a head and a blank. -/
def block (head : String) (body : List String) : List String := closed (head ++ " ") body ""

/-- Alternatives, each in braces after its head. -/
def chain (head : String) (body : List String) (others : List (String × List String)) :
    List String :=
  (head ++ " \x7b") :: body ++
    others.flatMap (fun (head, body) => ("\x7d " ++ head ++ " \x7b") :: body) ++ ["\x7d"]

def braced (text : String) : String := "\x7b" ++ text ++ "\x7d"

/-- A placeholder of a template literal. -/
def placeholder (expression : String) : String := "$" ++ braced expression

def comment (lines : List String) : List String :=
  "/**" :: lines.map (" * " ++ ·) ++ [" */"]

def linesOf (text : String) : List String := (Text.lines text.toList).map String.ofList

/-- A block comment of a description, where there is one. -/
def description : Option String → List String
  | none | some "" => []
  | some text => comment (linesOf text)

/-- A description behind a blank on the same line, where there is one. -/
def remark : Option String → String
  | none | some "" => ""
  | some text => " " ++ String.ofList (Text.replaceAll ['\n'] [' '] text.toList)

/-- The form of a text in each language. -/
def choose {α : Type} (language : Language) (typescript javascript : α) : α :=
  match language with
  | .typescript => typescript
  | .javascript => javascript

/-- A name with its type, which only TypeScript writes. -/
def typed (language : Language) (name type : String) : String :=
  choose language (name ++ ": " ++ type) name

def functionHead (language : Language) (name : String) (parameters : List (String × String))
    (result : String) : String :=
  let written := parameters.map fun (name, type) => typed language name type
  "function " ++ typed language (name ++ "(" ++ ", ".intercalate written ++ ")") result

end ClientGen.Code
