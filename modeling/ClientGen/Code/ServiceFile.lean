import ClientGen.Code.ModelFile

/-! Files that declare the service classes of a client. -/

namespace ClientGen.Code

/-- A text in single quotes as it is. -/
def quoted (s : String) : String := "'" ++ s ++ "'"

/-- Arguments by their names on the wire, as an object under a key, if there are any. -/
def argumentObject (key : String) (parameters : List Parameter) : List String :=
  if parameters.isEmpty then []
  else closed (key ++ ": ") (parameters.map fun p => quoted p.wireName ++ ": " ++ p.name ++ ",") ","

/-- The form of a request: one argument with a media type is the form itself. -/
def formArgument (parameters : List Parameter) : List String :=
  match parameters with
  | [p] =>
    if (p.mediaType.getD "") = "" then argumentObject "formData" [p]
    else ["formData: " ++ p.name ++ ","]
  | _ => argumentObject "formData" parameters

/-- The body of a request and its media type. -/
def bodyArgument (parameters : List Parameter) : List String :=
  match parameters with
  | [] => []
  | p :: _ =>
    ("body: " ++ p.name ++ ",") ::
      match p.mediaType with
      | none | some "" => []
      | some mediaType => ["mediaType: " ++ quoted mediaType ++ ","]

/-- The messages of the documented errors, without that of the default response. -/
def errorArgument (errors : List ErrorResponse) : List String :=
  let lines := errors.filterMap fun e =>
    let line (code : String) := code ++ ": `" ++ Naming.templateText e.description ++ "`,"
    match e.code with
    | .status code => some (line (toString code))
    | .word "default" => none
    | .word word => some (line word)
  if lines.isEmpty then [] else closed "errors: " lines ","

/-- What a method hands to the request function. -/
def requestArguments (op : Operation) : List String :=
  ["method: " ++ quoted op.method.verb ++ ",", "url: " ++ quoted op.path ++ ","] ++
  argumentObject "path" (op.located .path) ++ argumentObject "cookies" (op.located .cookie) ++
  argumentObject "headers" (op.located .header) ++ argumentObject "query" (op.located .query) ++
  formArgument (op.located .formData) ++ bodyArgument (op.located .body) ++
  errorArgument op.errors

def methodBody (op : Operation) : List String :=
  closed "const result = await __request(" (requestArguments op) ");" ++ ["return result.body;"]

def defaultText (p : Parameter) : String :=
  match p.model.defaultValue with
  | some value => " = " ++ value.display
  | none => ""

/-- Whether a call must give a parameter. -/
def isMandatory (p : Parameter) : Bool :=
  p.model.isRequired && !(p.model.defaultValue.any Node.isPresent)

/-- The default of an object of arguments: a call may leave it out if no argument is mandatory. -/
def optionsDefault (parameters : List Parameter) : String :=
  if parameters.any isMandatory then "" else " = " ++ braced ""

/-- The start of a method's comment: what the operation says of itself. -/
def methodRemarks (op : Operation) : List String :=
  (if op.deprecated then ["@deprecated"] else []) ++ linesOf (op.summary.getD "") ++
    linesOf (op.description.getD "")

def resultRemark (op : Operation) : String :=
  match op.results with
  | [] => ""
  | r :: _ => remark r.model.description

def returnType (op : Operation) (union : Bool) : String :=
  resultType (op.results.map (·.model)) union

def importRequest : String :=
  "import " ++ braced " request as __request " ++ " from '../core/request';"

def classLines (s : Service) (method : Operation → List String) : List String :=
  block ("export class " ++ s.name) (s.operations.flatMap fun op => "" :: method op)

namespace TypeScript

def methodComment (op : Operation) (union : Bool) : List String :=
  comment (methodRemarks op ++
    (op.parameters.map fun p => "@param " ++ p.name ++ remark p.model.description) ++
    ["@returns " ++ returnType op union ++ resultRemark op, "@throws ApiError"])

def methodHead (op : Operation) (options : Options) : List String :=
  let union := options.useUnionTypes
  let head := "public static async " ++ op.name ++ "("
  let result := "): Promise<" ++ returnType op union ++ "> \x7b"
  if op.parameters.isEmpty then [head ++ result]
  else if options.useOptions then
    closed head (op.parameters.map fun p => p.name ++ defaultText p ++ ",") ": \x7b" ++
    (op.parameters.map fun p =>
      let mark := if p.model.isRequired && p.model.defaultValue.isNone then "" else "?"
      p.name ++ mark ++ ": " ++ p.model.typeExpression none union ++ ",") ++
    ["\x7d" ++ optionsDefault op.parameters ++ result]
  else
    [head] ++ ((Parameter.signatureOrder op.parameters).map fun p => p.signature union ++ ",") ++
      [result]

def method (options : Options) (op : Operation) : List String :=
  methodComment op options.useUnionTypes ++ methodHead op options ++ methodBody op ++ ["\x7d"]

def serviceImport (name : String) : String :=
  if name = TypeExpr.dictionary then importDictionary else importType name ("../models/" ++ name)

def serviceFile (s : Service) (options : Options) : List String :=
  s.imports.map serviceImport ++ [importRequest, ""] ++ classLines s (method options)

end TypeScript

namespace JavaScript

/-- A parameter in a comment, where one that a call may leave out stands in square brackets. -/
def parameterRemark (options : Options) (p : Parameter) : String :=
  let label := if options.useOptions then "options." ++ p.name else p.name
  let shown :=
    if p.model.isRequired && p.model.defaultValue.isNone then label else "[" ++ label ++ "]"
  "@param " ++ braced (p.model.typeExpression none options.useUnionTypes) ++ " " ++ shown ++
    remark p.model.description

def methodComment (op : Operation) (options : Options) : List String :=
  let parameters :=
    if options.useOptions then op.parameters else Parameter.signatureOrder op.parameters
  comment (methodRemarks op ++
    (if options.useOptions && !op.parameters.isEmpty then
      ["@param " ++ braced "Object" ++ " options"] else []) ++
    parameters.map (parameterRemark options) ++
    ["@returns " ++ braced ("Promise<" ++ returnType op options.useUnionTypes ++ ">") ++
      resultRemark op, "@throws ApiError"])

def methodHead (op : Operation) (options : Options) : List String :=
  let head := "static async " ++ op.name ++ "("
  let lines (parameters : List Parameter) := parameters.map fun p => p.name ++ defaultText p ++ ","
  if op.parameters.isEmpty then [head ++ ") \x7b"]
  else if options.useOptions then
    closed head (lines op.parameters) (optionsDefault op.parameters ++ ") \x7b")
  else [head] ++ lines (Parameter.signatureOrder op.parameters) ++ [") \x7b"]

def method (options : Options) (op : Operation) : List String :=
  methodComment op options ++ methodHead op options ++ methodBody op ++ ["\x7d"]

def serviceFile (s : Service) (options : Options) : List String :=
  [importRequest, ""] ++ classLines s (method options)

end JavaScript

def serviceFile (s : Service) (options : Options) : List String :=
  match options.language with
  | .typescript => TypeScript.serviceFile s options
  | .javascript => JavaScript.serviceFile s options

end ClientGen.Code
