import ClientGen.Code.Core.Request
import ClientGen.Code.Core.Types
import ClientGen.Code.Layout
import ClientGen.Code.ServiceFile

/-! The source files of a client. -/

namespace ClientGen

/-- A name that the index exports. -/
structure Export where
  name : String
  file : String
  isValue : Bool := true
deriving DecidableEq, Repr, Inhabited

namespace Export

def line (e : Export) : String :=
  "export " ++ (if e.isValue then "" else "type ") ++ Code.braced (" " ++ e.name ++ " ") ++
    " from './" ++ e.file ++ "';"

def ofCore (language : Language) : List Export :=
  [⟨"ApiError", "core/ApiError", true⟩, ⟨"OpenAPI", "core/OpenAPI", true⟩] ++
    Code.choose language [⟨"OpenAPIConfig", "core/OpenAPI", false⟩] []

/-- The exports of models; JavaScript exports values only. -/
def ofModels (options : Options) (models : List Model) : List Export :=
  let exports := models.map fun m =>
    (⟨m.name, "models/" ++ m.name, m.exportsValue options.useUnionTypes⟩ : Export)
  Code.choose options.language exports (exports.filter (·.isValue))

def ofServices (services : List Service) : List Export :=
  services.map fun s => ⟨s.name, "services/" ++ s.name, true⟩

def groups (client : Client) (options : Options) : List (List Export) :=
  [if options.exportCore then ofCore options.language else [],
    if options.exportModels then ofModels options client.models else [],
    if options.exportServices then ofServices client.services else []]

end Export

/-- A source file: its path below the folder of the client, and its text. -/
structure SourceFile where
  path : String
  text : String
deriving DecidableEq, Repr, Inhabited

namespace SourceFile

def ofLines (options : Options) (name : String) (lines : List String) : SourceFile :=
  { path := name ++ options.language.extension
    text := String.ofList
      (Layout.format options.indent (lines.flatMap fun line => line.toList ++ ['\n'])) }

def ofCore (client : Client) (options : Options) : List SourceFile :=
  let language := options.language
  let file (name : String) (lines : List String) := ofLines options ("core/" ++ name) lines
  [file "OpenAPI" (Code.Core.settings language client.server client.version),
    file "ApiError" (Code.Core.apiError language),
    file "ApiRequestOptions" (Code.Core.requestOptions language),
    file "ApiResult" (Code.Core.apiResult language),
    file "Dictionary" (Code.Core.dictionary language),
    file "request" (Code.Core.request language options.transport)]

def ofModels (client : Client) (options : Options) : List SourceFile :=
  client.models.map fun m =>
    ofLines options ("models/" ++ m.name) (Code.modelFile options.language m options.useUnionTypes)

def ofServices (client : Client) (options : Options) : List SourceFile :=
  client.services.map fun s => ofLines options ("services/" ++ s.name) (Code.serviceFile s options)

/-- The index: the groups of exports, apart from each other. -/
def index (client : Client) (options : Options) : SourceFile :=
  ofLines options "index" (List.intercalate [""]
    ((Export.groups client options).map fun group => group.map Export.line))

/-- The templates of the core files: the one of each file, and then those it includes. -/
def coreTemplates (transport : Transport) : List (List String) :=
  let request :=
    match transport with
    | .fetch => "core/requestUsingFetch.j2"
    | .xhr => "core/requestUsingXHR.j2"
  [["core/OpenAPI.j2"], ["core/ApiError.j2"], ["core/ApiRequestOptions.j2"],
    ["core/ApiResult.j2"], ["core/Dictionary.j2"], [request, "core/functions.j2"]]

/-- The templates of a service; that of the parameters is included in each operation. -/
def serviceTemplates (s : Service) : List String :=
  if s.operations.isEmpty then ["service.j2"] else ["service.j2", "parameters.j2"]

end SourceFile

/-- The source files of a client in the order in which they are written. -/
def Client.sourceFiles (client : Client) (options : Options) : List SourceFile :=
  (if options.exportCore then SourceFile.ofCore client options else []) ++
  (if options.exportModels then SourceFile.ofModels client options else []) ++
  (if options.exportServices then SourceFile.ofServices client options else []) ++
  [SourceFile.index client options]

/-- The templates of the source files, in the same order. -/
def Client.templates (client : Client) (options : Options) : List (List String) :=
  (if options.exportCore then SourceFile.coreTemplates options.transport else []) ++
  (if options.exportModels then client.models.map fun _ => ["model.j2"] else []) ++
  (if options.exportServices then client.services.map SourceFile.serviceTemplates else []) ++
  [["index.j2"]]

/-- A file that cannot be rendered from its template, because a template is missing. -/
structure RenderError where
  path : String
  template : String
  missing : String
deriving DecidableEq, Repr

/-- Renders a file, if its templates are there. -/
def SourceFile.render (language : Language) (missingTemplates : List String) (file : SourceFile)
    (templates : List String) : Except RenderError SourceFile :=
  match templates.find? fun t => missingTemplates.contains (language.name ++ "/" ++ t) with
  | some missing => .error ⟨file.path, templates.headD "", missing⟩
  | none => .ok file

/-- Renders the source files of a client in order, up to the first that cannot be rendered. -/
def Client.render (client : Client) (options : Options) (missingTemplates : List String) :
    Except RenderError (List SourceFile) :=
  ((client.sourceFiles options).zip (client.templates options)).mapM fun (file, templates) =>
    file.render options.language missingTemplates templates

end ClientGen
