import ClientGen.Checked

/-! Options of the generated code. -/

namespace ClientGen

/-- The language of the generated code. -/
inductive Language where
  | typescript
  | javascript
deriving DecidableEq, Repr, Inhabited

/-- What the generated code sends requests with. -/
inductive Transport where
  | fetch
  | xhr
deriving DecidableEq, Repr, Inhabited

/-- How generated lines are indented. -/
inductive Indent where
  | spaces4
  | spaces2
  | tab
deriving DecidableEq, Repr, Inhabited

def Language.name : Language → String
  | .typescript => "typescript"
  | .javascript => "javascript"

/-- The ending of source files. -/
def Language.extension : Language → String
  | .typescript => ".ts"
  | .javascript => ".js"

def Transport.name : Transport → String
  | .fetch => "fetch"
  | .xhr => "xhr"

def Indent.name : Indent → String
  | .spaces4 => "4"
  | .spaces2 => "2"
  | .tab => "tab"

def Language.words : List (String × Language) :=
  [.typescript, .javascript].map fun l => (Language.name l, l)

def Transport.words : List (String × Transport) :=
  [.fetch, .xhr].map fun t => (Transport.name t, t)

def Indent.words : List (String × Indent) :=
  [.spaces4, .spaces2, .tab].map fun i => (Indent.name i, i)

/-- Options of the generated code. -/
structure Options where
  language : Language := .typescript
  transport : Transport := .fetch
  useUnionTypes : Bool := false
  useOptions : Bool := false
  indent : Indent := .spaces4
  exportCore : Bool := true
  exportModels : Bool := true
  exportServices : Bool := true
deriving DecidableEq, Repr, Inhabited

namespace Options

/-- Reads options from a record; fields that are not given keep their defaults. -/
def ofNode : FieldReader Options :=
  .record (fun es => do
    pure {
      language := ← FieldReader.field es "language" (.oneOf Language.words .typescript) .typescript
      transport := ← FieldReader.field es "http_client" (.oneOf Transport.words .fetch) .fetch
      useUnionTypes := ← FieldReader.field es "use_union_types" .truth false
      useOptions := ← FieldReader.field es "use_options" .truth false
      indent := ← FieldReader.field es "indent" (.oneOf Indent.words .spaces4) .spaces4
      exportCore := ← FieldReader.field es "export_core" .truth true
      exportModels := ← FieldReader.field es "export_models" .truth true
      exportServices := ← FieldReader.field es "export_services" .truth true }) {}

def fields (o : Options) : Entries :=
  [(.str "language", .str o.language.name), (.str "http_client", .str o.transport.name),
    (.str "use_union_types", .bool o.useUnionTypes), (.str "use_options", .bool o.useOptions),
    (.str "indent", .str o.indent.name), (.str "export_core", .bool o.exportCore),
    (.str "export_models", .bool o.exportModels),
    (.str "export_services", .bool o.exportServices)]

end Options

end ClientGen
