import ClientGen.Api.Client
import ClientGen.Schema.ModelRecord

/-! Reading clients and their parts from records of fields. -/

namespace ClientGen

/-- A field under one of two names; the first one counts. -/
def FieldReader.mandatoryAlias {α : Type} (es : Entries) (name other : String)
    (reader : FieldReader α) (filler : α) : Checked α :=
  match es.get? name, es.get? other with
  | none, some node => (reader node).within other
  | _, _ => FieldReader.mandatory es name reader filler

def Parameter.ofNode : FieldReader Parameter :=
  .record (fun es =>
    let read : Checked Parameter := do
      let model ← Model.ofFields es
      let location ←
        FieldReader.mandatoryAlias es "in" "in_" (.oneOf Location.words .path) .path
      let wireName ← FieldReader.mandatory es "prop" .text ""
      let mediaType ← FieldReader.field es "media_type" (.optional .text) none
      pure { model, location, wireName, mediaType }
    read.ensure (·.model.isShapely) (·.model.shapeMessage)) default

def Response.ofNode : FieldReader Response :=
  .record (fun es =>
    let read : Checked Response := do
      let model ← Model.ofFields es
      let code ← FieldReader.field es "code" (.optional .integer) none
      pure { model, code }
    read.ensure (·.model.isShapely) (·.model.shapeMessage)) default

/-- Reads the code of an error: a word as it is, anything else as a number. -/
def ErrorCode.ofNode : FieldReader ErrorCode
  | .str s => pure (.word s)
  | node =>
    let number := FieldReader.integer node
    if number.issues.isEmpty then pure (.status number.value)
    else do
      let code ← number.within "int"
      let _ ← (Checked.issue .notText ()).within "str"
      pure (.status code)

def ErrorResponse.ofNode : FieldReader ErrorResponse :=
  .record (fun es => do
    pure {
      code := ← FieldReader.mandatory es "code" ErrorCode.ofNode default
      description := ← FieldReader.mandatory es "description" .text "" }) default

def Operation.ofNode : FieldReader Operation :=
  .record (fun es => do
    pure {
      service := ← FieldReader.mandatory es "service" .text ""
      name := ← FieldReader.mandatory es "name" .text ""
      summary := ← FieldReader.field es "summary" (.optional .text) none
      description := ← FieldReader.field es "description" (.optional .text) none
      deprecated := ← FieldReader.field es "deprecated" .truth false
      method := ← FieldReader.mandatory es "method" (.oneOf HttpMethod.words .get) .get
      path := ← FieldReader.mandatory es "path" .text ""
      parameters := ← FieldReader.field es "parameters" (.list Parameter.ofNode) []
      imports := distinct (← FieldReader.field es "imports" .texts [])
      results := ← FieldReader.field es "results" (.list Response.ofNode) []
      errors := ← FieldReader.field es "errors" (.list ErrorResponse.ofNode) [] }) default

def Service.ofNode : FieldReader Service :=
  .record (fun es => do
    pure {
      name := ← FieldReader.mandatory es "name" .text ""
      operations := ← FieldReader.field es "operations" (.list Operation.ofNode) []
      imports := distinct (← FieldReader.field es "imports" .texts []) }) default

def Client.namesModelsOnce (client : Client) : Bool :=
  let names := client.models.map (·.name)
  (distinct names).length == names.length

def Client.ofNode : FieldReader Client :=
  .record (fun es =>
    let read : Checked Client := do
      pure {
        server := ← FieldReader.field es "server" .text ""
        version := ← FieldReader.field es "version" .text "1.0"
        models := ← FieldReader.field es "models" (.list Model.ofNode) []
        services := ← FieldReader.field es "services" (.list Service.ofNode) [] }
    read.ensure Client.namesModelsOnce
      fun _ => "Value error, Client models must have unique names") default

end ClientGen
