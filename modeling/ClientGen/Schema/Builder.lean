import ClientGen.Schema.DefaultLiteral
import ClientGen.Schema.Dialect

/-! Building models from schemas. -/

namespace ClientGen

/-- What a schema says of its model whatever the shape. A name that is no text is refused when the
model is made. -/
structure Outline where
  name : Option String
  isDefinition : Bool
  description : Option String
  isReadOnly : Bool
  isNullable : Bool
  defaultValue : Option String
  constraints : Entries

namespace Outline

/-- Reads what a schema says of its model. -/
def ofSchema (dialect : Dialect) (isDefinition : Bool) (name : Option String) (schema : Node) :
    Except Fault Outline := do
  return {
    name
    isDefinition
    description := ← (← schema.member "description").comment
    isReadOnly := (← schema.member "readOnly").isBool true
    isNullable := ← dialect.isNullable schema
    defaultValue := ← DefaultLiteral.ofSchema schema
    constraints := Constraints.fieldsOfSchema schema.entries }

def complete (outline : Outline) (m : Model) : Except Fault Model :=
  let constraints := Constraints.ofFields outline.constraints
  let nameIssues :=
    match outline.name with
    | some _ => []
    | none => [⟨["name"], .notText⟩]
  match nameIssues ++ constraints.issues with
  | [] =>
    .ok { m with
      name := outline.name.getD ""
      description := outline.description
      isDefinition := outline.isDefinition
      isReadOnly := outline.isReadOnly
      isNullable := outline.isNullable
      defaultValue := outline.defaultValue.map .str
      constraints := constraints.value }
  | issues => .error (.invalid issues)

end Outline

namespace Model

def ofMembers (base : String) (members : List EnumEntry) : Model :=
  { shape := .enum, type := { text := base, base := base }, members }

/-- The type of the members of an enumeration: numbers if all are. -/
def memberType (members : List EnumEntry) : String :=
  if !members.isEmpty && members.all (·.type == "number") then "number" else "string"

def ofProperties (properties : List Model) : Model :=
  { shape := .interface
    type := { imports := distinct (properties.flatMap imports) }
    enums := properties.filter (·.shape == .enum)
    properties }

def arrayOf (item : Model) : Model :=
  { shape := .array, type := item.type, link := some item }

/-- The type of a dictionary's values together with the import of the container. -/
def inDictionary (type : TypeExpr) : TypeExpr :=
  { type with imports := distinct (type.imports ++ [TypeExpr.dictionary]) }

def dictionaryOf (value : Model) : Model :=
  { shape := .dictionary, type := inDictionary value.type, link := some value }

end Model

/-- What the branches of a composition contribute. -/
structure Composition where
  parents : List String := []
  imports : List String := []
  properties : List Model := []

namespace Composition

/-- Adds what another part contributes. -/
def append (a b : Composition) : Composition :=
  ⟨a.parents ++ b.parents, a.imports ++ b.imports, a.properties ++ b.properties⟩

/-- A branch that names a schema. -/
def ofReference (type : TypeExpr) : Composition :=
  { parents := [type.base], imports := type.imports }

/-- A branch with a model of its own. In an intersection its properties become those of the
whole. -/
def ofBranch (shape : Shape) (branch : Model) : Composition :=
  if shape ≠ .allOf then { imports := branch.imports, properties := [branch] }
  else if !branch.properties.isEmpty then
    { imports := branch.imports, properties := branch.properties }
  else if branch.shape = .reference then
    { imports := branch.imports, parents := [branch.type.base] }
  else { imports := branch.imports }

/-- Properties beside the branches. -/
def ofProperties (properties : List Model) : Composition :=
  { imports := properties.flatMap Model.imports, properties }

def model (shape : Shape) (c : Composition) : Model :=
  { shape
    type := { imports := distinct c.imports }
    parents := distinct c.parents
    enums := c.properties.filter fun p => p.shape == .enum && p.name != ""
    properties := c.properties }

end Composition

namespace ApiDocument

/-- The keyword that tells the type: of a list of keywords the first that is not `null`. -/
def typeKeyword? (kind : Node) : Option String :=
  match kind with
  | .list items => (items.find? fun item => !Dialect.isText item "null").bind Node.text?
  | _ => kind.text?

/-- The type of a schema without any other shape. -/
def keywordType (kind : Node) : TypeExpr :=
  match typeKeyword? kind with
  | some keyword => TypeExpr.ofText keyword
  | none => {}

/-- The schema of the items, if a schema describes an array. -/
def arrayItems? (kind schema : Node) : Option Node :=
  if Dialect.isText kind "array" then (schema.get? "items").filter Node.isMap else none

def admitsDictionary : Node → Bool
  | .null => true
  | kind => Dialect.isText kind "object"

/-- The schema of the values, or `true` for any values, if a schema describes a dictionary. -/
def dictionaryValues? (kind schema : Node) : Option Node :=
  if admitsDictionary kind then
    (schema.get? "additionalProperties").filter fun node => node.isMap || node.isBool true
  else none

/-- The branches at a keyword, if there are any. -/
def branches? (schema : Node) (keyword : String) : Option (List Node) :=
  match schema.get? keyword with
  | some (.list (branch :: rest)) => some (branch :: rest)
  | _ => none

def composition? (dialect : Dialect) (schema : Node) : Option (Shape × List Node) :=
  dialect.compositions.findSome? fun (keyword, shape) =>
    (branches? schema keyword).map fun branches => (shape, branches)

def properties? (schema : Node) : Option Entries :=
  match schema.get? "properties" with
  | some (.map es) => some es
  | _ => none

def requiredKeys (schema : Node) : Except Fault (List Scalar) := do
  let items ← ((← schema.member "required").orElse (.list [])).walk
  items.mapM fun item =>
    match item with
    | .scalar key => .ok key
    | _ => .error (.malformed .wrongKind)

/-- Makes a model the property of a key: it is required if its key is or if it has a default. -/
def asProperty (required : List Scalar) (key : Scalar) (m : Model) : Model :=
  { m with
    name := key.text?.getD ""
    isDefinition := false
    isRequired := required.any (Scalar.sameKey key) || m.defaultValue.isSome }

/-- The members of the values that a schema lists, with the names and descriptions beside them. -/
def listedMembers (dialect : Dialect) (schema : Node) : Except Fault (List EnumEntry) := do
  if !(← dialect.hasEnum schema) then return []
  match ← schema.member "enum" with
  | .list values =>
    let entries ← EnumEntry.ofValues values
    EnumEntry.extend entries (← schema.member "x-enum-varnames")
      (← schema.member "x-enum-descriptions")
  | _ => return []

/-- The members that the description of a schema lists. -/
def describedMembers (dialect : Dialect) (schema : Node) : Except Fault (List EnumEntry) := do
  if !(← dialect.hasDescriptionEnum schema) then return []
  EnumEntry.ofDescription ((← schema.member "description").text?.getD "")

/-- The enumeration of a schema's values, listed or found in its description. -/
def enumModel? (dialect : Dialect) (schema : Node) : Except Fault (Option Model) := do
  let listed ← listedMembers dialect schema
  if !listed.isEmpty then return some (Model.ofMembers (Model.memberType listed) listed)
  let described ← describedMembers dialect schema
  if !described.isEmpty then return some (Model.ofMembers "number" described)
  return none

theorem sizeOf_arrayItems? {kind schema items : Node} (h : arrayItems? kind schema = some items) :
    sizeOf items < sizeOf schema := by
  unfold arrayItems? at h
  split at h
  · exact Node.sizeOf_lt_of_get? (Option.filter_eq_some_iff.1 h).1
  · exact nomatch h

theorem sizeOf_dictionaryValues? {kind schema values : Node}
    (h : dictionaryValues? kind schema = some values) : sizeOf values < sizeOf schema := by
  unfold dictionaryValues? at h
  split at h
  · exact Node.sizeOf_lt_of_get? (Option.filter_eq_some_iff.1 h).1
  · exact nomatch h

theorem sizeOf_properties? {schema : Node} {es : Entries} (h : properties? schema = some es) :
    sizeOf es < sizeOf schema := by
  unfold properties? at h
  split at h
  · next heq =>
    have hlt := Node.sizeOf_lt_of_get? heq
    simp only [Option.some.injEq] at h
    simp only [Node.map.sizeOf_spec, h] at hlt
    omega
  · exact nomatch h

theorem sizeOf_branches? {schema : Node} {keyword : String} {branches : List Node}
    (h : branches? schema keyword = some branches) : sizeOf branches < sizeOf schema := by
  unfold branches? at h
  split at h
  · next heq =>
    have hlt := Node.sizeOf_lt_of_get? heq
    simp only [Option.some.injEq] at h
    simp only [Node.list.sizeOf_spec, h] at hlt
    omega
  · exact nomatch h

theorem sizeOf_composition? {dialect : Dialect} {schema : Node} {shape : Shape}
    {branches : List Node} (h : composition? dialect schema = some (shape, branches)) :
    sizeOf branches < sizeOf schema := by
  obtain ⟨⟨keyword, s⟩, _, hb⟩ := List.exists_of_findSome?_eq_some h
  obtain ⟨bs, hbs, heq⟩ := Option.map_eq_some_iff.1 hb
  simp only [Prod.mk.injEq] at heq
  exact heq.2 ▸ sizeOf_branches? hbs

mutual

/-- Builds the model of a schema. The first shape that fits counts: reference, enumeration, array,
dictionary, composition, interface, plain type. The references in `pending` may still be expanded;
another reference that names no schema stands for any value. -/
def build (doc : ApiDocument) (pending : List String) (isDefinition : Bool) (name : Option String)
    (schema : Node) : Except Fault Model := do
  if !schema.isMap then
    let outline ← Outline.ofSchema doc.dialect isDefinition name (.map [])
    outline.complete { shape := .generic }
  else
    let outline ← Outline.ofSchema doc.dialect isDefinition name schema
    match Pointer.reference? schema with
    | some ref =>
      if doc.dialect.isSchemaRef ref then
        outline.complete { shape := .reference, type := ← doc.typeOfReference ref }
      else if _h : ref ∈ pending then
        build doc (pending.erase ref) isDefinition name (← doc.resolve ref)
      else outline.complete { shape := .generic }
    | none =>
      match ← enumModel? doc.dialect schema with
      | some m => outline.complete m
      | none => buildStructure doc pending outline schema
termination_by (pending.length, sizeOf schema, 1)
decreasing_by
  · refine Prod.Lex.left _ _ ?_
    rw [List.length_erase_of_mem _h]
    have := List.length_pos_of_mem _h
    omega
  · exact Prod.Lex.right _ (Prod.Lex.right _ Nat.zero_lt_one)

/-- Builds the model of a schema that is neither a reference nor an enumeration. -/
def buildStructure (doc : ApiDocument) (pending : List String) (outline : Outline)
    (schema : Node) : Except Fault Model := do
  let kind ← schema.member "type"
  match _hi : arrayItems? kind schema with
  | some items =>
    let (type, link) ← buildItem doc pending items
    outline.complete { shape := .array, type, link }
  | none =>
  match _hv : dictionaryValues? kind schema with
  | some values =>
    let (type, link) ← buildItem doc pending values
    outline.complete { shape := .dictionary, type := Model.inDictionary type, link }
  | none =>
  match _hc : composition? doc.dialect schema with
  | some (shape, branches) =>
    let parts ← buildBranches doc pending shape branches
    match _hp : properties? schema with
    | some es =>
      let own ← buildProperties doc pending (← requiredKeys schema) es
      outline.complete ((parts.append (.ofProperties own)).model shape)
    | none => outline.complete (parts.model shape)
  | none =>
  match _hp : properties? schema with
  | some es =>
    let properties ← buildProperties doc pending (← requiredKeys schema) es
    outline.complete (Model.ofProperties properties)
  | none => outline.complete { shape := .generic, type := keywordType kind }
termination_by (pending.length, sizeOf schema, 0)
decreasing_by
  · exact Prod.Lex.right _ (Prod.Lex.left _ _ (sizeOf_arrayItems? _hi))
  · exact Prod.Lex.right _ (Prod.Lex.left _ _ (sizeOf_dictionaryValues? _hv))
  · exact Prod.Lex.right _ (Prod.Lex.left _ _ (sizeOf_composition? _hc))
  · exact Prod.Lex.right _ (Prod.Lex.left _ _ (sizeOf_properties? _hp))
  · exact Prod.Lex.right _ (Prod.Lex.left _ _ (sizeOf_properties? _hp))

/-- The type of the items of a collection, and their model unless they are a named schema. -/
def buildItem (doc : ApiDocument) (pending : List String) (schema : Node) :
    Except Fault (TypeExpr × Option Model) := do
  match (Pointer.reference? schema).filter doc.dialect.isSchemaRef with
  | some ref => return (← doc.typeOfReference ref, none)
  | none =>
    let m ← build doc pending false (some "") schema
    return (m.type, some m)
termination_by (pending.length, sizeOf schema, 2)

/-- Builds the branches of a composition; a branch that is no schema contributes nothing. -/
def buildBranches (doc : ApiDocument) (pending : List String) (shape : Shape) :
    List Node → Except Fault Composition
  | [] => return {}
  | branch :: rest => do
    let part ←
      if branch.isMap then
        match (Pointer.reference? branch).filter doc.dialect.isSchemaRef with
        | some ref => pure (Composition.ofReference (← doc.typeOfReference ref))
        | none => pure (.ofBranch shape (← build doc pending false (some "") branch))
      else pure {}
    let others ← buildBranches doc pending shape rest
    return part.append others
termination_by branches => (pending.length, sizeOf branches, 0)

def buildProperties (doc : ApiDocument) (pending : List String) (required : List Scalar) :
    Entries → Except Fault (List Model)
  | [] => return []
  | (key, schema) :: rest => do
    let m ← build doc pending false key.text? schema
    let others ← buildProperties doc pending required rest
    return asProperty required key m :: others
termination_by es => (pending.length, sizeOf es, 0)

end

/-- References that a schema can lead to: those in it and those in its document. -/
def references (doc : ApiDocument) (schema : Node) : List String :=
  (Pointer.references doc.root ++ Pointer.references schema).eraseDups.filter fun ref =>
    !doc.dialect.isSchemaRef ref

def model (doc : ApiDocument) (schema : Node) (isDefinition : Bool) (name : String) :
    Except Fault Model :=
  build doc (doc.references schema) isDefinition (some name) schema

def anonymousModel (doc : ApiDocument) (schema : Node) : Except Fault Model :=
  doc.model schema false ""

def propertiesOf (doc : ApiDocument) (schema : Node) : Except Fault (List Model) := do
  let required ← requiredKeys schema
  let es ← (← schema.required "properties").members
  buildProperties doc (doc.references schema) required es

end ApiDocument

end ClientGen
