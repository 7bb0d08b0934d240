import ClientGen.Document.Display
import ClientGen.Naming

/-! Why a document cannot be resolved into a client. -/

namespace ClientGen

/-- Why a reference cannot be followed. -/
inductive ReferenceFault where
  | external
  | missingKey (segment : String)
  | badIndex (segment : String)
  | notContainer (kind : String)
  | circular
  | notObject
  | noSchema
deriving DecidableEq, Repr

def ReferenceFault.reason : ReferenceFault → String
  | .external => "only local references (#/...) are supported"
  | .missingKey segment => s!"key '{segment}' not found"
  | .badIndex segment => s!"invalid array index '{segment}'"
  | .notContainer kind => s!"cannot navigate into {kind}"
  | .circular => "circular reference"
  | .notObject => "target is not an object"
  | .noSchema => "no such schema"

/-- How a part of a document has the wrong form. -/
inductive Malformed where
  /-- A value is asked for a feature that its kind lacks, such as the members of a number. -/
  | noFeature
  /-- A value takes part in an operation that its kind does not admit. -/
  | wrongKind
  /-- A member that must be there is missing. -/
  | noMember
  /-- A position lies outside a sequence. -/
  | outOfRange
  /-- A word is none of those that its place admits. -/
  | notListed
  | tooLarge
  /-- A numeral has more digits than it may have, or an integer has no numeral for that reason. -/
  | tooLong
deriving DecidableEq, Repr

/-- What is wrong with a field of a record. -/
inductive IssueKind where
  | missing
  | notListed
  | notText
  | notInteger
  | integerText
  | fractionalInteger
  | longInteger
  | notFinite
  | notNumber
  | numberText
  | notBoolean
  | booleanText
  | notList
  | notRecord
  | unknownField
  | rule (message : String)
deriving DecidableEq, Repr

def IssueKind.code : IssueKind → String
  | .missing => "missing"
  | .notListed => "enum"
  | .notText => "string_type"
  | .notInteger => "int_type"
  | .integerText => "int_parsing"
  | .fractionalInteger => "int_from_float"
  | .longInteger => "int_parsing_size"
  | .notFinite => "finite_number"
  | .notNumber => "float_type"
  | .numberText => "float_parsing"
  | .notBoolean => "bool_type"
  | .booleanText => "bool_parsing"
  | .notList => "list_type"
  | .notRecord => "model_type"
  | .unknownField => "extra_forbidden"
  | .rule _ => "value_error"

/-- An issue and the way to its field through fields and list positions. -/
structure Issue where
  path : List String
  kind : IssueKind
deriving DecidableEq, Repr

/-- Why a document cannot be resolved. -/
inductive Fault where
  | unresolved (ref : String) (fault : ReferenceFault)
  | malformed (form : Malformed)
  | invalid (issues : List Issue)
deriving DecidableEq, Repr

def unresolvedMessage (ref : String) (fault : ReferenceFault) : String :=
  s!"Cannot resolve $ref '{ref}': {fault.reason}"

namespace Node

/-- The text of a value that stands alone, if it has one. -/
def shown (node : Node) : Except Fault String :=
  if node.hasText then .ok node.display else .error (.malformed .tooLong)

/-- The member of a map, nothing if the map lacks it; other values have no members. -/
def member (node : Node) (key : String) : Except Fault Node :=
  match node with
  | .map es => .ok ((Entries.get? es key).getD .null)
  | _ => .error (.malformed .noFeature)

/-- The entries of a map; other values have none to walk through. -/
def members (node : Node) : Except Fault Entries :=
  match node with
  | .map es => .ok es
  | _ => .error (.malformed .noFeature)

/-- The member of a map that must be there. -/
def required (node : Node) (key : String) : Except Fault Node :=
  match node with
  | .map es =>
    match Entries.get? es key with
    | some value => .ok value
    | none => .error (.malformed .noMember)
  | _ => .error (.malformed .wrongKind)

/-- Whether a key occurs: as a key of a map, an item of a list, or a part of a text. -/
def mentions (node : Node) (key : String) : Except Fault Bool :=
  match node with
  | .map es => .ok (Entries.get? es key).isSome
  | .list items => .ok (items.any fun item => item.text? == some key)
  | .str s => .ok (Text.occursIn key.toList s.toList)
  | _ => .error (.malformed .wrongKind)

/-- The items that a walk through a value meets: items of a list, keys of a map, points. -/
def walk (node : Node) : Except Fault (List Node) :=
  match node with
  | .list items => .ok items
  | .map es => .ok (es.map fun entry => .scalar entry.1)
  | .str s => .ok ((Text.points s.toList).map fun p => .str (String.ofList p.spelling))
  | _ => .error (.malformed .wrongKind)

/-- A value, or another one in its place if it counts as absent. -/
def orElse (node other : Node) : Node := if node.isPresent then node else other

/-- The first item of a sequence that is not empty. -/
def first (node : Node) : Except Fault Node :=
  match node with
  | .list (item :: _) => .ok item
  | .str s =>
    match Text.points s.toList with
    | p :: _ => .ok (.str (String.ofList p.spelling))
    | [] => .error (.malformed .outOfRange)
  | .map es =>
    match Entries.find? es (.int 0) with
    | some value => .ok value
    | none => .error (.malformed .noMember)
  | _ => .error (.malformed .wrongKind)

/-- The comment text of a description; an absent one has none. -/
def comment (node : Node) : Except Fault (Option String) :=
  match node with
  | .str s => .ok (Naming.comment s)
  | _ => if node.isPresent then .error (.malformed .noFeature) else .ok none

end Node

end ClientGen
