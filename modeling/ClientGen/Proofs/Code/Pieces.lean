import ClientGen.Code.ModelFile
import ClientGen.Proofs.Schema.Imports

/-! Written types as lists of pieces, which tell type names from keys and literals. -/

namespace ClientGen

/-- A piece of a written type: a text whose words are type names, one type name, a literal, the
start of a property, or an enumeration in the namespace of its parent. -/
inductive Piece where
  | text (s : String)
  | name (s : String)
  | literal (entry : EnumEntry)
  | head (property : Model)
  | address (parent : String) (enum : Model)

namespace Piece

def written : Piece → String
  | .text s => s
  | .name s => s
  | .literal entry => entry.literal
  | .head property => property.propertyHead
  | .address parent enum => parent ++ "." ++ enum.enumTypeName

/-- The type names in a piece, without namespaces. -/
def typeNames : Piece → List String
  | .text s => words s
  | .name s => [s]
  | _ => []

/-- The namespaces in a piece. -/
def namespaces : Piece → List String
  | .address parent _ => [parent]
  | _ => []

/-- The text of pieces in a row. -/
def join (pieces : List Piece) : String := String.join (pieces.map written)

@[simp] theorem join_nil : join [] = "" := rfl

@[simp] theorem join_cons (p : Piece) (pieces : List Piece) :
    join (p :: pieces) = p.written ++ join pieces := String.join_cons

@[simp] theorem join_append (a b : List Piece) : join (a ++ b) = join a ++ join b := by
  simp [join]

theorem join_intercalate (separator : Piece) (parts : List (List Piece)) :
    join ([separator].intercalate parts) = separator.written.intercalate (parts.map join) := by
  induction parts with
  | nil => rfl
  | cons a rest ih =>
    cases rest with
    | nil => simp
    | cons b rest =>
      rw [List.intercalate_cons_cons, join_append, join_append, ih]
      simp [String.intercalate_cons_cons]

/-- Alternatives or parts; several are put in parentheses. -/
def joinTypes (separator : String) : List (List Piece) → List Piece
  | [] => [.text "any"]
  | [type] => type
  | types => .text "(" :: [Piece.text separator].intercalate types ++ [.text ")"]

theorem join_joinTypes (separator : String) (types : List (List Piece)) :
    join (joinTypes separator types) = ClientGen.joinTypes separator (types.map join) := by
  match types with
  | [] => rfl
  | [type] => rfl
  | a :: b :: rest =>
    simp only [joinTypes, List.cons_append, join_cons, join_append, join_intercalate]
    simp [ClientGen.joinTypes, written, String.append_assoc]

end Piece

namespace Model

def orNullPieces (m : Model) (type : List Piece) : List Piece :=
  if m.isNullable then type ++ [.text " | null"] else type

def unionPieces (m : Model) : List Piece :=
  if m.members.isEmpty then [.text m.type.text]
  else [Piece.text " | "].intercalate (m.members.map fun entry => [.literal entry])

def objectPieces (members : List (List Piece)) : List Piece :=
  if members.isEmpty then [.text "any"]
  else .text "\x7b " :: [Piece.text " "].intercalate members ++ [.text " \x7d"]

theorem sizeOf_child {m s : Model} (h : Child m s) : sizeOf s < sizeOf m := by
  obtain ⟨name, shape, type, link, description, isDefinition, isReadOnly, isRequired, isNullable,
    constraints, defaultValue, parents, members, enums, properties⟩ := m
  simp only [mk.sizeOf_spec]
  cases h with
  | link h =>
    obtain rfl : link = some s := h
    simp only [Option.some.sizeOf_spec]
    omega
  | property h =>
    have hmem : s ∈ properties := h
    have hlt := List.sizeOf_lt_of_mem hmem
    omega
  | enum h =>
    have hmem : s ∈ enums := h
    have hlt := List.sizeOf_lt_of_mem hmem
    omega

/-- Induction from the models held in a model to the model. -/
theorem childInduction {motive : Model → Prop}
    (step : ∀ m, (∀ s, Child m s → motive s) → motive m) (m : Model) : motive m :=
  step m fun s _ => childInduction step s
termination_by sizeOf m
decreasing_by exact sizeOf_child ‹_›

/-- An enumeration as literals, or addressed in the namespace of `parent`. -/
def enumPieces (parent : Option String) (union : Bool) (m : Model) : List Piece :=
  match parent with
  | none | some "" => m.unionPieces
  | some parent => if m.name ≠ "" ∧ !union then [.address parent m] else m.unionPieces

/-- The pieces of the type of a model. -/
def typePieces (parent : Option String) (union : Bool) (m : Model) : List Piece :=
  let item :=
    match _h : m.link with
    | none => [.text m.type.text]
    | some item => typePieces none union item
  let signatures := m.properties.map fun p => .head p :: typePieces none union p ++ [.text ";"]
  orNullPieces m <|
    match m.shape with
    | .enum => m.enumPieces parent union
    | .array => .text "Array<" :: item ++ [.text ">"]
    | .dictionary => .text "Dictionary<" :: item ++ [.text ">"]
    | .oneOf | .anyOf =>
      Piece.joinTypes " | " (m.parents.map (fun p => [.name p]) ++
        m.properties.map fun s => typePieces none union s)
    | .allOf =>
      Piece.joinTypes " & " (m.parents.map (fun p => [.name p]) ++
        if m.properties.isEmpty then [] else [objectPieces signatures])
    | .interface => objectPieces signatures
    | .reference | .generic => [.text m.type.text]
termination_by sizeOf m
decreasing_by
  · exact sizeOf_child (.link _h)
  · exact sizeOf_child (.property ‹_›)
  · exact sizeOf_child (.property ‹_›)

/-- The pieces of the type of a collection's items. -/
def itemPieces (union : Bool) (m : Model) : List Piece :=
  match m.link with
  | none => [.text m.type.text]
  | some item => typePieces none union item

/-- The pieces of a property with its type. -/
def signaturePieces (parent : Option String) (union : Bool) (m : Model) : List Piece :=
  .head m :: typePieces parent union m ++ [.text ";"]

/-- The pieces of what stands behind the name of a type. -/
def definitionPieces (m : Model) (union : Bool) : List Piece :=
  if m.shape = .allOf ∧ !m.properties.isEmpty then
    orNullPieces m (Piece.joinTypes " & " (m.parents.map (fun p => [.name p]) ++
      [objectPieces (m.properties.map (signaturePieces (some m.name) union))]))
  else typePieces none union m

theorem typePieces_eq (parent : Option String) (union : Bool) (m : Model) :
    typePieces parent union m = orNullPieces m (match m.shape with
      | .enum => m.enumPieces parent union
      | .array => .text "Array<" :: m.itemPieces union ++ [.text ">"]
      | .dictionary => .text "Dictionary<" :: m.itemPieces union ++ [.text ">"]
      | .oneOf | .anyOf =>
        Piece.joinTypes " | " (m.parents.map (fun p => [.name p]) ++
          m.properties.map (typePieces none union))
      | .allOf =>
        Piece.joinTypes " & " (m.parents.map (fun p => [.name p]) ++
          if m.properties.isEmpty then []
          else [objectPieces (m.properties.map (signaturePieces none union))])
      | .interface => objectPieces (m.properties.map (signaturePieces none union))
      | .reference | .generic => [.text m.type.text]) := by
  rw [typePieces.eq_def, itemPieces]
  cases m.link <;> rfl

theorem typeExpressions_eq_map (union : Bool) (ms : List Model) :
    typeExpressions union ms = ms.map (typeExpression none union) := by
  induction ms with
  | nil => rw [typeExpressions, List.map_nil]
  | cons m rest ih => rw [typeExpressions, ih, List.map_cons]

theorem signatures_eq_map (parent : Option String) (union : Bool) (ms : List Model) :
    signatures parent union ms = ms.map fun m => m.signature parent union := by
  induction ms with
  | nil => rw [signatures, List.map_nil]
  | cons m rest ih =>
    rw [signatures, ih, List.map_cons]
    rfl

theorem typeExpression_eq (parent : Option String) (union : Bool) (m : Model) :
    typeExpression parent union m = orNull m (match m.shape with
      | .enum =>
        match parent with
        | none | some "" => m.memberUnion
        | some parent =>
          if m.name ≠ "" ∧ !union then parent ++ "." ++ m.enumTypeName else m.memberUnion
      | .array => "Array<" ++ linkExpression union m.type m.link ++ ">"
      | .dictionary => "Dictionary<" ++ linkExpression union m.type m.link ++ ">"
      | .oneOf | .anyOf =>
        joinTypes " | " (m.parents ++ m.properties.map (typeExpression none union))
      | .allOf =>
        joinTypes " & " (m.parents ++
          if m.properties.isEmpty then [] else [objectLiteral m.properties none union])
      | .interface => objectLiteral m.properties none union
      | .reference | .generic => m.type.text) := by
  obtain ⟨name, shape, type, link, description, isDefinition, isReadOnly, isRequired, isNullable,
    constraints, defaultValue, parents, members, enums, properties⟩ := m
  rw [typeExpression.eq_def, ← typeExpressions_eq_map]
  cases shape with
  | allOf => cases properties <;> rfl
  | _ => rfl

theorem join_orNullPieces (m : Model) (type : List Piece) :
    Piece.join (orNullPieces m type) = orNull m (Piece.join type) := by
  unfold orNullPieces orNull
  split
  · simp [Piece.written]
  · rfl

theorem join_unionPieces (m : Model) : Piece.join m.unionPieces = m.memberUnion := by
  unfold unionPieces memberUnion
  split
  · simp [Piece.written]
  · rw [Piece.join_intercalate, List.map_map]
    congr 1

theorem join_objectPieces (members : List (List Piece)) :
    Piece.join (objectPieces members) = objectType (members.map Piece.join) := by
  unfold objectPieces objectType
  cases members with
  | nil => rfl
  | cons a rest =>
    simp only [List.isEmpty_cons, Bool.false_eq_true, if_false, List.map_cons, List.cons_append,
      Piece.join_cons, Piece.join_append, Piece.join_intercalate]
    simp [Piece.written, String.append_assoc]

private theorem join_parents (parents : List String) :
    (parents.map fun p => [Piece.name p]).map Piece.join = parents := by
  simp [Function.comp_def, Piece.written]

theorem join_signaturePieces {parent : Option String} {union : Bool} {m : Model}
    (h : Piece.join (typePieces parent union m) = typeExpression parent union m) :
    Piece.join (signaturePieces parent union m) = m.signature parent union := by
  simp [signaturePieces, signature, h, Piece.written, String.append_assoc]

theorem join_enumPieces (parent : Option String) (union : Bool) (m : Model) :
    Piece.join (m.enumPieces parent union) =
      match parent with
      | none | some "" => m.memberUnion
      | some parent =>
        if m.name ≠ "" ∧ !union then parent ++ "." ++ m.enumTypeName else m.memberUnion := by
  unfold enumPieces
  split
  · exact m.join_unionPieces
  · exact m.join_unionPieces
  · split_ifs
    · simp [Piece.written]
    · exact m.join_unionPieces

/-- The pieces of a type are what is written. -/
theorem join_typePieces (parent : Option String) (union : Bool) (m : Model) :
    Piece.join (typePieces parent union m) = typeExpression parent union m := by
  induction m using childInduction generalizing parent with
  | step m ih =>
  have hitem : Piece.join (m.itemPieces union) = linkExpression union m.type m.link := by
    unfold itemPieces
    cases hlink : m.link with
    | none => simp [linkExpression, Piece.written]
    | some item =>
      rw [linkExpression]
      exact ih item (.link hlink) none
  have hparts : (m.properties.map (typePieces none union)).map Piece.join =
      m.properties.map (typeExpression none union) := by
    rw [List.map_map]
    exact List.map_congr_left fun s hs => ih s (.property hs) none
  have hobject : Piece.join (objectPieces (m.properties.map (signaturePieces none union))) =
      objectLiteral m.properties none union := by
    rw [join_objectPieces, List.map_map, objectLiteral, signatures_eq_map]
    congr 1
    exact List.map_congr_left fun s hs => join_signaturePieces (ih s (.property hs) none)
  rw [typePieces_eq, typeExpression_eq, join_orNullPieces]
  congr 1
  generalize m.shape = shape
  cases shape with
  | enum => exact m.join_enumPieces parent union
  | array => simp [Piece.written, hitem, String.append_assoc]
  | dictionary => simp [Piece.written, hitem, String.append_assoc]
  | oneOf => rw [Piece.join_joinTypes, List.map_append, join_parents, hparts]
  | anyOf => rw [Piece.join_joinTypes, List.map_append, join_parents, hparts]
  | allOf =>
    dsimp only
    rw [Piece.join_joinTypes, List.map_append, join_parents]
    split_ifs
    · rfl
    · rw [List.map_singleton, hobject]
  | interface => exact hobject
  | reference => simp [Piece.written]
  | generic => simp [Piece.written]

/-- The pieces of a definition are what is written. -/
theorem join_definitionPieces (union : Bool) (m : Model) :
    Piece.join (m.definitionPieces union) = m.definition union := by
  unfold definitionPieces definition
  split_ifs
  · rw [join_orNullPieces, Piece.join_joinTypes, List.map_append, join_parents, List.map_singleton,
      join_objectPieces, List.map_map, objectLiteral, signatures_eq_map]
    have hsignature : Piece.join ∘ signaturePieces (some m.name) union =
        fun s => s.signature (some m.name) union :=
      funext fun s => join_signaturePieces (join_typePieces (some m.name) union s)
    rw [hsignature]
  · exact join_typePieces none union m

end Model

end ClientGen
