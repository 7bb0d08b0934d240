import ClientGen.Proofs.Api.ClientNames
import ClientGen.Proofs.Api.Descriptions
import ClientGen.Proofs.Code.EnumKeys
import ClientGen.Proofs.Code.FileScope

/-! Enumerations among the properties of a model: they are declared in a namespace beside the model,
and its properties address them there. -/

namespace ClientGen

namespace Piece

/-- The enumeration that a piece addresses, with the namespace. -/
def addressed? : Piece → Option (String × Model)
  | .address parent enum => some (parent, enum)
  | _ => none

/-- The enumerations that pieces address, in order. -/
def addresses (pieces : List Piece) : List (String × Model) := pieces.filterMap addressed?

@[simp] theorem addresses_nil : addresses [] = [] := rfl

@[simp] theorem addresses_append (a b : List Piece) :
    addresses (a ++ b) = addresses a ++ addresses b := List.filterMap_append

@[simp] theorem addresses_text (s : String) (pieces : List Piece) :
    addresses (.text s :: pieces) = addresses pieces := List.filterMap_cons_none rfl

theorem addresses_eq_nil {scope : String → Prop} {pieces : List Piece}
    (h : Fit scope none pieces) : addresses pieces = [] := by
  refine List.filterMap_eq_nil_iff.mpr fun p hp => ?_
  cases p with
  | address parent enum => exact nomatch (h _ hp).2 parent List.mem_cons_self
  | _ => rfl

theorem addresses_intercalate (separator : String) (parts : List (List Piece)) :
    addresses ([Piece.text separator].intercalate parts) = parts.flatMap addresses := by
  induction parts with
  | nil => rfl
  | cons part rest ih =>
    cases rest with
    | nil => simp
    | cons next rest =>
      rw [List.intercalate_cons_cons, addresses_append, addresses_append, ih, addresses_text,
        addresses_nil, List.append_nil]
      rfl

theorem addresses_joinTypes (separator : String) (types : List (List Piece)) :
    addresses (joinTypes separator types) = types.flatMap addresses := by
  match types with
  | [] => rfl
  | [type] => simp [joinTypes]
  | a :: b :: rest =>
    simp only [joinTypes, List.cons_append, addresses_text, addresses_append, addresses_intercalate]
    exact List.append_nil _

end Piece

namespace Model

open Piece

theorem addresses_orNullPieces (m : Model) (pieces : List Piece) :
    addresses (m.orNullPieces pieces) = addresses pieces := by
  unfold orNullPieces
  split
  · exact (addresses_append _ _).trans (List.append_nil _)
  · rfl

theorem addresses_objectPieces (members : List (List Piece)) :
    addresses (objectPieces members) = members.flatMap addresses := by
  unfold objectPieces
  split
  · next h =>
    rw [List.isEmpty_iff.mp h]
    rfl
  · simp only [List.cons_append, addresses_text, addresses_append, addresses_intercalate]
    exact List.append_nil _

variable {m : Model}

theorem Complete.addresses_none (h : m.Complete) (union : Bool) :
    addresses (m.typePieces none union) = [] :=
  addresses_eq_nil (h.fit_typePieces none union)

/-- A property whose type is the address of an enumeration: literals are no addresses, and what has
no name has none. -/
def isAddressed (union : Bool) (p : Model) : Bool := p.shape == .enum && p.name != "" && !union

/-- A type addresses no enumeration but that of its own property. -/
theorem Complete.addresses_some {p : Model} (h : p.Complete) {parent : String}
    (hparent : parent ≠ "") (union : Bool) :
    addresses (p.typePieces (some parent) union) =
      if p.isAddressed union then [(parent, p)] else [] := by
  have hnone := h.addresses_none union
  rw [typePieces_eq, addresses_orNullPieces] at hnone ⊢
  cases hshape : p.shape with
  | enum =>
    have haddressed : p.isAddressed union ↔ p.name ≠ "" ∧ !union := by simp [isAddressed, hshape]
    simp only [hshape, enumPieces] at hnone ⊢
    rw [if_congr haddressed rfl rfl]
    split_ifs
    · rfl
    · exact hnone
  | _ =>
    have haddressed : p.isAddressed union = false := by simp [isAddressed, hshape]
    rw [hshape] at hnone
    rw [haddressed]
    exact hnone

theorem addresses_signatures {ps : List Model} (h : ∀ p ∈ ps, p.Complete) {parent : String}
    (hparent : parent ≠ "") (union : Bool) :
    (ps.map (signaturePieces (some parent) union)).flatMap addresses =
      (ps.filter (isAddressed union)).map (parent, ·) := by
  induction ps with
  | nil => rfl
  | cons p ps ih =>
    obtain ⟨hp, hps⟩ := List.forall_mem_cons.mp h
    have hsignature : addresses (p.signaturePieces (some parent) union) =
        addresses (p.typePieces (some parent) union) := by
      rw [signaturePieces, List.cons_append]
      exact (addresses_append _ _).trans (List.append_nil _)
    rw [List.map_cons, List.flatMap_cons, ih hps, hsignature, hp.addresses_some hparent]
    by_cases haddressed : p.isAddressed union
    · rw [if_pos haddressed, List.filter_cons_of_pos haddressed]
      rfl
    · rw [if_neg haddressed, List.filter_cons_of_neg haddressed]
      rfl

/-- The types in the file of an interface or an intersection, in order. -/
def fileTypes (m : Model) (union : Bool) : List (List Piece) :=
  if m.shape = .interface then m.properties.map (signaturePieces (some m.name) union)
  else [m.definitionPieces union]

/-- A file addresses each enumeration with a name among the properties, and no other. -/
theorem Complete.addresses_fileTypes (h : m.Complete) (hname : m.name ≠ "")
    (hshape : m.shape = .interface ∨ m.shape = .allOf) (union : Bool) :
    (m.fileTypes union).flatMap addresses =
      (m.properties.filter (isAddressed union)).map (m.name, ·) := by
  have hproperties := addresses_signatures (fun p hp => h.child (.property hp)) hname union
  unfold fileTypes
  split_ifs with hinterface
  · exact hproperties
  have hintersection := hshape.resolve_left hinterface
  have hparents : (m.parents.map fun p => [Piece.name p]).flatMap addresses = [] := by
    rw [List.flatMap_map]
    exact List.flatMap_eq_nil_iff.mpr fun p _ => rfl
  rw [List.flatMap_singleton, definitionPieces]
  split_ifs with hall
  · rw [addresses_orNullPieces, addresses_joinTypes, List.flatMap_append, hparents,
      List.nil_append, List.flatMap_singleton, addresses_objectPieces]
    exact hproperties
  · have hnone : m.properties = [] := by simpa [hintersection] using hall
    rw [h.addresses_none, hnone]
    rfl

end Model

namespace Code

/-- The name in a line that opens a declaration. -/
def headName? (keyword line : String) : Option String :=
  if keyword.toList.isPrefixOf line.toList && " \x7b".toList.isSuffixOf line.toList then
    some (String.ofList ((line.toList.drop keyword.length).dropLast.dropLast))
  else none

/-- The enumerations that lines declare, each with the lines of its members. A namespace goes before
the names in it, up to the end. -/
def declaredEnums (scope : String) : List String → List (String × List String)
  | [] => []
  | line :: rest =>
    match headName? "export namespace " line, headName? "export enum " line with
    | some parent, _ => declaredEnums (parent ++ ".") rest
    | none, some name => (scope ++ name, rest.takeWhile (· != "\x7d")) :: declaredEnums scope rest
    | none, none => declaredEnums scope rest

theorem headName?_eq_none {keyword line : String}
    (h : keyword.toList <+: line.toList → ¬ " \x7b".toList <:+ line.toList) :
    headName? keyword line = none := by
  refine if_neg fun hboth => ?_
  obtain ⟨hstart, hend⟩ := Bool.and_eq_true_iff.mp hboth
  exact h (List.isPrefixOf_iff_prefix.mp hstart) (List.isSuffixOf_iff_suffix.mp hend)

theorem headName?_eq (keyword name : String) :
    headName? keyword (keyword ++ name ++ " " ++ "\x7b") = some name := by
  have hline : (keyword ++ name ++ " " ++ "\x7b").toList =
      keyword.toList ++ (name.toList ++ " \x7b".toList) := by
    simp
  have hname : (name.toList ++ " \x7b".toList).dropLast.dropLast = name.toList := by
    have hsplit : name.toList ++ " \x7b".toList = name.toList ++ [' '] ++ ['\x7b'] := by simp
    rw [hsplit, List.dropLast_concat, List.dropLast_concat]
  rw [headName?, hline, if_pos]
  · rw [← String.length_toList, List.drop_left, hname, String.ofList_toList]
  · refine Bool.and_eq_true_iff.mpr ⟨List.isPrefixOf_iff_prefix.mpr (List.prefix_append _ _), ?_⟩
    rw [List.isSuffixOf_iff_suffix, ← List.append_assoc]
    exact List.suffix_append _ _

/-- A line that opens neither a namespace nor an enumeration. -/
def Quiet (line : String) : Prop :=
  headName? "export namespace " line = none ∧ headName? "export enum " line = none

theorem quiet_of_head? {line : String} (h : line.toList.head? ≠ some 'e') : Quiet line := by
  have hno (keyword : String) (hkeyword : keyword.toList.head? = some 'e') :
      headName? keyword line = none := by
    refine headName?_eq_none fun ⟨rest, hrest⟩ => absurd ?_ h
    obtain ⟨more, hmore⟩ := List.head?_eq_some_iff.mp hkeyword
    rw [← hrest, hmore]
    rfl
  exact ⟨hno _ rfl, hno _ rfl⟩

theorem quiet_of_getLast? {line : String} (h : line.toList.getLast? ≠ some '\x7b') :
    Quiet line := by
  have hno (keyword : String) : headName? keyword line = none := by
    refine headName?_eq_none fun _ ⟨rest, hrest⟩ => h ?_
    rw [← hrest, List.getLast?_append]
    rfl
  exact ⟨hno _, hno _⟩

theorem quiet_append_of_ne (text : String) {ending : String} {c : Char}
    (h : ending.toList.getLast? = some c) (hc : c ≠ '\x7b') : Quiet (text ++ ending) := by
  refine quiet_of_getLast? ?_
  rw [String.toList_append, List.getLast?_append, h]
  simpa using hc

theorem declaredEnums_quiet {lines : List String} (h : ∀ line ∈ lines, Quiet line)
    (scope : String) (rest : List String) :
    declaredEnums scope (lines ++ rest) = declaredEnums scope rest := by
  induction lines with
  | nil => rfl
  | cons line lines ih =>
    obtain ⟨⟨hnamespace, henum⟩, hlines⟩ := List.forall_mem_cons.mp h
    rw [List.cons_append, declaredEnums, hnamespace, henum]
    exact ih hlines

theorem quiet_comment {lines : List String} : ∀ line ∈ comment lines, Quiet line := by
  intro line hline
  refine quiet_of_head? ?_
  rw [comment, List.cons_append, List.mem_cons, List.mem_append, List.mem_singleton] at hline
  rcases hline with rfl | hline | rfl
  · decide
  · obtain ⟨text, -, rfl⟩ := List.mem_map.mp hline
    simp
  · decide

theorem quiet_description (text : Option String) : ∀ line ∈ description text, Quiet line := by
  unfold description
  split
  · exact fun line hline => absurd hline List.not_mem_nil
  · exact fun line hline => absurd hline List.not_mem_nil
  · exact quiet_comment

theorem quiet_memberLines (members : List EnumEntry) :
    ∀ line ∈ memberLines " = " members, Quiet line ∧ line ≠ "\x7d" := by
  intro line hline
  obtain ⟨entry, -, rfl⟩ := List.mem_map.mp hline
  have hlast : (",".toList).getLast? = some ',' := rfl
  refine ⟨quiet_append_of_ne _ hlast (by decide), fun h => ?_⟩
  have hends := congrArg (fun line => line.toList.getLast?) h
  rw [String.toList_append, List.getLast?_append, hlast, Option.some_or] at hends
  exact absurd hends (by decide)

/-- What opens with another word after `export` is quiet. -/
theorem headName?_other {keyword word : String} (text : String)
    (h : ¬ keyword.toList <+: word.toList ∧ ¬ word.toList <+: keyword.toList) :
    headName? keyword (word ++ text) = none := by
  refine headName?_eq_none fun hstart => ?_
  rw [String.toList_append] at hstart
  rcases List.prefix_or_prefix_of_prefix hstart (List.prefix_append _ _) with hp | hp
  · exact absurd hp h.1
  · exact absurd hp h.2

theorem declaredEnums_block (scope name : String) (members : List EnumEntry)
    (rest : List String) :
    declaredEnums scope (block ("export enum " ++ name) (memberLines " = " members) ++ rest) =
      (scope ++ name, memberLines " = " members) :: declaredEnums scope rest := by
  have hlines : block ("export enum " ++ name) (memberLines " = " members) ++ rest =
      ("export enum " ++ name ++ " " ++ "\x7b") ::
        (memberLines " = " members ++ "\x7d" :: rest) := by
    simp [block, closed]
  have hnamespace : headName? "export namespace " ("export enum " ++ name ++ " " ++ "\x7b") =
      none := by
    rw [String.append_assoc, String.append_assoc]
    exact headName?_other _ (by decide)
  -- Members end with a comma, so that the first brace alone is the one after them.
  have hquiet := quiet_memberLines members
  have hclose : Quiet "\x7d" := quiet_of_head? (by decide)
  rw [hlines, declaredEnums, hnamespace, headName?_eq]
  dsimp only
  rw [List.takeWhile_append_of_pos (by simpa using fun line hline => (hquiet line hline).2),
    List.takeWhile_cons_of_neg (by simp), List.append_nil,
    declaredEnums_quiet fun line hline => (hquiet line hline).1]
  exact congrArg _ (declaredEnums_quiet (List.forall_mem_singleton.mpr hclose) scope rest)

theorem declaredEnums_namespace (scope name : String) (rest : List String) :
    declaredEnums scope (("export namespace " ++ name ++ " " ++ "\x7b") :: rest) =
      declaredEnums (name ++ ".") rest := by
  rw [declaredEnums, headName?_eq]

/-- The lines of enumerations in a namespace. -/
def enumLines (es : List Model) : List String :=
  es.flatMap fun e => "" :: description e.description ++
    block ("export enum " ++ e.enumTypeName) (memberLines " = " e.members)

theorem declaredEnums_enumLines (es : List Model) (scope : String) (rest : List String) :
    declaredEnums scope (enumLines es ++ rest) =
      es.map (fun e => (scope ++ e.enumTypeName, memberLines " = " e.members)) ++
        declaredEnums scope rest := by
  induction es with
  | nil => rfl
  | cons e es ih =>
    have hbefore : ∀ line ∈ "" :: description e.description, Quiet line :=
      List.forall_mem_cons.mpr ⟨quiet_of_head? (by decide), quiet_description e.description⟩
    have hlines : enumLines (e :: es) = ("" :: description e.description) ++
        (block ("export enum " ++ e.enumTypeName) (memberLines " = " e.members) ++
          enumLines es) := by
      simp [enumLines]
    rw [hlines, List.append_assoc, List.append_assoc, declaredEnums_quiet hbefore,
      declaredEnums_block, ih]
    rfl

/-- A namespace declares the enumerations of a model in order. -/
theorem declaredEnums_namespaceLines (m : Model) (union : Bool) :
    declaredEnums "" (TypeScript.namespaceLines m union) =
      if union then [] else
        m.enums.map fun e => ((Piece.address m.name e).written, memberLines " = " e.members) := by
  unfold TypeScript.namespaceLines
  by_cases hnone : m.enums.isEmpty ∨ union
  · rw [if_pos hnone]
    rcases hnone with hempty | hunion
    · rw [List.isEmpty_iff.mp hempty]
      exact (ite_self _).symm
    · rw [hunion]
      rfl
  have hblank : Quiet "" := quiet_of_head? (by decide)
  have hclose : Quiet ("\x7d" ++ "") := quiet_of_head? (by decide)
  have hlines : block ("export namespace " ++ m.name) (enumLines m.enums) =
      ("export namespace " ++ m.name ++ " " ++ "\x7b") ::
        (enumLines m.enums ++ ["\x7d" ++ ""]) := rfl
  have hscope (e : Model) :
      (Piece.address m.name e).written = m.name ++ "." ++ e.enumTypeName := rfl
  rw [if_neg hnone, if_neg (not_or.mp hnone).2]
  calc declaredEnums "" ("" :: block ("export namespace " ++ m.name) (enumLines m.enums))
    _ = declaredEnums (m.name ++ ".") (enumLines m.enums ++ ["\x7d" ++ ""]) := by
      rw [hlines, ← declaredEnums_namespace ""]
      exact declaredEnums_quiet (List.forall_mem_singleton.mpr hblank) "" _
    _ = _ := by
      have hlast : declaredEnums (m.name ++ ".") ["\x7d" ++ ""] = [] :=
        declaredEnums_quiet (List.forall_mem_singleton.mpr hclose) _ []
      rw [declaredEnums_enumLines, hlast, List.append_nil]
      rfl

theorem quiet_declaration {m : Model} (hshape : m.shape = .interface ∨ m.shape = .allOf)
    (union : Bool) : ∀ line ∈ TypeScript.declaration m union, Quiet line := by
  have hend : (";".toList).getLast? = some ';' := rfl
  unfold TypeScript.declaration
  split_ifs with hinterface henum
  · have hproperty : ∀ line ∈ TypeScript.propertyLines m union, Quiet line := by
      intro line hline
      obtain ⟨p, -, hline⟩ := List.mem_flatMap.mp hline
      rcases List.mem_append.mp hline with hline | hline
      · exact quiet_description p.description line hline
      · rw [List.mem_singleton.mp hline]
        exact quiet_append_of_ne _ hend (by decide)
    have hopen : Quiet ("export type " ++ m.name ++ " = " ++ "\x7b") := by
      rw [String.append_assoc, String.append_assoc]
      exact ⟨headName?_other _ (by decide), headName?_other _ (by decide)⟩
    refine List.forall_mem_cons.mpr ⟨hopen, List.forall_mem_append.mpr ⟨hproperty, ?_⟩⟩
    exact List.forall_mem_singleton.mpr (quiet_append_of_ne _ hend (by decide))
  · rw [Model.declaresEnum, hshape.resolve_left hinterface] at henum
    exact absurd henum (by simp)
  · exact List.forall_mem_singleton.mpr (quiet_append_of_ne _ hend (by decide))

/-- The file of an interface or an intersection declares enumerations in its namespace only. -/
theorem declaredEnums_modelFile {m : Model} (hshape : m.shape = .interface ∨ m.shape = .allOf)
    (union : Bool) : declaredEnums "" (TypeScript.modelFile m union) =
      declaredEnums "" (TypeScript.namespaceLines m union) := by
  have hend : ("';".toList).getLast? = some ';' := rfl
  have himport (name file : String) : Quiet (importType name file) :=
    quiet_append_of_ne _ hend (by decide)
  refine declaredEnums_quiet ?_ "" _
  simp only [List.forall_mem_append]
  refine ⟨⟨⟨⟨?_, ?_⟩, ?_⟩, quiet_description _⟩, quiet_declaration hshape union⟩
  · exact List.forall_mem_map.mpr fun name _ => himport name _
  · split
    · exact List.forall_mem_singleton.mpr (himport _ _)
    · exact fun line hline => absurd hline List.not_mem_nil
  · exact List.forall_mem_singleton.mpr (quiet_of_head? (by decide))

/-- Lines declare one enumeration of a name, with these lines for its members. -/
def Declares (lines : List String) (name : String) (members : List String) : Prop :=
  (declaredEnums "" lines).filter (·.1 == name) = [(name, members)]

end Code

theorem filter_eq_singleton_iff {α : Type} {p : α → Bool} {l : List α} {a : α} (ha : p a) :
    l.filter p = [a] ↔ ∃ before after, l = before ++ a :: after ∧ ∀ b ∈ before ++ after, ¬ p b := by
  rw [List.filter_eq_cons_iff]
  constructor
  · rintro ⟨before, after, rfl, hbefore, -, hafter⟩
    exact ⟨before, after, rfl,
      List.forall_mem_append.mpr ⟨hbefore, List.filter_eq_nil_iff.mp hafter⟩⟩
  · rintro ⟨before, after, rfl, hothers⟩
    obtain ⟨hbefore, hafter⟩ := List.forall_mem_append.mp hothers
    exact ⟨before, after, rfl, hbefore, ha, List.filter_eq_nil_iff.mpr hafter⟩

namespace Model

open Code

/-- What an enumeration of a namespace is declared as. -/
def declaredIn (parent : String) (e : Model) : String × List String :=
  ((Piece.address parent e).written, memberLines " = " e.members)

/-- An address is that of its own enumeration only if no other one has the same key or clashes with
it. -/
theorem filter_declaredIn_iff (parent : String) {es : List Model} {e : Model} (he : e ∈ es) :
    (es.map (declaredIn parent)).filter (·.1 == (Piece.address parent e).written) =
        [declaredIn parent e] ↔
      ∃ before after, es = before ++ e :: after ∧
        ∀ f ∈ before ++ after, f.name ≠ e.name ∧ ¬ EnumKey.Clash f.name e.name := by
  have hsame (f : Model) : (declaredIn parent f).1 = (Piece.address parent e).written ↔
      f.name = e.name ∨ EnumKey.Clash f.name e.name := by
    rw [← EnumKey.enumTypeName_eq_iff]
    exact String.append_right_inj (parent ++ ".")
  let p (f : Model) : Bool := (declaredIn parent f).1 == (Piece.address parent e).written
  have hpe : p e := beq_self_eq_true _
  have hmap : (es.map (declaredIn parent)).filter (·.1 == (Piece.address parent e).written) =
      (es.filter p).map (declaredIn parent) := List.filter_map
  have hone : (es.filter p).map (declaredIn parent) = [declaredIn parent e] ↔
      es.filter p = [e] := by
    refine ⟨fun h => ?_, fun h => by rw [h]; rfl⟩
    -- Declarations do not tell enumerations apart, but the one that is left can only be `e`.
    obtain ⟨f, hf, -⟩ := List.map_eq_singleton_iff.mp h
    have hmem : e ∈ es.filter p := List.mem_filter.mpr ⟨he, hpe⟩
    rw [hf, List.mem_singleton] at hmem
    rw [hf, hmem]
  rw [hmap, hone, filter_eq_singleton_iff hpe]
  simp only [p, beq_iff_eq, hsame, not_or, ne_eq]

/-- The enumerations in the file of an interface or an intersection: where they are declared, what
addresses them, and which names they have. -/
structure EnumsInFile (x : Lexicon) (m : Model) : Prop where
  enums : m.enums = m.properties.filter fun p =>
    p.shape == .enum && (m.shape == .interface || p.name != "")
  written : ∀ union, ∀ pieces ∈ m.fileTypes union, ∃ line ∈ TypeScript.modelFile m union,
    ∃ before after, line = before ++ Piece.join pieces ++ after
  addressed : ∀ union, (m.fileTypes union).flatMap Piece.addresses =
    (m.properties.filter (isAddressed union)).map (m.name, ·)
  declared : ∀ union, declaredEnums "" (TypeScript.modelFile m union) =
    if union then [] else m.enums.map (declaredIn m.name)
  declarable_iff : ∀ e ∈ m.enums, x.Declarable e.enumTypeName ↔
    (Text.isIdentifier e.name ∨ ∀ c, EnumKey.firstNameChar e.name = some c → ¬ c.isDigit) ∧
      ∀ word ∈ reservedWords, ¬ EnumKey.Names e.name word
  same_iff : ∀ e ∈ m.enums, ∀ f ∈ m.enums, e.name ≠ f.name →
    (e.enumTypeName = f.enumTypeName ↔ EnumKey.Clash e.name f.name)
  apart : ∀ e ∈ m.enums, ∀ f ∈ m.enums, e.name ≠ f.name →
    Text.isIdentifier e.name ∧ Text.isIdentifier f.name ∨
      EnumKey.firstNameChar e.name ≠ none ∧ EnumKey.firstNameChar f.name ≠ none ∧
        EnumKey.letters e.name ≠ EnumKey.letters f.name →
    e.enumTypeName ≠ f.enumTypeName
  denoted_iff : ∀ e ∈ m.enums,
    Declares (TypeScript.modelFile m false) (Piece.address m.name e).written
        (memberLines " = " e.members) ↔
      ∃ before after, m.enums = before ++ e :: after ∧
        ∀ f ∈ before ++ after, f.name ≠ e.name ∧ ¬ EnumKey.Clash f.name e.name

theorem mem_modelFile {m : Model} {union : Bool} {line : String}
    (h : line ∈ TypeScript.declaration m union) : line ∈ TypeScript.modelFile m union :=
  List.mem_append_left _ (List.mem_append_right _ h)

theorem exists_line_of_fileTypes {m : Model} (hshape : m.shape = .interface ∨ m.shape = .allOf)
    {union : Bool} {pieces : List Piece} (h : pieces ∈ m.fileTypes union) :
    ∃ line ∈ TypeScript.modelFile m union,
      ∃ before after, line = before ++ Piece.join pieces ++ after := by
  unfold fileTypes at h
  split_ifs at h with hinterface
  · obtain ⟨p, hp, rfl⟩ := List.mem_map.mp h
    have hline : p.signature (some m.name) union ∈ TypeScript.propertyLines m union :=
      List.mem_flatMap.mpr ⟨p, hp, List.mem_append_right _ (List.mem_singleton_self _)⟩
    refine ⟨p.signature (some m.name) union, mem_modelFile ?_, "", "", ?_⟩
    · rw [TypeScript.declaration, if_pos hinterface]
      exact List.mem_cons_of_mem _ (List.mem_append_left _ hline)
    · rw [join_signaturePieces (join_typePieces _ union p)]
      simp
  · have hintersection := hshape.resolve_left hinterface
    have henum : ¬ m.declaresEnum union := by simp [declaresEnum, hintersection]
    rw [List.mem_singleton.mp h]
    refine ⟨"export type " ++ m.name ++ " = " ++ m.definition union ++ ";", mem_modelFile ?_,
      "export type " ++ m.name ++ " = ", ";", ?_⟩
    · rw [TypeScript.declaration, if_neg hinterface, if_neg henum]
      exact List.mem_singleton_self _
    · rw [join_definitionPieces]

theorem enumsInFile {m : Model} (hone : m.OneShaped) (hcomplete : m.Complete) (hname : m.name ≠ "")
    (hshape : m.shape = .interface ∨ m.shape = .allOf) (x : Lexicon) : m.EnumsInFile x where
  enums := hone.enums
  written union pieces h := exists_line_of_fileTypes hshape h
  addressed union := hcomplete.addresses_fileTypes hname hshape union
  declared union :=
    (declaredEnums_modelFile hshape union).trans (declaredEnums_namespaceLines m union)
  declarable_iff e _ := (EnumKey.names_enumTypeName e).declarable_iff x
  same_iff e _ f _ hne := EnumKey.enumTypeName_eq_iff.trans (or_iff_right hne)
  apart e _ f _ hne h heq := by
    have hclash := (EnumKey.enumTypeName_eq_iff.mp heq).resolve_left hne
    rcases h with hkept | ⟨he, hf, hletters⟩
    · exact hclash.not_kept hkept
    · exact hletters (hclash.letters_eq he hf)
  denoted_iff e he := by
    rw [Declares, declaredEnums_modelFile hshape, declaredEnums_namespaceLines]
    exact filter_declaredIn_iff m.name he

end Model

namespace ApiDocument

variable {doc : ApiDocument}

/-- The types in the file of an interface or an intersection address the enumerations of its own
properties in its own namespace, which declares them in order. A key decides if its enumeration has
the name of a declaration, and an address denotes the enumeration of its property unless another
property has an equal or clashing key. -/
theorem enums_of_models {models : List Model} (h : doc.models = .ok models) {m : Model}
    (hm : m ∈ models) (hshape : m.shape = .interface ∨ m.shape = .allOf) (x : Lexicon) :
    m.EnumsInFile x := by
  obtain ⟨_, _, _, -, hb⟩ := schema_of_model h hm
  have hname : m.name ≠ "" := ((names_models h).2 m hm).isName.1
  exact Model.enumsInFile (oneShaped_of_build hb) (complete_of_built (built_of_build hb)) hname
    hshape x

namespace PetSizes

def sizes (value : String) : Node := .map [(.str "enum", .list [.str value])]

def sizesModel (key value : String) : Model :=
  { Model.ofMembers "string" [{ name := value, value }] with name := key }

/-- The keys of properties, each with the value of its enumeration. -/
def values : List (String × String) :=
  [("size", "S"), ("pet-size", "S"), ("petSize", "M"), ("2nd", "S"), ("class", "S")]

def pet : Node :=
  .map [(.str "properties", .map (values.map fun p => (.str p.1, sizes p.2)))]

def document : ApiDocument where
  dialect := .openApi3
  root := .map [(.str "paths", .map []),
    (.str "components", .map [(.str "schemas", .map [(.str "Pet", pet)])])]
  schemas := [(.str "Pet", pet)]

def petModel : Model :=
  { Model.ofProperties (values.map fun p => sizesModel p.1 p.2) with
    name := "Pet", isDefinition := true }

theorem build_sizes (pending : List String) (key : String) {value : String}
    (hvalue : EnumEntry.ofValues [.str value] = .ok [{ name := value, value }]) :
    document.build pending false (some key) (sizes value) = .ok (sizesModel key value) := by
  have hlisted : listedMembers .openApi3 (sizes value) = .ok [{ name := value, value }] :=
    bind_eq_ok.mpr ⟨true, rfl, bind_eq_ok.mpr ⟨_, rfl, bind_eq_ok.mpr ⟨_, hvalue, rfl⟩⟩⟩
  have henum : enumModel? .openApi3 (sizes value) =
      .ok (some (Model.ofMembers "string" [{ name := value, value }])) :=
    enumModel?_eq_ok.mpr ⟨_, hlisted, .inl ⟨List.cons_ne_nil _ _, rfl⟩⟩
  exact (build_of_makes rfl rfl (.enum rfl henum)).trans rfl

theorem models_document : document.models = .ok [petModel] := by
  have hname : modelName .openApi3 (.str "Pet") = "Pet" := by decide +kernel
  have hkept : keepFirst [] document.declarations = [⟨.str "Pet", "Pet", pet⟩] := by
    simp [declarations, document, keepFirst, hname]
  have hvalues : ∀ p ∈ values,
      EnumEntry.ofValues [.str p.2] = .ok [{ name := p.2, value := p.2 }] := by
    decide +kernel
  have hmembers (pending : List String) : document.MakesMembers pending
      (values.map fun p => (.str p.1, sizes p.2))
      (values.map fun p => ⟨.str p.1, sizes p.2, sizesModel p.1 p.2⟩) :=
    ⟨rfl, List.forall_mem_map.mpr fun p hp => build_sizes pending p.1 (hvalues p hp)⟩
  have hmodel : document.model pet true "Pet" = .ok petModel :=
    (build_of_makes rfl rfl
      (.plain rfl rfl rfl (.interface rfl rfl rfl rfl (hmembers _) rfl))).trans rfl
  refine models_eq_ok.mpr ⟨by decide, ?_⟩
  rw [hkept]
  exact mapM_eq_ok.mpr (.cons hmodel .nil)

/-- The size of a pet has an enumeration of its own. -/
theorem enums_size : (document.models = .ok [petModel] ∧ petModel ∈ [petModel] ∧
      petModel.shape = .interface) ∧
    petModel.EnumsInFile .unicode ∧
    Code.Declares (Code.TypeScript.modelFile petModel false) "Pet.size" ["S = 'S',"] := by
  have hmem := List.mem_singleton_self petModel
  have h := enums_of_models models_document hmem (.inl rfl) .unicode
  have hsize : sizesModel "size" "S" ∈ petModel.enums := List.mem_cons_self
  have hothers : ∀ f ∈ petModel.enums.tail, f.name ≠ "size" ∧ f.enumTypeName ≠ "size" := by
    decide +kernel
  refine ⟨⟨models_document, hmem, rfl⟩, h, (h.denoted_iff _ hsize).mpr ⟨[], _, rfl, ?_⟩⟩
  intro f hf
  obtain ⟨hname, htype⟩ := hothers f hf
  refine ⟨hname, fun hclash => htype ?_⟩
  exact EnumKey.enumTypeName_eq_iff.mpr (.inr hclash)

/-- Two properties of a pet share one name for their enumerations, which is declared twice. One name
starts with a digit, and one is a reserved word. -/
theorem enums_clash : ofRoot .openApi3 document.root = .ok document ∧
    document.models = .ok [petModel] ∧ petModel.shape = .interface ∧
    petModel.enums.map (·.name) = ["size", "pet-size", "petSize", "2nd", "class"] ∧
    petModel.enums.map (·.enumTypeName) = ["size", "petSize", "petSize", "2nd", "class"] ∧
    (Code.declaredEnums "" (Code.TypeScript.modelFile petModel false)).filter
        (·.1 == "Pet.petSize") = [("Pet.petSize", ["S = 'S',"]), ("Pet.petSize", ["M = 'M',"])] ∧
    "'pet-size'?: Pet.petSize;" ∈ Code.modelFile .typescript petModel false ∧
    "petSize?: Pet.petSize;" ∈ Code.modelFile .typescript petModel false ∧
    ¬ Lexicon.unicode.Declarable "2nd" ∧ ¬ Lexicon.unicode.Declarable "class" := by
  have hline : "2nd".toList = '2' :: ['n', 'd'] := rfl
  have hdigit : ¬ Lexicon.unicode.IsIdentifier "2nd" := by
    rw [Lexicon.IsIdentifier, Text.hasForm_iff hline]
    exact fun h => absurd h.1 (by decide)
  refine ⟨rfl, models_document, rfl, rfl, ?_, ?_, ?_, ?_, fun h => hdigit h.1, fun h => ?_⟩
  · decide +kernel
  · decide +kernel
  · decide +kernel
  · decide +kernel
  · exact h.2 (by decide)

end PetSizes

end ApiDocument

end ClientGen
