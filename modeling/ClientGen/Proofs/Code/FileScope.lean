import ClientGen.Proofs.Code.Pieces

/-! The file of a model has all type names that are written in it. -/

namespace ClientGen

/-- Types of the language that generated code is written in. -/
def languageTypes : List String := "Array" :: TypeExpr.builtIns

/-- Pieces whose type names are in a scope and whose namespaces are `parent`. -/
def Piece.Fit (scope : String → Prop) (parent : Option String) (pieces : List Piece) : Prop :=
  ∀ p ∈ pieces, (∀ n ∈ p.typeNames, scope n) ∧ ∀ n ∈ p.namespaces, parent = some n

namespace Piece.Fit

variable {scope : String → Prop} {parent : Option String} {a b : List Piece}

theorem text {s : String} (h : ∀ w ∈ words s, scope w) : Fit scope parent [.text s] := by
  intro p hp
  obtain rfl := List.mem_singleton.mp hp
  exact ⟨h, by simp [namespaces]⟩

theorem literal (entry : EnumEntry) : Fit scope parent [.literal entry] := by
  intro p hp
  obtain rfl := List.mem_singleton.mp hp
  exact ⟨by simp [typeNames], by simp [namespaces]⟩

theorem name {s : String} (h : scope s) : Fit scope parent [.name s] := by
  intro p hp
  obtain rfl := List.mem_singleton.mp hp
  exact ⟨by simpa [typeNames] using h, by simp [namespaces]⟩

theorem append (ha : Fit scope parent a) (hb : Fit scope parent b) : Fit scope parent (a ++ b) := by
  intro p hp
  exact (List.mem_append.mp hp).elim (ha p) (hb p)

theorem cons {p : Piece} (ha : Fit scope parent [p]) (hb : Fit scope parent b) :
    Fit scope parent (p :: b) := ha.append hb

theorem mono {inner : String → Prop} (h : Fit inner parent a) (hscope : ∀ n, inner n → scope n) :
    Fit scope parent a :=
  fun p hp => ⟨fun n hn => hscope n ((h p hp).1 n hn), (h p hp).2⟩

/-- Pieces without namespaces fit under any parent. -/
theorem under (h : Fit scope none a) : Fit scope parent a :=
  fun p hp => ⟨(h p hp).1, fun n hn => nomatch (h p hp).2 n hn⟩

theorem intercalate {separator : Piece} {parts : List (List Piece)}
    (hs : Fit scope parent [separator]) (h : ∀ part ∈ parts, Fit scope parent part) :
    Fit scope parent ([separator].intercalate parts) := by
  induction parts with
  | nil => exact fun p hp => absurd hp List.not_mem_nil
  | cons part rest ih =>
    have hrest := ih fun q hq => h q (List.mem_cons_of_mem part hq)
    have hpart := h part List.mem_cons_self
    cases rest with
    | nil => simpa using hpart
    | cons next rest =>
      rw [List.intercalate_cons_cons]
      exact (hpart.append hs).append hrest

/-- Texts that stand between types. -/
def marks : List String :=
  ["any", "Array<", ">", " | null", " | ", " & ", "(", ")", "\x7b ", " ", " \x7d", ";"]

theorem words_marks : ∀ t ∈ marks, ∀ w ∈ words t, w ∈ languageTypes := by decide

variable (hscope : ∀ t ∈ languageTypes, scope t)
include hscope

theorem mark (t : String) (ht : t ∈ marks) : Fit scope parent [.text t] :=
  text fun w hw => hscope w (words_marks t ht w hw)

theorem joinTypes {separator : String} (hs : separator ∈ marks) {types : List (List Piece)}
    (h : ∀ type ∈ types, Fit scope parent type) :
    Fit scope parent (Piece.joinTypes separator types) := by
  match types with
  | [] => exact mark hscope "any" (by decide)
  | [type] => exact h type List.mem_cons_self
  | a :: b :: rest =>
    refine append (cons (mark hscope "(" (by decide)) ?_) (mark hscope ")" (by decide))
    exact intercalate (mark hscope separator hs) h

theorem objectPieces {members : List (List Piece)}
    (h : ∀ member ∈ members, Fit scope parent member) :
    Fit scope parent (Model.objectPieces members) := by
  unfold Model.objectPieces
  split
  · exact mark hscope "any" (by decide)
  · refine append (cons (mark hscope "\x7b " (by decide)) ?_) (mark hscope " \x7d" (by decide))
    exact intercalate (mark hscope " " (by decide)) h

theorem orNullPieces {m : Model} (h : Fit scope parent a) :
    Fit scope parent (m.orNullPieces a) := by
  unfold Model.orNullPieces
  split
  · exact h.append (mark hscope " | null" (by decide))
  · exact h

theorem signaturePieces {union : Bool} {m : Model}
    (h : Fit scope parent (m.typePieces parent union)) :
    Fit scope parent (m.signaturePieces parent union) := by
  refine append (cons ?_ h) (mark hscope ";" (by decide))
  intro p hp
  obtain rfl := List.mem_singleton.mp hp
  exact ⟨by simp [typeNames], by simp [namespaces]⟩

theorem enumPieces {m : Model} (h : Fit scope parent [.text m.type.text]) (union : Bool) :
    Fit scope parent (m.enumPieces parent union) := by
  have hunion : Fit scope parent m.unionPieces := by
    unfold Model.unionPieces
    split
    · exact h
    · refine intercalate (mark hscope " | " (by decide)) fun part hpart => ?_
      obtain ⟨entry, -, rfl⟩ := List.mem_map.mp hpart
      exact literal entry
  unfold Model.enumPieces
  split
  · exact hunion
  · exact hunion
  · split_ifs
    · intro p hp
      obtain rfl := List.mem_singleton.mp hp
      exact ⟨by simp [typeNames], by simp [namespaces]⟩
    · exact hunion

end Piece.Fit

namespace Model

/-- A name that the type of a model may mention. -/
def Mentions (m : Model) (name : String) : Prop := name ∈ languageTypes ∨ name ∈ m.imports

theorem mentions_of_builtIn_or_import {m : Model} {name : String}
    (h : name ∈ TypeExpr.builtIns ∨ name ∈ m.imports) : m.Mentions name :=
  h.imp_left (List.mem_cons_of_mem "Array")

/-- The type of a complete model mentions what the model imports. -/
theorem Complete.fit_typePieces {m : Model} (h : m.Complete) (parent : Option String)
    (union : Bool) : Piece.Fit m.Mentions parent (m.typePieces parent union) := by
  induction h generalizing parent with
  | @intro m type parents dictionary imports _ ih =>
  have hscope : ∀ t ∈ languageTypes, m.Mentions t := fun t ht => .inl ht
  have htext : Piece.Fit m.Mentions parent [.text m.type.text] :=
    .text fun w hw => mentions_of_builtIn_or_import (type.words w hw)
  -- A part of a model is written in the scope of the model, which imports what the part does.
  have hinner {s : Model} (hs : Child m s) :
      Piece.Fit m.Mentions none (s.typePieces none union) :=
    (ih s hs none).mono fun n hn => hn.imp_right (imports s hs n)
  have hparents : ∀ q ∈ m.parents.map fun p => [Piece.name p], Piece.Fit m.Mentions parent q := by
    intro q hq
    obtain ⟨p, hp, rfl⟩ := List.mem_map.mp hq
    exact .name (mentions_of_builtIn_or_import (parents p hp))
  have hitem : Piece.Fit m.Mentions parent (m.itemPieces union) := by
    unfold itemPieces
    split
    · exact htext
    · next item hlink => exact (hinner (.link hlink)).under
  have hobject : Piece.Fit m.Mentions parent
      (objectPieces (m.properties.map (signaturePieces none union))) := by
    refine .objectPieces hscope fun q hq => ?_
    obtain ⟨s, hs, rfl⟩ := List.mem_map.mp hq
    exact (Piece.Fit.signaturePieces hscope (hinner (.property hs))).under
  have halternatives : ∀ q ∈ (m.parents.map fun p => [Piece.name p]) ++
      m.properties.map (typePieces none union), Piece.Fit m.Mentions parent q := by
    intro q hq
    rcases List.mem_append.mp hq with hq | hq
    · exact hparents q hq
    · obtain ⟨s, hs, rfl⟩ := List.mem_map.mp hq
      exact (hinner (.property hs)).under
  rw [typePieces_eq]
  refine .orNullPieces hscope ?_
  cases hshape : m.shape with
  | enum => exact .enumPieces hscope htext union
  | array =>
    exact .append (.cons (.mark hscope "Array<" (by decide)) hitem) (.mark hscope ">" (by decide))
  | dictionary =>
    refine .append (.cons (.text ?_) hitem) (.mark hscope ">" (by decide))
    intro w hw
    have hwords : words "Dictionary<" = [TypeExpr.dictionary] := by decide
    rw [hwords, List.mem_singleton] at hw
    exact .inr (hw ▸ dictionary hshape)
  | oneOf => exact .joinTypes hscope (by decide) halternatives
  | anyOf => exact .joinTypes hscope (by decide) halternatives
  | allOf =>
    refine .joinTypes hscope (by decide) fun q hq => ?_
    rcases List.mem_append.mp hq with hq | hq
    · exact hparents q hq
    · split_ifs at hq
      · exact absurd hq List.not_mem_nil
      · obtain rfl := List.mem_singleton.mp hq
        exact hobject
  | interface => exact hobject
  | reference => exact htext
  | generic => exact htext

theorem Complete.fit_nested {m s : Model} (h : m.Complete) (hs : s = m ∨ Nested m s)
    (parent : Option String) (union : Bool) :
    Piece.Fit m.Mentions parent (s.typePieces parent union) := by
  rcases hs with rfl | hs
  · exact h.fit_typePieces parent union
  · obtain ⟨hcomplete, himports⟩ := h.nested hs
    exact (hcomplete.fit_typePieces parent union).mono fun n hn => hn.imp_right (himports n)

/-- A definition may address enumerations in the namespace of the model itself. -/
theorem Complete.fit_definitionPieces {m : Model} (h : m.Complete) (union : Bool) :
    Piece.Fit m.Mentions (some m.name) (m.definitionPieces union) := by
  have hscope : ∀ t ∈ languageTypes, m.Mentions t := fun t ht => .inl ht
  unfold definitionPieces
  split_ifs
  · refine .orNullPieces hscope (.joinTypes hscope (by decide) fun q hq => ?_)
    rcases List.mem_append.mp hq with hq | hq
    · obtain ⟨p, hp, rfl⟩ := List.mem_map.mp hq
      exact .name (mentions_of_builtIn_or_import (h.parents p hp))
    · obtain rfl := List.mem_singleton.mp hq
      refine .objectPieces hscope fun q hq => ?_
      obtain ⟨s, hs, rfl⟩ := List.mem_map.mp hq
      have hnested := h.fit_nested (.inr (.single (.property hs))) (some m.name) union
      exact .signaturePieces hscope hnested
  · exact (h.fit_typePieces none union).under

/-- A name that stands in the file of a model: of the language, its own, or imported. -/
def InFile (m : Model) (name : String) : Prop :=
  name ∈ languageTypes ∨ name = m.name ∨ name ∈ m.fileImports ∨
    name = TypeExpr.dictionary ∧ TypeExpr.dictionary ∈ m.imports

theorem mem_fileImports {m : Model} {name : String} :
    name ∈ m.fileImports ↔ name ∈ m.imports ∧ name ≠ m.name ∧ name ≠ TypeExpr.dictionary := by
  simp [fileImports]

theorem Mentions.inFile {m : Model} {name : String} (h : m.Mentions name) : m.InFile name := by
  rcases h with h | h
  · exact .inl h
  · by_cases hname : name = m.name
    · exact .inr (.inl hname)
    · by_cases hdictionary : name = TypeExpr.dictionary
      · exact .inr (.inr (.inr ⟨hdictionary, hdictionary ▸ h⟩))
      · exact .inr (.inr (.inl (mem_fileImports.mpr ⟨h, hname, hdictionary⟩)))

theorem Complete.pairwise_fileImports {m : Model} (h : m.Complete) :
    m.fileImports.Pairwise (· < ·) := pairwise_sortNames (h.type.nodup.filter _)

end Model

/-- A model imports all that it and the models in it mention, so that its file has every type name
that is written in it. -/
theorem ApiDocument.imports_complete {doc : ApiDocument} {pending : List String}
    {isDefinition : Bool} {name : Option String} {schema : Node} {m : Model}
    (h : doc.build pending isDefinition name schema = .ok m) :
    (∀ s, m.Nested s → ∀ n ∈ s.imports, n ∈ m.imports) ∧
    (∀ s, s = m ∨ m.Nested s →
      (∀ p ∈ s.parents, p ∈ TypeExpr.builtIns ∨ p ∈ m.imports) ∧
      (s.shape = .dictionary → TypeExpr.dictionary ∈ m.imports) ∧
      (∀ w ∈ words s.type.text, w ∈ TypeExpr.builtIns ∨ w ∈ m.imports) ∧
      ∀ parent union, Piece.join (s.typePieces parent union) = s.typeExpression parent union ∧
        Piece.Fit m.InFile parent (s.typePieces parent union)) ∧
    (∀ union, Piece.join (m.definitionPieces union) = m.definition union ∧
      Piece.Fit m.InFile (some m.name) (m.definitionPieces union)) ∧
    m.fileImports.Pairwise (· < ·) ∧ m.name ∉ m.fileImports := by
  have hm := complete_of_built (built_of_build h)
  refine ⟨fun s hs => (hm.nested hs).2, ?_, ?_, hm.pairwise_fileImports, ?_⟩
  · intro s hs
    have hin : s.Complete ∧ ∀ n ∈ s.imports, n ∈ m.imports := by
      rcases hs with rfl | hs
      · exact ⟨hm, fun _ hn => hn⟩
      · exact hm.nested hs
    refine ⟨fun p hp => ?_, fun hd => hin.2 _ (hin.1.dictionary hd), fun w hw => ?_, ?_⟩
    · exact (hin.1.parents p hp).imp_right (hin.2 p)
    · exact (hin.1.type.words w hw).imp_right (hin.2 w)
    · intro parent union
      exact ⟨s.join_typePieces parent union,
        (hm.fit_nested hs parent union).mono fun _ => Model.Mentions.inFile⟩
  · intro union
    exact ⟨m.join_definitionPieces union,
      (hm.fit_definitionPieces union).mono fun _ => Model.Mentions.inFile⟩
  · intro hn
    exact (Model.mem_fileImports.mp hn).2.1 rfl

namespace PetHome

def reference : Node := .map [(.str "$ref", .str "#/components/schemas/Pet")]

def pets : Node := .map [(.str "type", .str "object"), (.str "additionalProperties", reference)]

def home : Node := .map [(.str "properties", .map [(.str "pets", pets)])]

def document : ApiDocument :=
  { dialect := .openApi3, root := .map [], schemas := [(.str "Pet", .map [])] }

def petsModel : Model :=
  { name := "pets", shape := .dictionary,
    type := { text := "Pet", base := "Pet", imports := ["Pet", "Dictionary"] } }

def homeModel : Model :=
  { name := "Home", isDefinition := true, type := { imports := ["Pet", "Dictionary"] },
    properties := [petsModel] }

theorem build_pets : document.build [] false (some "pets") pets = .ok petsModel := by
  let outline : Outline := ⟨some "pets", false, none, false, false, none, []⟩
  have htype : Model.inDictionary (TypeExpr.ofText "#/components/schemas/Pet") =
      petsModel.type := by decide +kernel
  have hitem : document.buildItem [] reference =
      .ok (TypeExpr.ofText "#/components/schemas/Pet", none) := by
    rw [ApiDocument.buildItem]
    rfl
  calc document.build [] false (some "pets") pets
    _ = document.buildStructure [] outline pets := by
      rw [ApiDocument.build]
      rfl
    _ = (do
        let item ← document.buildItem [] reference
        outline.complete
          { shape := .dictionary, type := Model.inDictionary item.1, link := item.2 }) := by
      rw [ApiDocument.buildStructure]
      rfl
    _ = outline.complete { shape := .dictionary, type := petsModel.type } := by
      rw [hitem, ← htype]
      rfl
    _ = .ok petsModel := rfl

theorem build_home : document.build [] true (some "Home") home = .ok homeModel := by
  let outline : Outline := ⟨some "Home", true, none, false, false, none, []⟩
  calc document.build [] true (some "Home") home
    _ = document.buildStructure [] outline home := by
      rw [ApiDocument.build]
      rfl
    _ = (do
        let properties ← document.buildProperties [] [] [(.str "pets", pets)]
        outline.complete (Model.ofProperties properties)) := by
      rw [ApiDocument.buildStructure]
      rfl
    _ = outline.complete (Model.ofProperties [petsModel]) := by
      rw [ApiDocument.buildProperties, ApiDocument.buildProperties]
      simp only [Scalar.text?, build_pets]
      rfl
    _ = .ok homeModel := rfl

/-- A home imports the pets in its property and the dictionary that holds them. -/
theorem home_imports : document.build [] true (some "Home") home = .ok homeModel ∧
    homeModel.Nested petsModel ∧ (∀ n ∈ petsModel.imports, n ∈ homeModel.imports) ∧
    TypeExpr.dictionary ∈ homeModel.imports ∧
    Piece.Fit homeModel.InFile (some "Home") (homeModel.definitionPieces false) := by
  have hnested : homeModel.Nested petsModel := .single (.property List.mem_cons_self)
  obtain ⟨himports, hwithin, hdefinition, -⟩ := ApiDocument.imports_complete build_home
  exact ⟨build_home, hnested, himports petsModel hnested,
    (hwithin petsModel (.inr hnested)).2.1 rfl, (hdefinition false).2⟩

end PetHome

end ClientGen
