import ClientGen.Api.Client
import ClientGen.Proofs.Schema.Reordered
import ClientGen.Proofs.StableSort

/-! The order of the named schemas does not matter for the operations of paths. -/

namespace ClientGen

/-- Alike values under one key. -/
inductive Node.AlikeAt {κ : Type} : κ × Node → κ × Node → Prop
  | mk (key : κ) {a b : Node} (h : a.Alike b) : AlikeAt (key, a) (key, b)

/-- Tables of alike responses. -/
structure ResponseTable.Alike (s t : ResponseTable) : Prop where
  numbered : List.Forall₂ Node.AlikeAt s.numbered t.numbered
  default : Option.Rel Node.Alike s.default t.default

namespace ResponseTable.Alike

variable {s t : ResponseTable} (h : s.Alike t)
include h

private theorem sorted : List.Forall₂ Node.AlikeAt
    (s.numbered.mergeSort fun a b => a.1 ≤ b.1) (t.numbered.mergeSort fun a b => a.1 ≤ b.1) :=
  forall₂_mergeSort h.numbered fun ⟨_, _⟩ ⟨_, _⟩ => rfl

theorem success? : Option.Rel Node.AlikeAt s.success? t.success? := by
  have hsorted := h.sorted
  unfold ResponseTable.success?
  generalize s.numbered.mergeSort _ = xs, t.numbered.mergeSort _ = ys at hsorted ⊢
  induction hsorted with
  | nil => exact .none
  | cons hpq _ ih =>
    obtain ⟨code, hab⟩ := hpq
    rw [List.find?_cons, List.find?_cons]
    dsimp only
    split
    · exact .some ⟨code, hab⟩
    · exact ih

theorem failures : List.Forall₂ Node.AlikeAt s.failures t.failures :=
  List.rel_filter (fun _ _ ⟨_, _⟩ => Iff.rfl) h.sorted

end ResponseTable.Alike

namespace Node.Alike

open ApiDocument

variable {a b : Node} (h : a.Alike b)
include h

theorem parameterKey? : ApiDocument.parameterKey? a = ApiDocument.parameterKey? b := by
  unfold ApiDocument.parameterKey?
  simp only [h.mentions, h.required, ne_eq, String.reduceEq, not_false_eq_true]

theorem errorOf (code : Int) : ApiDocument.errorOf code a = ApiDocument.errorOf code b := by
  unfold ApiDocument.errorOf
  rw [h.member (by decide)]

theorem defaultError : ApiDocument.defaultError a = ApiDocument.defaultError b := by
  unfold ApiDocument.defaultError
  rw [h.member (by decide)]

theorem mergeInto {key : ParameterKey} {merged others : List (ParameterKey × Node)}
    (hm : List.Forall₂ Node.AlikeAt merged others) :
    List.Forall₂ Node.AlikeAt (ApiDocument.mergeInto key a merged)
      (ApiDocument.mergeInto key b others) := by
  induction hm with
  | nil => exact .cons ⟨key, h⟩ .nil
  | cons hpq hrest ih =>
    obtain ⟨k, hkept⟩ := hpq
    rw [ApiDocument.mergeInto, ApiDocument.mergeInto]
    split
    · exact .cons ⟨k, h⟩ hrest
    · exact .cons ⟨k, hkept⟩ ih

end Node.Alike

/-- The errors of a table are those of one with alike responses. -/
theorem ResponseTable.Alike.errors {s t : ResponseTable} (h : s.Alike t) :
    (s.failures.mapM fun (code, node) => ApiDocument.errorOf code node) =
      t.failures.mapM fun (code, node) => ApiDocument.errorOf code node := by
  refine mapM_eq_mapM (h.failures.imp fun p q hpq => ?_)
  obtain ⟨code, hab⟩ := hpq
  exact hab.errorOf code

namespace ApiDocument

/-- The named schemas are no method of a path. -/
theorem operationsOfItem_holder (doc : ApiDocument) (path : Scalar) (pathParameters value : Node)
    (before after : Entries) :
    doc.operationsOfItem path pathParameters (before ++ (.str "schemas", value) :: after) =
      doc.operationsOfItem path pathParameters (before ++ after) := by
  induction before with
  | nil =>
    have hkey : HttpMethod.ofKey? "schemas" = none := by decide
    rw [List.nil_append, List.nil_append, operationsOfItem, hkey]
  | cons e rest ih =>
    obtain ⟨key, node⟩ := e
    cases key with
    | str key => simp only [List.cons_append, operationsOfItem, ih]
    | _ => rfl

namespace Reordered

variable {doc other : ApiDocument} (h : doc.Reordered other)
include h

theorem dereference (node : Node) :
    Related Node.Alike (doc.dereference node) (other.dereference node) := by
  have hnode := Pointer.related_dereference (R := fun _ => Node.Alike) h.resolve (fun hab => hab)
    h.references node
  refine hnode.imp fun x y hxy => ?_
  rcases hxy with rfl | ⟨_, -, hxy⟩
  · exact .same x
  · exact hxy

/-! Parameters. -/

section

variable {a b : Node} (hab : a.Alike b)
include hab

theorem parameterOf (m : Model) (location : Location) (ref : Option String) :
    doc.parameterOf a m location ref = other.parameterOf b m location ref := by
  unfold ApiDocument.parameterOf ApiDocument.parameterDefault ApiDocument.referencedDefault
    ApiDocument.wireName
  simp only [hab.required, hab.member, hab.defaultLiteral, h.dialect, h.named, ne_eq,
    String.reduceEq, not_false_eq_true]

theorem parameterOfSchema {s t : Node} (hst : s.Alike t) (location : Location) :
    doc.parameterOfSchema a s location = other.parameterOfSchema b t location := by
  unfold ApiDocument.parameterOfSchema
  rw [h.anonymousModel hst, hst.reference?]
  simp only [h.parameterOf hab]

theorem parameter : doc.parameter a = other.parameter b := by
  unfold ApiDocument.parameter
  rw [h.dialect]
  cases other.dialect with
  | swagger2 =>
    unfold swaggerParameter Location.ofParameter
    simp only [h.parameterOfSchema hab hab]
    simp only [hab.required, hab.member, hab.defaultLiteral, h.parameterOf hab,
      h.parameterOfSchema hab (.same _), h.anonymousModel (.same _), ne_eq, String.reduceEq,
      not_false_eq_true]
  | openApi3 =>
    unfold openApiParameter Location.ofParameter
    simp only [h.parameterOfSchema hab hab]
    simp only [hab.required, hab.member, hab.reference?, h.parameterOf hab,
      h.parameterOfSchema hab (.same _), ne_eq, String.reduceEq, not_false_eq_true]

theorem response (code : Option Int) : doc.response code a = other.response code b := by
  unfold ApiDocument.response ApiDocument.responseSchema?
  simp only [hab.member, h.dialect, h.anonymousModel (.same _), ne_eq, String.reduceEq,
    not_false_eq_true]

end

theorem bodyParameter? (operation : Node) :
    doc.bodyParameter? operation = other.bodyParameter? operation := by
  unfold ApiDocument.bodyParameter?
  rw [h.dialect]
  cases other.dialect with
  | swagger2 => rfl
  | openApi3 =>
    refine bind_congr fun raw => ?_
    split
    · rfl
    refine (h.dereference raw).bind_eq fun body counterpart hbody => ?_
    simp only [hbody.member, h.anonymousModel (.same _), h.parameterOf (.same _), ne_eq,
      String.reduceEq, not_false_eq_true]

theorem mergeParameters (raws : List Node) {merged others : List (ParameterKey × Node)}
    (hm : List.Forall₂ Node.AlikeAt merged others) :
    Related (List.Forall₂ Node.AlikeAt) (doc.mergeParameters merged raws)
      (other.mergeParameters others raws) := by
  induction raws generalizing merged others with
  | nil => exact .ok hm
  | cons raw rest ih =>
    rw [ApiDocument.mergeParameters, ApiDocument.mergeParameters, isSchemaParameter,
      isSchemaParameter, h.dialect]
    refine .ite_bind (.ok (.same raw)) (h.dereference raw) fun a b hab => ?_
    simp only [hab.parameterKey?]
    refine .bind_same fun key => ?_
    cases key with
    | none => exact ih hm
    | some key => exact ih (hab.mergeInto hm)

theorem parameters (path : String) (pathLevel operationLevel : Node) :
    doc.parameters path pathLevel operationLevel =
      other.parameters path pathLevel operationLevel := by
  unfold ApiDocument.parameters
  refine bind_congr fun outer => bind_congr fun inner => ?_
  refine (h.mergeParameters _ .nil).bind_eq fun merged others hm => ?_
  let known (e : ParameterKey × Node) : Bool := (Location.ofNode? (.scalar e.1.2)).isSome
  have hknown : List.Forall₂ Node.AlikeAt (merged.filter known) (others.filter known) :=
    List.rel_filter (fun _ _ ⟨_, _⟩ => Iff.rfl) hm
  have hresolved : (merged.filter known).mapM (fun e => doc.parameter e.2) =
      (others.filter known).mapM fun e => other.parameter e.2 :=
    mapM_eq_mapM (hknown.imp fun _ _ ⟨_, hab⟩ => h.parameter hab)
  exact congrArg (· >>= _) hresolved

theorem tabulate (responses : Entries) {s t : ResponseTable} (hst : s.Alike t) :
    Related ResponseTable.Alike (doc.tabulate s responses) (other.tabulate t responses) := by
  induction responses generalizing s t with
  | nil => exact .ok hst
  | cons e rest ih =>
    obtain ⟨key, raw⟩ := e
    rw [ApiDocument.tabulate, ApiDocument.tabulate]
    refine .ite_bind (h.dereference raw) (.ok (.same _)) fun a b hab => ?_
    refine .bind_same fun text => ?_
    split
    · exact ih ⟨hst.numbered, .some hab⟩
    refine .bind_same fun code => ?_
    cases code with
    | none => exact ih hst
    | some code =>
      exact ih ⟨List.rel_append hst.numbered (.cons ⟨code, hab⟩ .nil), hst.default⟩

theorem results (responses : Node) : doc.results responses = other.results responses := by
  unfold ApiDocument.results
  refine bind_congr fun es => (h.tabulate es ⟨.nil, .none⟩).bind_eq fun s t hst => ?_
  have hsuccess := hst.success?
  have hdefault := hst.default
  rw [hst.errors]
  generalize s.success? = x, t.success? = y, s.default = u, t.default = v at hsuccess hdefault ⊢
  cases hsuccess with
  | none =>
    cases hdefault with
    | none => rfl
    | some hd => simp only [h.response hd]
  | some hs =>
    obtain ⟨code, hab⟩ := hs
    cases hdefault with
    | none => simp only [h.response hab]
    | some hd => simp only [h.response hab, hd.defaultError]

theorem operation (path : String) (method : HttpMethod) (node pathParameters : Node) :
    doc.operation path method node pathParameters =
      other.operation path method node pathParameters := by
  unfold ApiDocument.operation
  simp only [h.parameters, h.bodyParameter?, h.results]

theorem operationsOfItem (path : Scalar) (pathParameters : Node) (item : Entries) :
    doc.operationsOfItem path pathParameters item =
      other.operationsOfItem path pathParameters item := by
  induction item with
  | nil => rfl
  | cons e rest ih =>
    obtain ⟨key, node⟩ := e
    cases key with
    | str key =>
      rw [ApiDocument.operationsOfItem, ApiDocument.operationsOfItem]
      simp only [ih, h.operation]
    | _ => rfl

/-- Paths have the same operations if their items do not differ in more than the value of the named
schemas, which is no method of a path. -/
theorem operationsOfPaths {ds es paths : Entries}
    (hitems : ∀ e ∈ paths, Related (fun x y => x = y ∨ Node.ReplacedAt ds es ["schemas"] x y)
      (doc.dereference e.2) (other.dereference e.2)) :
    doc.operationsOfPaths paths = other.operationsOfPaths paths := by
  induction paths with
  | nil => rfl
  | cons e rest ih =>
    obtain ⟨path, raw⟩ := e
    obtain ⟨hitem, hrest⟩ := List.forall_mem_cons.mp hitems
    rw [ApiDocument.operationsOfPaths, ApiDocument.operationsOfPaths, ih hrest]
    refine hitem.bind_eq fun x y hxy => ?_
    rcases hxy with rfl | hxy
    · simp only [h.operationsOfItem]
    · cases hxy with
      | under =>
        simp only [Node.member, Node.members, Entries.get?_append_cons_ne, ok_bind,
          operationsOfItem_holder, h.operationsOfItem, ne_eq, String.reduceEq, not_false_eq_true]

end Reordered

end ApiDocument

end ClientGen
