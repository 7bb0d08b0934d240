import ClientGen.Proofs.Document.Reordered
import ClientGen.Proofs.Schema.BuildStep
import ClientGen.Proofs.Schema.Expansion

/-! The order of the named schemas does not matter for the models of schemas. -/

namespace ClientGen

/-! Schemas that are alike say the same. -/

namespace Node.Alike

variable {a b : Node} (h : a.Alike b)
include h

theorem defaultLiteral : DefaultLiteral.ofSchema a = DefaultLiteral.ofSchema b := by
  unfold DefaultLiteral.ofSchema
  rw [h.mentions (by decide), h.required (by decide), h.member (by decide)]

theorem constraints :
    Constraints.fieldsOfSchema a.entries = Constraints.fieldsOfSchema b.entries := by
  have hkeys : ∀ k ∈ Constraints.keywords, k.1 ≠ "schemas" := by decide
  exact Constraints.fieldsOfSchema_congr fun k hk => h.get? (hkeys k hk)

theorem isNullable (dialect : Dialect) : dialect.isNullable a = dialect.isNullable b := by
  unfold Dialect.isNullable
  rw [h.member (by decide), h.member (by decide), h.member (by decide)]

theorem outline (dialect : Dialect) (isDefinition : Bool) (name : Option String) :
    Outline.ofSchema dialect isDefinition name a =
      Outline.ofSchema dialect isDefinition name b := by
  unfold Outline.ofSchema
  rw [h.member (by decide), h.member (by decide), h.isNullable, h.defaultLiteral, h.constraints]

theorem listedMembers (dialect : Dialect) :
    ApiDocument.listedMembers dialect a = ApiDocument.listedMembers dialect b := by
  unfold ApiDocument.listedMembers Dialect.hasEnum
  rw [h.member (by decide), h.member (by decide), h.member (by decide), h.member (by decide)]

theorem describedMembers (dialect : Dialect) :
    ApiDocument.describedMembers dialect a = ApiDocument.describedMembers dialect b := by
  unfold ApiDocument.describedMembers Dialect.hasDescriptionEnum
  rw [h.member (by decide), h.member (by decide)]

theorem enumModel? (dialect : Dialect) :
    ApiDocument.enumModel? dialect a = ApiDocument.enumModel? dialect b := by
  unfold ApiDocument.enumModel?
  rw [h.listedMembers, h.describedMembers]

theorem arrayItems? (kind : Node) :
    ApiDocument.arrayItems? kind a = ApiDocument.arrayItems? kind b := by
  unfold ApiDocument.arrayItems?
  rw [h.get? (by decide)]

theorem dictionaryValues? (kind : Node) :
    ApiDocument.dictionaryValues? kind a = ApiDocument.dictionaryValues? kind b := by
  unfold ApiDocument.dictionaryValues?
  rw [h.get? (by decide)]

theorem composition? (dialect : Dialect) :
    ApiDocument.composition? dialect a = ApiDocument.composition? dialect b := by
  unfold ApiDocument.composition? ApiDocument.branches?
  cases dialect <;> simp [Dialect.compositions, List.findSome?_cons, h.get?]

theorem properties? : ApiDocument.properties? a = ApiDocument.properties? b := by
  unfold ApiDocument.properties?
  rw [h.get? (by decide)]

theorem requiredKeys : ApiDocument.requiredKeys a = ApiDocument.requiredKeys b := by
  unfold ApiDocument.requiredKeys
  rw [h.member (by decide)]

end Node.Alike

namespace ApiDocument

/-- Two documents that name the same schemas, and whose references lead to alike values. -/
structure Reordered (doc other : ApiDocument) : Prop where
  dialect : doc.dialect = other.dialect
  named : ∀ ref, doc.namedSchema? ref = other.namedSchema? ref
  references : ∀ ref, ref ∈ Pointer.references doc.root ↔ ref ∈ Pointer.references other.root
  resolve : ∀ ref, Related Node.Alike (doc.resolve ref) (other.resolve ref)

theorem buildStructure_alike {doc : ApiDocument} {a b : Node} (h : a.Alike b)
    (pending : List String) (outline : Outline) :
    doc.buildStructure pending outline a = doc.buildStructure pending outline b := by
  rw [buildStructure, buildStructure, h.member (by decide)]
  refine bind_congr fun kind => ?_
  rw [h.arrayItems?, h.dictionaryValues?, h.composition?, h.properties?, h.requiredKeys]

namespace Reordered

variable {doc other : ApiDocument} (h : doc.Reordered other)
include h

theorem typeOfReference (ref : String) : doc.typeOfReference ref = other.typeOfReference ref := by
  unfold ApiDocument.typeOfReference
  rw [h.named]

/-- Alike schemas have the same model in both documents, or the same fault. -/
theorem build (p : List String) (a : Node) : ∀ {q b}, p.Perm q → a.Alike b → ∀ isDefinition name,
    doc.build p isDefinition name a = other.build q isDefinition name b := by
  induction p, a using buildInduction with
  | step p a targets parts =>
    intro q b hpq hab isDefinition name
    rw [ApiDocument.build, ApiDocument.build, hab.isMap, hab.outline, ← h.dialect, hab.reference?]
    split
    · rfl
    refine bind_congr fun outline => ?_
    cases hr : Pointer.reference? b with
    | some ref =>
      simp only [h.typeOfReference, hpq.mem_iff]
      split
      · rfl
      split
      · next hp =>
        exact (h.resolve ref).bind_eq fun target counterpart htarget =>
          targets ref (hpq.mem_iff.mpr hp) target (hpq.erase ref) htarget isDefinition name
      · rfl
    | none =>
      have hparts : ∀ node ∈ ApiDocument.parts doc.dialect a, ∀ d n,
          doc.build p d n node = other.build q d n node :=
        fun node hnode d n => parts node (sizeOf_parts hnode) hpq (.same node) d n
      rw [hab.enumModel?, buildStructure_congr h.dialect h.typeOfReference hparts,
        buildStructure_alike hab]

theorem model {a b : Node} (hab : a.Alike b) (isDefinition : Bool) (name : String) :
    doc.model a isDefinition name = other.model b isDefinition name := by
  have hperm : (doc.references a).Perm (other.references b) := by
    rw [List.perm_ext_iff_of_nodup (nodup_references a) (nodup_references b)]
    simp only [mem_references, h.references, h.dialect, hab.mem_references, implies_true]
  exact h.build _ _ hperm hab isDefinition _

theorem anonymousModel {a b : Node} (hab : a.Alike b) :
    doc.anonymousModel a = other.anonymousModel b := h.model hab false ""

end Reordered

end ApiDocument

end ClientGen
