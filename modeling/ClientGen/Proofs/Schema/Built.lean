import ClientGen.Proofs.Schema.BuildStep

/-! How the model of a schema comes about: one rule for each shape, without the bookkeeping of the
builder. Facts about all models that are built follow by induction on these rules. -/

namespace ClientGen.ApiDocument

/-- What the builder makes of a node inside a schema. -/
def IsPart (doc : ApiDocument) (node : Node) : Part → Prop
  | .named ref => Pointer.reference? node = some ref ∧ doc.IsNamed ref
  | .inline schema _ => schema = node

/-- The rules by which a schema has a model. -/
inductive Built (doc : ApiDocument) : Bool → Option String → Node → Model → Prop
  | noSchema {isDefinition name schema outline} (hm : schema.isMap = false)
      (ho : Outline.ofSchema doc.dialect isDefinition name (.map []) = .ok outline) :
      Built doc isDefinition name schema (outline.applied { shape := .generic })
  | again {isDefinition name schema outline ref}
      (ho : Outline.ofSchema doc.dialect isDefinition name schema = .ok outline)
      (hr : Pointer.reference? schema = some ref) (hs : doc.dialect.isSchemaRef ref = false) :
      Built doc isDefinition name schema (outline.applied { shape := .generic })
  | named {isDefinition name schema outline ref}
      (ho : Outline.ofSchema doc.dialect isDefinition name schema = .ok outline)
      (hr : Pointer.reference? schema = some ref) (hn : doc.IsNamed ref) :
      Built doc isDefinition name schema
        (outline.applied { shape := .reference, type := TypeExpr.ofText ref })
  | target {isDefinition name schema ref node m}
      (hr : Pointer.reference? schema = some ref) (hs : doc.dialect.isSchemaRef ref = false)
      (ht : doc.resolve ref = .ok node) (hb : Built doc isDefinition name node m) :
      Built doc isDefinition name schema m
  | enum {isDefinition name schema outline m}
      (ho : Outline.ofSchema doc.dialect isDefinition name schema = .ok outline)
      (hr : Pointer.reference? schema = none) (he : enumModel? doc.dialect schema = .ok (some m)) :
      Built doc isDefinition name schema (outline.applied m)
  | array {isDefinition name schema outline kind node part}
      (ho : Outline.ofSchema doc.dialect isDefinition name schema = .ok outline)
      (hr : Pointer.reference? schema = none) (hi : arrayItems? kind schema = some node)
      (hp : doc.IsPart node part)
      (hb : ∀ s m, part = .inline s m → Built doc false (some "") s m) :
      Built doc isDefinition name schema
        (outline.applied { shape := .array, type := part.type, link := part.link })
  | dictionary {isDefinition name schema outline kind node part}
      (ho : Outline.ofSchema doc.dialect isDefinition name schema = .ok outline)
      (hr : Pointer.reference? schema = none) (hv : dictionaryValues? kind schema = some node)
      (hp : doc.IsPart node part)
      (hb : ∀ s m, part = .inline s m → Built doc false (some "") s m) :
      Built doc isDefinition name schema
        (outline.applied
          { shape := .dictionary, type := Model.inDictionary part.type, link := part.link })
  | composition {isDefinition name schema outline shape branches parts required}
      {members : List Member}
      (ho : Outline.ofSchema doc.dialect isDefinition name schema = .ok outline)
      (hr : Pointer.reference? schema = none)
      (hc : composition? doc.dialect schema = some (shape, branches))
      (hp : List.Forall₂ doc.IsPart (branches.filter Node.isMap) parts)
      (hb : ∀ s m, .inline s m ∈ parts → Built doc false (some "") s m)
      (he : (properties? schema).getD [] = members.map Member.entry)
      (hq : members = [] ∨ requiredKeys schema = .ok required)
      (hm : ∀ p ∈ members, Built doc false p.key.text? p.schema p.model) :
      Built doc isDefinition name schema
        (outline.applied (((Composition.ofParts shape parts).append
          (.ofProperties (members.map (Member.property required)))).model shape))
  | interface {isDefinition name schema outline required} {members : List Member}
      (ho : Outline.ofSchema doc.dialect isDefinition name schema = .ok outline)
      (hr : Pointer.reference? schema = none)
      (he : properties? schema = some (members.map Member.entry))
      (hq : requiredKeys schema = .ok required)
      (hm : ∀ p ∈ members, Built doc false p.key.text? p.schema p.model) :
      Built doc isDefinition name schema
        (outline.applied (Model.ofProperties (members.map (Member.property required))))
  | keyword {isDefinition name schema outline kind}
      (ho : Outline.ofSchema doc.dialect isDefinition name schema = .ok outline)
      (hr : Pointer.reference? schema = none) (hk : schema.member "type" = .ok kind) :
      Built doc isDefinition name schema
        (outline.applied { shape := .generic, type := keywordType kind })

variable {doc : ApiDocument} {pending : List String}

theorem isPart_of_makesPart {node : Node} {part : Part} (h : doc.MakesPart pending node part) :
    doc.IsPart node part := by
  cases part with
  | named ref => exact h
  | inline schema m => exact h.1

/-- Every model that is built comes about by the rules. -/
theorem built_of_build {isDefinition : Bool} {name : Option String} {schema : Node} {m : Model}
    (h : build doc pending isDefinition name schema = .ok m) :
    Built doc isDefinition name schema m := by
  induction pending, schema using buildInduction generalizing isDefinition name m with
  | step pending schema targets smaller =>
    have hpart {node : Node} {part : Part} (hlt : sizeOf node < sizeOf schema)
        (hp : doc.MakesPart pending node part) (s : Node) (m : Model) (heq : part = .inline s m) :
        Built doc false (some "") s m := by
      subst heq
      obtain ⟨rfl, -, hb⟩ := hp
      exact smaller s hlt hb
    have hmembers {members : List Member}
        (hm : doc.MakesMembers pending ((properties? schema).getD []) members) :
        ∀ p ∈ members, Built doc false p.key.text? p.schema p.model :=
      fun p hp => smaller p.schema (hm.sizeOf_lt hp) (hm.models p hp)
    cases step_of_build h with
    | noSchema hmap ho => exact .noSchema hmap ho
    | target hr hs hp ht hb => exact .target hr hs ht (targets _ hp _ hb)
    | made hmap ho _ hm =>
      cases hm with
      | named hr hn => exact .named ho hr hn
      | again hr hs _ => exact .again ho hr hs
      | enum hr he => exact .enum ho hr he
      | plain hr _ hk hm =>
        cases hm with
        | array hi hp =>
          exact .array ho hr hi (isPart_of_makesPart hp) (hpart (sizeOf_arrayItems? hi) hp)
        | dictionary _ hv hp =>
          exact .dictionary ho hr hv (isPart_of_makesPart hp)
            (hpart (sizeOf_dictionaryValues? hv) hp)
        | @composition shape branches parts required members _ _ hc hp hm hq =>
          refine .composition ho hr hc (hp.imp fun _ _ => isPart_of_makesPart) ?_ hm.entries
            (hq.imp_left hm.eq_nil) (hmembers hm)
          intro s m hmem
          obtain ⟨⟨hbranch, -⟩, -, hb⟩ := branch_of_inline hp hmem
          have hlt := sizeOf_composition? hc
          have hbranch := List.sizeOf_lt_of_mem hbranch
          exact smaller s (by omega) hb
        | interface _ _ _ he hm hq =>
          refine .interface ho hr ?_ hq (hmembers hm)
          obtain ⟨es, hes⟩ := Option.isSome_iff_exists.mp he
          rw [hes, ← hm.entries, hes, Option.getD_some]
        | keyword => exact .keyword ho hr hk

end ClientGen.ApiDocument
