import ClientGen.Proofs.Schema.Inside
import ClientGen.Proofs.Schema.MemberNames

/-! The members of enumerations at any depth of a model, and when their names differ. -/

namespace ClientGen.ApiDocument

variable {doc : ApiDocument} {pending : List String}

theorem MakesStructure.shape_ne_enum {schema kind : Node} {m : Model}
    (h : doc.MakesStructure pending schema kind m) : m.shape ≠ .enum := by
  cases h with
  | array => exact Shape.noConfusion
  | dictionary => exact Shape.noConfusion
  | @composition shape _ _ _ _ _ _ hc =>
    change shape ≠ .enum
    rcases composition?_shape hc with rfl | rfl | rfl <;> decide
  | interface => exact Shape.noConfusion
  | keyword => exact Shape.noConfusion

/-- An enumeration has the members of a source in a schema that is led to. -/
theorem source_of_build {isDefinition : Bool} {name : Option String} {schema : Node} {m : Model}
    (h : doc.build pending isDefinition name schema = .ok m) (henum : m.shape = .enum) :
    ∃ node source, doc.LeadsTo schema node ∧ MemberSource.StandsIn doc.dialect node source ∧
      source.members = .ok m.members := by
  induction pending, schema using buildInduction with
  | step pending schema targets smaller =>
    cases step_of_build h with
    | noSchema => cases henum
    | target hr hs hp ht hb =>
      obtain ⟨node, source, hl, hsource⟩ := targets _ hp _ hb
      exact ⟨node, source, LeadsTo.trans (.target .self hr hs ht) hl, hsource⟩
    | made _ _ _ hm =>
      cases hm with
      | named => cases henum
      | again => cases henum
      | enum _ he =>
        obtain ⟨source, members, hstands, hmembers, -, rfl⟩ := source_of_enumModel? he
        exact ⟨schema, source, .self, hstands, hmembers⟩
      | plain _ _ _ hm => exact absurd henum hm.shape_ne_enum

/-- Every enumeration in a model has the members of one source: a list of values, that list with
the names of an extension, or a description. Names from the list alone differ from each other; those
from an extension or a description are taken as they come. -/
theorem names_of_enumeration {schema : Node} {isDefinition : Bool} {name : String} {m s : Model}
    (h : doc.model schema isDefinition name = .ok m) (hs : m.Holds s) (henum : s.shape = .enum) :
    ∃ node source, doc.LeadsTo schema node ∧ MemberSource.StandsIn doc.dialect node source ∧
      source.members = .ok s.members ∧ ((s.members.map (·.name)).Nodup ↔ source.Apart) := by
  obtain ⟨place, hl, hmade⟩ := inside_of_holds h hs
  obtain ⟨_, _, _, r, hb, hshape, hmembers, -⟩ := hmade.exists_build
  obtain ⟨node, source, hn, hstands, hsource⟩ := source_of_build hb (hshape ▸ henum)
  rw [← hmembers] at hsource
  exact ⟨node, source, hl.trans hn, hstands, hsource, MemberSource.nodup_members hsource⟩

namespace PetKinds

def document : ApiDocument where
  dialect := .swagger2
  root := .map []
  schemas := []

/-- Two values that an extension gives one name. -/
def kind : Node :=
  .map [(.str "enum", .list [.int 1, .int 2]),
    (.str "x-enum-varnames", .list [.str "Cat", .str "Cat"])]

/-- Two numbers whose names differ in their case only. -/
def size : Node := .map [(.str "type", .str "integer"), (.str "description", .str "big=1,BIG=2")]

def pet : Node := .map [(.str "properties", .map [(.str "kind", kind)])]

def kindMembers : List EnumEntry :=
  [{ name := "Cat", value := "1", type := "number" },
    { name := "Cat", value := "2", type := "number" }]

def kindModel : Model := { Model.ofMembers "number" kindMembers with name := "kind" }

def petModel : Model := { Model.ofProperties [kindModel] with name := "Pet", isDefinition := true }

theorem build_kind (pending : List String) :
    document.build pending false (some "kind") kind = .ok kindModel := by
  rw [build]
  rfl

theorem model_pet : document.model pet true "Pet" = .ok petModel := by
  have hmembers (pending : List String) : document.MakesMembers pending [(.str "kind", kind)]
      [⟨.str "kind", kind, kindModel⟩] :=
    ⟨rfl, List.forall_mem_singleton.mpr (build_kind pending)⟩
  exact (build_of_makes rfl rfl
    (.plain rfl rfl rfl (.interface rfl rfl rfl rfl (hmembers _) rfl))).trans rfl

theorem holds_kind : petModel.Holds kindModel := .single (.property List.mem_cons_self)

theorem names_kind : document.model pet true "Pet" = .ok petModel ∧ petModel.Holds kindModel ∧
    kindModel.shape = .enum ∧
    ∃ node source, document.LeadsTo pet node ∧
      MemberSource.StandsIn document.dialect node source ∧
      source.members = .ok kindModel.members ∧
      ((kindModel.members.map (·.name)).Nodup ↔ source.Apart) :=
  ⟨model_pet, holds_kind, rfl, names_of_enumeration model_pet holds_kind rfl⟩

def sizeMembers : List EnumEntry :=
  [{ name := "BIG", value := "1", type := "number" },
    { name := "BIG", value := "2", type := "number" }]

def sizeModel : Model :=
  { Model.ofMembers "number" sizeMembers with description := some "big=1,BIG=2" }

/-- Members have one name where an extension says so, and where the words of a description differ in
their case only. -/
theorem names_clash :
    (document.model pet true "Pet" = .ok petModel ∧ petModel.Holds kindModel ∧
      kindModel.shape = .enum ∧ ¬ (kindModel.members.map (·.name)).Nodup) ∧
    document.model size false "" = .ok sizeModel ∧ sizeModel.shape = .enum ∧
      ¬ (sizeModel.members.map (·.name)).Nodup := by
  have hdescribed : describedMembers .swagger2 size = .ok sizeMembers := by decide +kernel
  have henum : enumModel? .swagger2 size = .ok (some (Model.ofMembers "number" sizeMembers)) :=
    enumModel?_eq_ok.mpr ⟨[], rfl, .inr ⟨rfl, _, hdescribed, rfl⟩⟩
  have hsize : document.model size false "" = .ok sizeModel :=
    (build_of_makes rfl rfl (.enum rfl henum)).trans rfl
  exact ⟨⟨model_pet, holds_kind, rfl, by decide⟩, hsize, rfl, by decide⟩

end PetKinds

end ClientGen.ApiDocument
