import ClientGen.Code.ServiceFile
import ClientGen.Proofs.Api.Defaults
import ClientGen.Proofs.StableSort
import Mathlib.Data.List.Forall2

/-! The parameters in the heads of methods: which of them a call may leave out. -/

namespace ClientGen

namespace Parameter

/-- A declaration without a mark and a default. -/
def bare (p : Parameter) (union : Bool) : String :=
  p.name ++ ": " ++ p.model.typeExpression none union

def marked (p : Parameter) (union : Bool) : String :=
  p.name ++ "?: " ++ p.model.typeExpression none union

/-- A declaration of a parameter that a call may leave out: it has a mark or a default. -/
def Omissible (p : Parameter) (union : Bool) (declaration : String) : Prop :=
  declaration = p.marked union ∨ ∃ literal, declaration = p.bare union ++ " = " ++ literal

def Mandatory (p : Parameter) : Prop := p.model.isRequired ∧ p.model.defaultValue = none

variable {p : Parameter} {union : Bool}

theorem bare_ne_marked : p.bare union ≠ p.marked union := by
  intro h
  have hlength := congrArg String.length h
  simp only [bare, marked, String.length_append] at hlength
  have hmark : ": ".length < "?: ".length := by decide
  omega

theorem not_omissible_bare : ¬ p.Omissible union (p.bare union) := by
  rintro (hmarked | ⟨literal, hdefault⟩)
  · exact bare_ne_marked hmarked
  · have hlength := congrArg String.length hdefault
    simp only [String.length_append] at hlength
    have hequals : 0 < " = ".length := by decide
    omega

/-- A positional parameter is declared with a mark or a default, unless it is mandatory. -/
theorem signature_cases (p : Parameter) (union : Bool) :
    p.Mandatory ∧ p.signature union = p.bare union ∨
      ¬ p.Mandatory ∧ p.Omissible union (p.signature union) := by
  unfold Mandatory signature
  cases p.model.defaultValue with
  | some value => exact .inr ⟨by simp, .inr ⟨value.display, rfl⟩⟩
  | none =>
    cases p.model.isRequired with
    | true => exact .inl ⟨⟨rfl, rfl⟩, by simp [bare]⟩
    | false =>
      refine .inr ⟨by simp, .inl ?_⟩
      simp [marked, String.append_assoc]

theorem omissible_signature_iff {p : Parameter} {union : Bool} :
    p.Omissible union (p.signature union) ↔ ¬ p.Mandatory := by
  rcases signature_cases p union with ⟨h, heq⟩ | ⟨h, hdeclared⟩
  · exact iff_of_false (heq ▸ not_omissible_bare) (not_not_intro h)
  · exact iff_of_true hdeclared h

theorem signatureRank_eq_zero_iff : p.signatureRank = 0 ↔ p.Mandatory := by
  unfold signatureRank Mandatory
  cases p.model.defaultValue <;> cases p.model.isRequired <;> simp

/-- In the order of a signature mandatory parameters come first. -/
theorem pairwise_signatureOrder (parameters : List Parameter) :
    (signatureOrder parameters).Pairwise fun a b => b.Mandatory → a.Mandatory := by
  refine (StablySorted.mergeSort signatureRank parameters).ascending.imp fun hle hb => ?_
  rw [← signatureRank_eq_zero_iff] at hb ⊢
  omega

end Parameter

namespace Code

/-- A literal counts as present, so that the test for an argument that a call must give agrees with
the marks. -/
theorem isMandatory_iff {p : Parameter} (hdefault : IsLiteral p.model.defaultValue) :
    isMandatory p ↔ p.Mandatory := by
  unfold isMandatory Parameter.Mandatory
  cases hvalue : p.model.defaultValue with
  | none => simp
  | some value =>
    obtain ⟨text, htext, rfl⟩ := hdefault value hvalue
    simp [Node.isPresent, Scalar.isPresent, htext]

theorem optionsDefault_cases {parameters : List Parameter}
    (hdefaults : ∀ p ∈ parameters, IsLiteral p.model.defaultValue) :
    (∀ p ∈ parameters, ¬ p.Mandatory) ∧ optionsDefault parameters = " = \x7b\x7d" ∨
      ¬ (∀ p ∈ parameters, ¬ p.Mandatory) ∧ optionsDefault parameters = "" := by
  have hany : parameters.any isMandatory ↔ ¬ ∀ p ∈ parameters, ¬ p.Mandatory := by
    rw [List.any_eq_true]
    push Not
    exact exists_congr fun p => and_congr_right fun hp => isMandatory_iff (hdefaults p hp)
  unfold optionsDefault
  split_ifs with h
  · exact .inr ⟨hany.mp h, rfl⟩
  · exact .inl ⟨not_not.mp (mt hany.mpr h), rfl⟩

namespace TypeScript

def methodStart (op : Operation) : String := "public static async " ++ op.name ++ "("

def methodResult (op : Operation) (union : Bool) : String :=
  "): Promise<" ++ returnType op union ++ "> \x7b"

/-- A parameter as a member of the type of an object of arguments. -/
def member (union : Bool) (p : Parameter) : String :=
  p.name ++ (if p.model.isRequired && p.model.defaultValue.isNone then "" else "?") ++ ": " ++
    p.model.typeExpression none union

theorem member_cases (union : Bool) (p : Parameter) :
    p.Mandatory ∧ member union p = p.bare union ∨
      ¬ p.Mandatory ∧ member union p = p.marked union := by
  unfold Parameter.Mandatory member
  split_ifs with h
  · refine .inl ⟨by simpa using h, by simp [Parameter.bare]⟩
  · refine .inr ⟨by simpa using h, by simp [Parameter.marked, String.append_assoc]⟩

theorem member_eq_marked_iff {union : Bool} {p : Parameter} :
    member union p = p.marked union ↔ ¬ p.Mandatory := by
  rcases member_cases union p with ⟨h, heq⟩ | ⟨h, heq⟩
  · exact iff_of_false (heq ▸ Parameter.bare_ne_marked) (not_not_intro h)
  · exact iff_of_true heq h

theorem methodHead_positional {op : Operation} {options : Options} (hne : op.parameters ≠ [])
    (hmode : options.useOptions = false) :
    methodHead op options =
      [methodStart op] ++ (Parameter.signatureOrder op.parameters).map
        (fun p => p.signature options.useUnionTypes ++ ",") ++
      [methodResult op options.useUnionTypes] := by
  unfold methodHead
  simp only [List.isEmpty_iff, hne, hmode, if_false]
  rfl

theorem methodHead_options {op : Operation} {options : Options} (hne : op.parameters ≠ [])
    (hmode : options.useOptions = true) :
    methodHead op options =
      closed (methodStart op) (op.parameters.map fun p => p.name ++ defaultText p ++ ",")
        ": \x7b" ++
      op.parameters.map (fun p => member options.useUnionTypes p ++ ",") ++
      ["\x7d" ++ optionsDefault op.parameters ++ methodResult op options.useUnionTypes] := by
  unfold methodHead
  simp only [List.isEmpty_iff, hne, hmode, if_false, if_true]
  rfl

/-- The last line of the head of a method with an object of arguments, after the default of the
object. -/
def optionsEnd (op : Operation) (union : Bool) (default : String) : String :=
  "\x7d" ++ default ++ methodResult op union

theorem optionsEnd_empty_ne (op : Operation) (union : Bool) :
    optionsEnd op union "" ≠ optionsEnd op union " = \x7b\x7d" := by
  intro h
  have hlength := congrArg String.length h
  simp only [optionsEnd, String.length_append] at hlength
  have hdefault : "".length < " = \x7b\x7d".length := by decide
  omega

/-- The members of the type of an object of arguments are all marked if no parameter is
mandatory. -/
theorem forall₂_marked_iff {parameters : List Parameter} {union : Bool} :
    List.Forall₂ (fun p line => line = p.marked union ++ ",") parameters
        (parameters.map fun p => member union p ++ ",") ↔
      ∀ p ∈ parameters, ¬ p.Mandatory := by
  rw [List.forall₂_map_right_iff, List.forall₂_same]
  refine forall₂_congr fun p _ => ?_
  rw [String.append_left_inj, member_eq_marked_iff]

/-- The parameters of a method are declared in a legal way. Positional parameters are sorted so that
none without a mark and a default comes after one that has either. An object of arguments has the
empty object as its default exactly if all its members have marks, which is so exactly if no
parameter is mandatory. -/
theorem methodHead_legal (op : Operation) (options : Options) (hne : op.parameters ≠ [])
    (hdefaults : ∀ p ∈ op.parameters, IsLiteral p.model.defaultValue) :
    let union := options.useUnionTypes
    let order := Parameter.signatureOrder op.parameters
    StablySorted Parameter.signatureRank op.parameters order ∧
    (order.Pairwise fun a b =>
      a.Omissible union (a.signature union) → b.Omissible union (b.signature union)) ∧
    (options.useOptions = false → methodHead op options =
      [methodStart op] ++ order.map (fun p => p.signature union ++ ",") ++
        [methodResult op union]) ∧
    (options.useOptions = true → ∃ arguments members last,
      methodHead op options =
        closed (methodStart op) arguments ": \x7b" ++ members ++ [last] ∧
      List.Forall₂ (fun p line => line = p.bare union ++ "," ∨ line = p.marked union ++ ",")
        op.parameters members ∧
      (last = optionsEnd op union "" ∨ last = optionsEnd op union " = \x7b\x7d") ∧
      (last = optionsEnd op union " = \x7b\x7d" ↔
        List.Forall₂ (fun p line => line = p.marked union ++ ",") op.parameters members) ∧
      (last = optionsEnd op union " = \x7b\x7d" ↔ ∀ p ∈ op.parameters, ¬ p.Mandatory)) := by
  intro union order
  have hlegal : order.Pairwise fun a b =>
      a.Omissible union (a.signature union) → b.Omissible union (b.signature union) := by
    refine (Parameter.pairwise_signatureOrder op.parameters).imp fun hab ha => ?_
    rw [Parameter.omissible_signature_iff] at ha ⊢
    exact mt hab ha
  refine ⟨.mergeSort _ _, hlegal, methodHead_positional hne, fun hmode => ?_⟩
  refine ⟨_, _, _, methodHead_options hne hmode, ?_, ?_⟩
  · rw [List.forall₂_map_right_iff, List.forall₂_same]
    intro p _
    rw [String.append_left_inj, String.append_left_inj]
    exact (member_cases union p).imp And.right And.right
  · rw [forall₂_marked_iff]
    rcases optionsDefault_cases hdefaults with ⟨hall, heq⟩ | ⟨hsome, heq⟩
    all_goals rw [heq, ← optionsEnd]
    · exact ⟨.inr rfl, iff_of_true rfl hall, iff_of_true rfl hall⟩
    · have hno := iff_of_false (optionsEnd_empty_ne op union) hsome
      exact ⟨.inl rfl, hno, hno⟩

namespace PetSearch

def limit : Parameter where
  model := { name := "limit", isRequired := true, defaultValue := some (.str "20") }
  location := .query
  wireName := "limit"

def tag : Parameter where
  model := { name := "tag" }
  location := .query
  wireName := "tag"

def owner : Parameter where
  model := { name := "owner", isRequired := true }
  location := .query
  wireName := "owner"

def search : Operation where
  service := "PetsService"
  name := "search"
  method := .get
  path := "/pets"
  parameters := [limit, tag, owner]

def options : Options := { useOptions := true }

/-- The owner comes first, and a call must give an object of arguments for its sake. -/
theorem methodHead_search :
    (search.parameters ≠ [] ∧ ∀ p ∈ search.parameters, IsLiteral p.model.defaultValue) ∧
    Parameter.signatureOrder search.parameters = [owner, limit, tag] ∧
    ∃ arguments members, methodHead search options =
      closed (methodStart search) arguments ": \x7b" ++ members ++
        [optionsEnd search false ""] := by
  have hne : search.parameters ≠ [] := by simp [search]
  have hdefaults : ∀ p ∈ search.parameters, IsLiteral p.model.defaultValue := by
    simp [search, limit, tag, owner, IsLiteral]
  obtain ⟨hsorted, -, -, hoptions⟩ := methodHead_legal search options hne hdefaults
  refine ⟨⟨hne, hdefaults⟩, hsorted.unique ⟨?_, ?_, ?_⟩, ?_⟩
  · have hperm : ([owner] ++ [limit, tag]).Perm ([limit, tag] ++ [owner]) :=
      List.perm_append_comm
    exact hperm
  · simp [Parameter.signatureRank, owner, limit, tag]
  · rintro (_ | _ | _ | k) <;> rfl
  · obtain ⟨arguments, members, last, hhead, -, hlast, -, hdefault⟩ := hoptions rfl
    have howner : ¬ ∀ p ∈ search.parameters, ¬ p.Mandatory := by
      simp [search, Parameter.Mandatory, owner]
    obtain rfl := hlast.resolve_right (mt hdefault.mp howner)
    exact ⟨arguments, members, hhead⟩

end PetSearch

end TypeScript

end Code

end ClientGen
