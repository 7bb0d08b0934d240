import ClientGen.Proofs.Api.ParameterModels
import ClientGen.Proofs.Api.ServiceNames
import ClientGen.Proofs.Document.Texts

/-! The defaults of parameters: they are literals, and no literal is empty. -/

namespace ClientGen

theorem append_ne_empty {s t : String} (h : t ≠ "") : s ++ t ≠ "" :=
  fun hempty => h (String.append_eq_empty_iff.mp hempty).2

theorem ofList_ne_empty {s : List Char} (h : s ≠ []) : String.ofList s ≠ "" :=
  mt String.ofList_eq_empty_iff.mp h

theorem int_text_ne_empty (i : Int) : toString i ≠ "" := by
  have hnat (n : Nat) : toString n ≠ "" := by
    rw [Nat.toString_eq_ofList_toDigits]
    exact ofList_ne_empty Nat.toDigits_ne_nil
  cases i with
  | ofNat n => exact hnat n
  | negSucc n => exact append_ne_empty (hnat (n + 1))

namespace Double

theorem positional_ne_nil (digits : List Char) (point : Int) : positional digits point ≠ [] := by
  unfold positional
  split_ifs
  · exact List.cons_ne_nil _ _
  · dsimp only
    split_ifs <;> simp

theorem scientific_ne_nil (digits : List Char) (exponent : Int) :
    scientific digits exponent ≠ [] := by
  simp [scientific]

theorem text_ne_empty (x : Double) : x.text ≠ "" := by
  cases x with
  | nan => decide
  | infinite negative => cases negative <;> decide
  | finite negative m e =>
    unfold text
    dsimp only
    split_ifs
    all_goals refine append_ne_empty ?_
    all_goals first
      | decide
      | exact ofList_ne_empty (positional_ne_nil _ _)
      | exact ofList_ne_empty (scientific_ne_nil _ _)

end Double

theorem Node.shown_int_ne_empty {i : Int} {text : String} (h : (Node.int i).shown = .ok text) :
    text ≠ "" := by
  obtain ⟨-, rfl⟩ := Node.shown_eq_ok.mp h
  exact int_text_ne_empty i

namespace Json

theorem writeDouble_ne_empty (x : Double) : writeDouble x ≠ "" := by
  cases x with
  | nan => decide
  | infinite negative => cases negative <;> decide
  | finite negative m e => exact Double.text_ne_empty (.finite negative m e)

theorem enclose_ne_empty (style : Style) (depth : Nat) (opening : String) {closing : String}
    (h : closing ≠ "") (items : List String) : style.enclose depth opening closing items ≠ "" := by
  unfold Style.enclose
  split_ifs <;> exact append_ne_empty h

theorem write_ne_empty {style : Style} {value : Node} {text : String}
    (h : write style value = .ok text) : text ≠ "" := by
  unfold write at h
  cases value with
  | list items =>
    rw [writeAt] at h
    obtain ⟨items, -, rfl⟩ := map_eq_ok.mp h
    exact enclose_ne_empty _ _ _ (by decide) _
  | map es =>
    rw [writeAt] at h
    obtain ⟨items, -, rfl⟩ := map_eq_ok.mp h
    exact enclose_ne_empty _ _ _ (by decide) _
  | scalar s =>
    rw [writeAt] at h
    cases s with
    | null => exact Except.ok.inj h ▸ by decide
    | bool b => exact Except.ok.inj h ▸ by cases b <;> decide
    | int i => exact Node.shown_int_ne_empty h
    | float x => exact Except.ok.inj h ▸ writeDouble_ne_empty x
    | str s => exact Except.ok.inj h ▸ ofList_ne_empty (List.cons_ne_nil _ _)
    | date _ => cases h
    | time _ => cases h
    | bytes _ => cases h

end Json

namespace DefaultLiteral

theorem ofNumeric_ne_empty {value : Node} {text : String} (h : ofNumeric value = .ok text) :
    text ≠ "" := by
  unfold ofNumeric at h
  split at h
  · exact Node.shown_int_ne_empty h
  · exact Except.ok.inj h ▸ Double.text_ne_empty _
  · split at h
    · refine Except.ok.inj h ▸ ?_
      unfold numberText
      split
      · exact int_text_ne_empty _
      · exact Double.text_ne_empty _
    · exact Json.write_ne_empty h
  · exact Json.write_ne_empty h

theorem ofValue_ne_empty {value : Node} {text : String} (h : ofValue value = .ok text) :
    text ≠ "" := by
  unfold ofValue at h
  split at h
  · exact Except.ok.inj h ▸ ofList_ne_empty (List.cons_ne_nil _ _)
  · next b => exact Except.ok.inj h ▸ by cases b <;> decide
  · exact Node.shown_int_ne_empty h
  · exact Except.ok.inj h ▸ Double.text_ne_empty _
  · exact Json.write_ne_empty h

theorem ofSchema_ne_empty {schema : Node} {text : String} (h : ofSchema schema = .ok (some text)) :
    text ≠ "" := by
  obtain ⟨mentioned, -, h⟩ := bind_eq_ok.mp h
  cases mentioned with
  | false => cases h
  | true =>
    obtain ⟨value, -, h⟩ := bind_eq_ok.mp h
    split at h
    · exact Option.some.inj (pure_eq_ok.mp h) ▸ by decide
    · obtain ⟨kind, -, h⟩ := bind_eq_ok.mp h
      obtain ⟨numeric, -, h⟩ := bind_eq_ok.mp h
      split at h
      all_goals
        obtain ⟨literal, hliteral, h⟩ := bind_eq_ok.mp h
        obtain rfl := Option.some.inj (pure_eq_ok.mp h)
      · exact ofValue_ne_empty hliteral
      · exact ofNumeric_ne_empty hliteral
      · exact ofValue_ne_empty hliteral

end DefaultLiteral

/-- No default, or a literal with some text. -/
def IsLiteral (defaultValue : Option Node) : Prop :=
  ∀ value, defaultValue = some value → ∃ text, text ≠ "" ∧ value = .str text

theorem isLiteral_none : IsLiteral none := by
  intro value h
  cases h

theorem isLiteral_of_ofSchema {schema : Node} {literal : Option String}
    (h : DefaultLiteral.ofSchema schema = .ok literal) : IsLiteral (literal.map .str) := by
  intro value hvalue
  obtain ⟨text, rfl, rfl⟩ := Option.map_eq_some_iff.mp hvalue
  exact ⟨text, DefaultLiteral.ofSchema_ne_empty h, rfl⟩

namespace ApiDocument

variable {doc : ApiDocument} {pending : List String}

theorem isLiteral_of_outline {dialect : Dialect} {isDefinition : Bool} {name : Option String}
    {schema : Node} {outline : Outline}
    (h : Outline.ofSchema dialect isDefinition name schema = .ok outline) :
    IsLiteral (outline.defaultValue.map .str) := by
  obtain ⟨-, -, -, -, hdefault⟩ := ofSchema_eq_ok h
  exact isLiteral_of_ofSchema hdefault

/-- A model has the default of its own schema, or that of the schema that it refers to. -/
theorem isLiteral_of_build {isDefinition : Bool} {name : Option String} {schema : Node} {m : Model}
    (h : doc.build pending isDefinition name schema = .ok m) : IsLiteral m.defaultValue := by
  induction pending, schema using buildInduction with
  | step pending schema targets smaller =>
    cases step_of_build h with
    | noSchema _ ho => exact isLiteral_of_outline ho
    | target _ _ hp _ hb => exact targets _ hp _ hb
    | made _ ho => exact isLiteral_of_outline ho

/-- A parameter has the default of its model, its object, or the schema that it refers to. -/
theorem isLiteral_of_parameterDefault {node : Node} {m : Model} {ref : Option String}
    {defaultValue : Option Node} (hm : IsLiteral m.defaultValue)
    (h : doc.parameterDefault node m ref = .ok defaultValue) : IsLiteral defaultValue := by
  unfold parameterDefault at h
  split at h
  · exact pure_eq_ok.mp h ▸ hm
  obtain ⟨own, hown, h⟩ := bind_eq_ok.mp h
  split at h
  · exact pure_eq_ok.mp h ▸ isLiteral_of_ofSchema hown
  · split at h
    · exact pure_eq_ok.mp h ▸ isLiteral_none
    · exact pure_eq_ok.mp h ▸ isLiteral_none
    · obtain ⟨literal, hliteral, h⟩ := bind_eq_ok.mp h
      obtain rfl := pure_eq_ok.mp h
      unfold referencedDefault at hliteral
      split at hliteral
      · exact isLiteral_of_ofSchema hliteral
      · exact Except.ok.inj hliteral ▸ isLiteral_none

theorem isLiteral_of_parameterOf {node : Node} {m : Model} {location : Location}
    {ref : Option String} {p : Parameter} (hm : IsLiteral m.defaultValue)
    (h : doc.parameterOf node m location ref = .ok p) : IsLiteral p.model.defaultValue := by
  obtain ⟨_, _, _, _, _, -, -, -, hdefault, -, rfl⟩ := parameterOf_eq_ok h
  exact isLiteral_of_parameterDefault hm hdefault

theorem isLiteral_of_parameter {node : Node} {p : Parameter} (h : doc.parameter node = .ok p) :
    IsLiteral p.model.defaultValue := by
  obtain ⟨_, _, _, -, hm, h⟩ := parameter_eq_ok h
  cases hm with
  | schema _ hm => exact isLiteral_of_parameterOf (isLiteral_of_build hm) h
  | dictionary _ _ _ _ hdefault => exact isLiteral_of_parameterOf (isLiteral_of_ofSchema hdefault) h
  | any => exact isLiteral_of_parameterOf isLiteral_none h

theorem isLiteral_of_bodyParameter? {node : Node} {p : Parameter}
    (h : doc.bodyParameter? node = .ok (some p)) : IsLiteral p.model.defaultValue := by
  obtain ⟨-, _, _, _, _, _, _, q, _, -, -, hm, hq, rfl⟩ := bodyParameter?_eq_ok h
  change IsLiteral q.model.defaultValue
  cases hm with
  | schema _ _ hm => exact isLiteral_of_parameterOf (isLiteral_of_build hm) hq
  | any => exact isLiteral_of_parameterOf isLiteral_none hq

/-- The parameters of a client have literals with some text as their defaults, if any. -/
theorem isLiteral_of_client {client : Client} (h : doc.client = .ok client) {s : Service}
    (hs : s ∈ client.services) {op : Operation} (hop : op ∈ s.operations) {p : Parameter}
    (hp : p ∈ op.parameters) : IsLiteral p.model.defaultValue := by
  obtain ⟨e, own, -, hown, -, k, rfl⟩ := (operations_of_service (parts_of_client h).2 hs).2 op hop
  rcases parameter_of_operation hown hp with ⟨_, hparameter⟩ | hbody
  · exact isLiteral_of_parameter hparameter
  · exact isLiteral_of_bodyParameter? hbody

end ApiDocument

end ClientGen
