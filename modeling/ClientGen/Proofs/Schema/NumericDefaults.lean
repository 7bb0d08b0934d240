import ClientGen.Proofs.Document.References
import ClientGen.Proofs.Document.Texts
import ClientGen.Proofs.Number.Nearest
import ClientGen.Proofs.Number.NumberTexts
import ClientGen.Schema.DefaultLiteral

/-! Defaults of numeric schemas that are integers. A number keeps its digits, and a text has those
of the double that is nearest to it. -/

namespace ClientGen

namespace DefaultLiteral

open Double

/-- The text of a number that an integer is read as: the digits of a nearest double, or the name of
an infinity. -/
theorem numberText_ofDecimal (n : Int) :
    (n.natAbs < 2 ^ 1024 - 2 ^ 970 → ∃ i, Nearest n i ∧
      numberText (ofDecimal (decide (n < 0)) n.natAbs 0) = toString i) ∧
    (2 ^ 1024 - 2 ^ 970 ≤ n.natAbs →
      numberText (ofDecimal (decide (n < 0)) n.natAbs 0) = if n < 0 then "-inf" else "inf") := by
  obtain ⟨hin, hbeyond⟩ := ofDecimal_whole (decide (n < 0)) n.natAbs
  constructor
  · intro hlt
    refine ⟨Numeral.signed (decide (n < 0)) (rounded n.natAbs), ?_, ?_⟩
    · have hnearest := nearest_rounded hlt
      by_cases hneg : n < 0
      · have hn : -(n.natAbs : Int) = n := by omega
        have hopposite := hnearest.neg
        rw [hn] at hopposite
        rwa [Numeral.signed, if_pos (decide_eq_true hneg)]
      · have hn : (n.natAbs : Int) = n := by omega
        rw [hn] at hnearest
        rwa [Numeral.signed, decide_eq_false hneg, if_neg Bool.false_ne_true]
    · rw [numberText, hin hlt]
  · intro hle
    rw [numberText, hbeyond hle]
    by_cases hneg : n < 0
    · rw [if_pos hneg, decide_eq_true hneg]
      rfl
    · rw [if_neg hneg, decide_eq_false hneg]
      rfl

section Schema

variable {schema value : Node} {keyword : String}

/-- The type of a schema with a default, unless this is nothing, must be a keyword or absent. -/
theorem ofSchema_eq_error {kind : Node} {fault : Fault} (hkind : schema.member "type" = .ok kind)
    (hfault : isNumberKeyword kind = .error fault) (hdefault : schema.get? "default" = some value)
    (hnull : value ≠ .null) : ofSchema schema = .error fault := by
  unfold ofSchema
  rw [Node.mentions_of_get? hdefault, Node.required_of_get? hdefault, hkind]
  simp only [ok_bind, Bool.not_true, Bool.false_eq_true, if_false, hfault]
  rfl

/-- The default of a numeric schema is read as a number, unless it is a truth value. -/
theorem ofSchema_eq_ofNumeric (htype : schema.get? "type" = some (.str keyword))
    (hkeyword : keyword ∈ numberKeywords) (hdefault : schema.get? "default" = some value)
    (hnull : value ≠ .null) (hbool : ∀ b, value ≠ .bool b) :
    ofSchema schema = (ofNumeric value).map some := by
  have hnumeric : isNumberKeyword (.str keyword) = .ok true :=
    congrArg Except.ok (List.contains_iff_mem.mpr hkeyword)
  unfold ofSchema
  rw [Node.mentions_of_get? hdefault, Node.required_of_get? hdefault, Node.member_of_get? htype]
  simp only [ok_bind, Bool.not_true, Bool.false_eq_true, if_false, hnumeric]
  cases ofNumeric value <;> rfl

/-- A number as the default of a numeric schema is written in its digits; if these are too many for
a numeral, it is an error. A text of the digits is read as a double first: it is written in the
digits of a nearest double, which are those of the number where it is a double itself, or as an
infinity where the number is beyond the doubles. -/
theorem integer_literal (htype : schema.get? "type" = some (.str keyword))
    (hkeyword : keyword ∈ numberKeywords) (n : Int) :
    (schema.get? "default" = some (.int n) →
      (n.natAbs < 10 ^ Numeral.digitLimit → ofSchema schema = .ok (some (toString n))) ∧
      (10 ^ Numeral.digitLimit ≤ n.natAbs → ofSchema schema = .error (.malformed .tooLong))) ∧
    (schema.get? "default" = some (.str (toString n)) →
      ∃ text, ofSchema schema = .ok (some text) ∧ (text = toString n ↔ Exact n) ∧
        (n.natAbs < 2 ^ 1024 - 2 ^ 970 → ∃ i, Nearest n i ∧ text = toString i) ∧
        (2 ^ 1024 - 2 ^ 970 ≤ n.natAbs → text = if n < 0 then "-inf" else "inf")) := by
  constructor
  · intro hdefault
    rw [ofSchema_eq_ofNumeric htype hkeyword hdefault (by simp) (by simp), ofNumeric]
    refine ⟨fun hlt => ?_, fun hle => ?_⟩
    · rw [Node.shown_int (Numeral.hasText_iff.mpr hlt)]
      rfl
    · rw [Node.shown_int_of_long (mt Numeral.hasText_iff.mp (Nat.not_lt.mpr hle))]
      rfl
  · intro hdefault
    obtain ⟨hin, hbeyond⟩ := numberText_ofDecimal n
    refine ⟨numberText (ofDecimal (decide (n < 0)) n.natAbs 0), ?_, ?_, hin, hbeyond⟩
    · rw [ofSchema_eq_ofNumeric htype hkeyword hdefault (by simp) (by simp), ofNumeric]
      simp only [Numeral.double?_toString]
      rfl
    · rcases Nat.lt_or_ge n.natAbs (2 ^ 1024 - 2 ^ 970) with hlt | hle
      · obtain ⟨i, hi, htext⟩ := hin hlt
        rw [htext, exact_iff_of_nearest hi]
        exact ⟨Numeral.toString_inj, congrArg toString⟩
      · have hnot : ¬ Exact n := fun h => absurd h.natAbs_lt (Nat.not_lt.mpr hle)
        refine iff_of_false (fun htext => ?_) hnot
        have hletter : 'i' ∈ (toString n).toList := by
          rw [← htext, hbeyond hle]
          split_ifs <;> decide
        exact absurd (Numeral.mem_toString hletter) (by decide)

end Schema

namespace Serial

/-- A default between two doubles. -/
def number : Node := .map [(.str "type", .str "integer"), (.str "default", .int 9007199254740993)]

def text : Node := .map [(.str "type", .str "integer"), (.str "default", .str "9007199254740993")]

theorem text_integer_literal :
    text.get? "type" = some (.str "integer") ∧ "integer" ∈ numberKeywords ∧
      text.get? "default" = some (.str (toString (9007199254740993 : Int))) ∧
      ∃ literal, ofSchema text = .ok (some literal) ∧
        (literal = toString (9007199254740993 : Int) ↔ Exact 9007199254740993) := by
  have htype : text.get? "type" = some (.str "integer") := rfl
  have hdefault : text.get? "default" = some (.str (toString (9007199254740993 : Int))) := rfl
  obtain ⟨literal, hliteral, hexact, -⟩ :=
    (integer_literal htype (by decide) 9007199254740993).2 hdefault
  exact ⟨htype, by decide, hdefault, literal, hliteral, hexact⟩

/-- The text of a number is written as another number than the number itself. -/
theorem literals_differ :
    ofSchema number = .ok (some "9007199254740993") ∧
      ofSchema text = .ok (some "9007199254740992") :=
  ⟨rfl, rfl⟩

end Serial

end DefaultLiteral

end ClientGen
