import ClientGen.Fault
import ClientGen.Proofs.Outcome

/-! Values with texts: no integer in them has too many digits. -/

namespace ClientGen.Node

variable {node : Node}

theorem shown_eq_ok {text : String} :
    node.shown = .ok text ↔ node.hasText ∧ node.display = text := by
  unfold shown
  split_ifs with h <;> simp [h]

theorem shown_eq_error {fault : Fault} :
    node.shown = .error fault ↔ ¬ node.hasText ∧ fault = .malformed .tooLong := by
  unfold shown
  split_ifs with h <;> simp [h, eq_comm]

theorem shown_int {i : Int} (h : Numeral.hasText i) : (Node.int i).shown = .ok (toString i) :=
  shown_eq_ok.mpr ⟨h, rfl⟩

theorem shown_int_of_long {i : Int} (h : ¬ Numeral.hasText i) :
    (Node.int i).shown = .error (.malformed .tooLong) :=
  shown_eq_error.mpr ⟨h, rfl⟩

end ClientGen.Node
