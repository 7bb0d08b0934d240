import ClientGen.Checked
import ClientGen.Proofs.Outcome

/-! Records that are read without an issue: what was read from each of their fields, also where a
field has several sources. -/

namespace ClientGen

namespace Checked

variable {α β : Type} {m : Checked α} {a : α}

theorem result_eq_ok : m.result = .ok a ↔ m.issues = [] ∧ m.value = a := by
  unfold result
  split_ifs with h
  · simp [List.isEmpty_iff.mp h]
  · simp [mt List.isEmpty_iff.mpr h]

theorem mk_result {b : α} {issues : List Issue} :
    (⟨b, issues⟩ : Checked α).result = .ok a ↔ issues = [] ∧ b = a := result_eq_ok

theorem bind_result {f : α → Checked β} {b : β} :
    (m >>= f).result = .ok b ↔ ∃ a, m.result = .ok a ∧ (f a).result = .ok b := by
  simp only [result_eq_ok]
  change m.issues ++ (f m.value).issues = [] ∧ (f m.value).value = b ↔ _
  rw [List.append_eq_nil_iff]
  constructor
  · rintro ⟨⟨hm, hf⟩, hb⟩
    exact ⟨m.value, ⟨hm, rfl⟩, hf, hb⟩
  · rintro ⟨_, ⟨hm, rfl⟩, hf, hb⟩
    exact ⟨⟨hm, hf⟩, hb⟩

theorem pure_result {b : α} : (pure a : Checked α).result = .ok b ↔ a = b := by
  rw [result_eq_ok]
  exact and_iff_right rfl

theorem within_result {segment : String} :
    (m.within segment).result = .ok a ↔ m.result = .ok a := by
  rw [result_eq_ok, result_eq_ok, within, List.map_eq_nil_iff]

theorem issue_result_ne {kind : IssueKind} {filler : α} : (issue kind filler).result ≠ .ok a := by
  rw [Ne, result_eq_ok]
  rintro ⟨h, -⟩
  cases h

end Checked

namespace FieldReader

variable {α : Type} {reader : FieldReader α} {missing a b : α} {source : Option Node}
  {sources : List (Option Node)}

/-- What a field holds that has several sources. The first one that says something counts, and what
it says has to be readable; where none does, the field holds what stands for a missing one. -/
inductive FirstRead (reader : FieldReader α) (missing : α) : List (Option Node) → α → Prop
  | missing : FirstRead reader missing [] missing
  | read {node : Node} {a : α} {sources : List (Option Node)} (h : (reader node).result = .ok a) :
      FirstRead reader missing (some node :: sources) a
  | silent {a : α} {sources : List (Option Node)} (h : FirstRead reader missing sources a) :
      FirstRead reader missing (none :: sources) a

namespace FirstRead

/-- The sources of a field leave no choice. -/
theorem unique (h : FirstRead reader missing sources a) (hb : FirstRead reader missing sources b) :
    a = b := by
  induction h with
  | missing =>
    cases hb
    rfl
  | read h =>
    cases hb with
    | read hb => exact Except.ok.inj (h.symm.trans hb)
  | silent _ ih =>
    cases hb with
    | silent hb => exact ih hb

theorem cons_some_iff {node : Node} :
    FirstRead reader missing (some node :: sources) a ↔ (reader node).result = .ok a := by
  constructor
  · intro h
    cases h with
    | read h => exact h
  · exact .read

theorem cons_none_iff :
    FirstRead reader missing (none :: sources) a ↔ FirstRead reader missing sources a := by
  constructor
  · intro h
    cases h with
    | silent h => exact h
  · exact .silent

theorem nil_iff : FirstRead reader missing [] a ↔ a = missing := by
  constructor
  · rintro ⟨⟩
    rfl
  · rintro rfl
    exact .missing

/-- Later sources matter through what they say together. -/
theorem cons_congr {others : List (Option Node)} (h : FirstRead reader missing sources b)
    (hother : FirstRead reader missing others b) :
    FirstRead reader missing (source :: sources) a ↔
      FirstRead reader missing (source :: others) a := by
  cases source with
  | some node => rw [cons_some_iff, cons_some_iff]
  | none =>
    rw [cons_none_iff, cons_none_iff]
    constructor
    · intro ha
      exact h.unique ha ▸ hother
    · intro ha
      exact hother.unique ha ▸ h

end FirstRead

theorem field_result {es : Entries} {name : String} :
    (field es name reader missing).result = .ok a ↔
      FirstRead reader missing [es.get? name] a := by
  unfold field
  cases es.get? name with
  | some node => rw [FirstRead.cons_some_iff, Checked.within_result]
  | none => rw [FirstRead.cons_none_iff, FirstRead.nil_iff, Checked.pure_result, eq_comm]

theorem record_result {reader : Entries → Checked α} {node : Node} :
    (record reader missing node).result = .ok a ↔
      ∃ es, node = .map es ∧ (reader es).result = .ok a := by
  constructor
  · intro h
    cases node with
    | map es => exact ⟨es, rfl, h⟩
    | scalar s => exact absurd h Checked.issue_result_ne
    | list items => exact absurd h Checked.issue_result_ne
  · rintro ⟨es, rfl, h⟩
    exact h

end FieldReader

end ClientGen
