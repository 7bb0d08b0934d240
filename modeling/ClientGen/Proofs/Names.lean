import ClientGen.Api.Client
import Mathlib.Data.List.Nodup

/-! Lists of names without repetitions, in the order of their first occurrences or sorted. -/

namespace ClientGen

private theorem mem_distinct_go {x : String} (seen l : List String) :
    x ∈ distinct.go seen l ↔ x ∈ l ∧ x ∉ seen := by
  induction l generalizing seen with
  | nil => simp [distinct.go]
  | cons y l ih =>
    unfold distinct.go
    split_ifs with hy
    · rw [ih]
      grind
    · rw [List.mem_cons, ih]
      grind

@[simp] theorem mem_distinct {x : String} {l : List String} : x ∈ distinct l ↔ x ∈ l := by
  simp [distinct, mem_distinct_go]

private theorem nodup_distinct_go (seen l : List String) : (distinct.go seen l).Nodup := by
  induction l generalizing seen with
  | nil => exact List.nodup_nil
  | cons y l ih =>
    unfold distinct.go
    split_ifs with hy
    · exact ih seen
    · refine List.nodup_cons.mpr ⟨?_, ih (y :: seen)⟩
      simp [mem_distinct_go]

theorem nodup_distinct (l : List String) : (distinct l).Nodup := nodup_distinct_go [] l

private theorem pairwise_distinct_go (seen l : List String) :
    (distinct.go seen l).Pairwise fun a b => l.idxOf a < l.idxOf b := by
  induction l generalizing seen with
  | nil => exact List.Pairwise.nil
  | cons y l ih =>
    have hlater {s : List String} (hs : y ∈ s) :
        (distinct.go s l).Pairwise fun a b => (y :: l).idxOf a < (y :: l).idxOf b := by
      refine (ih s).imp_of_mem ?_
      intro a b ha hb hab
      have hya : y ≠ a := fun h => ((mem_distinct_go s l).mp ha).2 (h ▸ hs)
      have hyb : y ≠ b := fun h => ((mem_distinct_go s l).mp hb).2 (h ▸ hs)
      rw [List.idxOf_cons_ne l hya, List.idxOf_cons_ne l hyb]
      omega
    unfold distinct.go
    split_ifs with hy
    · exact hlater hy
    · refine List.pairwise_cons.mpr ⟨?_, hlater List.mem_cons_self⟩
      intro b hb
      have hyb : y ≠ b := by
        rintro rfl
        exact ((mem_distinct_go _ l).mp hb).2 List.mem_cons_self
      rw [List.idxOf_cons_self, List.idxOf_cons_ne l hyb]
      omega

/-- Distinct names stand in the order of their first occurrences. -/
theorem pairwise_distinct (l : List String) :
    (distinct l).Pairwise fun a b => l.idxOf a < l.idxOf b := pairwise_distinct_go [] l

private theorem distinct_go_go {seen s : List String} (h : s ⊆ seen) (l : List String) :
    distinct.go seen (distinct.go s l) = distinct.go seen l := by
  induction l generalizing seen s with
  | nil => rfl
  | cons y l ih =>
    rw [distinct.go]
    by_cases hy : y ∈ s
    · rw [if_pos hy, ih h, distinct.go, if_pos (h hy)]
    · rw [if_neg hy, distinct.go, distinct.go]
      by_cases hseen : y ∈ seen
      · rw [if_pos hseen, if_pos hseen, ih (List.cons_subset.mpr ⟨hseen, h⟩)]
      · rw [if_neg hseen, if_neg hseen, ih (List.cons_subset_cons y h)]

private theorem distinct_go_append (seen a b : List String) :
    distinct.go seen (a ++ distinct b) = distinct.go seen (a ++ b) := by
  induction a generalizing seen with
  | nil => exact distinct_go_go (List.nil_subset seen) b
  | cons y a ih =>
    rw [List.cons_append, List.cons_append, distinct.go, distinct.go, ih, ih]

/-- Names that are dropped early would be dropped later. -/
theorem distinct_append_distinct (a b : List String) :
    distinct (a ++ distinct b) = distinct (a ++ b) := distinct_go_append [] a b

private theorem distinct_go_eq (seen l : List String) :
    distinct.go seen l = (l.filter (· ∉ seen)).eraseDups := by
  induction l generalizing seen with
  | nil => rfl
  | cons y l ih =>
    rw [distinct.go]
    split_ifs with hy
    · rw [ih, List.filter_cons_of_neg (by simpa using hy)]
    · rw [ih, List.filter_cons_of_pos (by simpa using hy), List.eraseDups_cons, List.filter_filter]
      congr 2
      refine List.filter_congr fun x _ => ?_
      by_cases hx : x = y <;> simp [hx]

theorem distinct_eq_eraseDups (l : List String) : distinct l = l.eraseDups := by
  rw [distinct, distinct_go_eq]
  simp

@[simp] theorem mem_sortNames {x : String} {l : List String} : x ∈ sortNames l ↔ x ∈ l := by
  simp [sortNames]

/-- Sorted names without repetitions ascend strictly. -/
theorem pairwise_sortNames {l : List String} (h : l.Nodup) : (sortNames l).Pairwise (· < ·) := by
  have htrans (a b c : String) (hab : decide (a ≤ b)) (hbc : decide (b ≤ c)) : decide (a ≤ c) :=
    decide_eq_true (String.le_trans (of_decide_eq_true hab) (of_decide_eq_true hbc))
  have htotal (a b : String) : decide (a ≤ b) || decide (b ≤ a) := by
    simpa using String.le_total a b
  have hsorted : (sortNames l).Pairwise fun a b => decide (a ≤ b) :=
    List.pairwise_mergeSort htrans htotal l
  have hnodup : (sortNames l).Nodup := (List.mergeSort_perm l _).nodup_iff.mpr h
  refine (hsorted.and hnodup).imp ?_
  rintro a b ⟨hle, hne⟩
  exact String.not_le.mp fun hba => hne (String.le_antisymm (of_decide_eq_true hle) hba)

end ClientGen
