import ClientGen.Naming.Fresh
import Mathlib.Data.List.Nodup
import Mathlib.Data.List.Perm.Subperm

/-! Fresh names are free: numbered names differ from each other, so some number is not taken. -/

namespace ClientGen.Naming

private theorem base_ne_append (base separator : String) (k : Nat) :
    base ≠ base ++ separator ++ toString k := by
  intro h
  have hlist := congrArg String.toList h
  simp at hlist

/-- From one on, the number can be read off a numbered name. -/
theorem numbered_injective (base separator : String) {i j : Nat} (hi : 1 ≤ i) (hj : 1 ≤ j)
    (h : numbered base separator i = numbered base separator j) : i = j := by
  unfold numbered at h
  split_ifs at h with h1 h2 h2
  · omega
  · exact absurd h (base_ne_append base separator j)
  · exact absurd h.symm (base_ne_append base separator i)
  · have hdigits : Nat.toDigits 10 i = Nat.toDigits 10 j := by
      simpa [Nat.toString_eq_ofList_toDigits] using congrArg String.toList h
    calc i = Nat.ofDigitChars 10 (Nat.toDigits 10 i) 0 := Nat.ofDigitChars_ten_toDigits.symm
      _ = j := hdigits ▸ Nat.ofDigitChars_ten_toDigits

/-- A search ends at a numbered name; those that it has passed are taken. -/
theorem exists_seekFresh_eq (taken : List String) (base separator : String) (budget k : Nat) :
    ∃ i, k ≤ i ∧ seekFresh taken base separator budget k = numbered base separator i ∧
      ∀ j, k ≤ j → j < i → numbered base separator j ∈ taken := by
  induction budget generalizing k with
  | zero => exact ⟨k, Nat.le_refl k, rfl, fun j hle hlt => absurd hle (Nat.not_le.mpr hlt)⟩
  | succ budget ih =>
    unfold seekFresh
    split_ifs with htaken
    · obtain ⟨i, hle, heq, hpassed⟩ := ih (k + 1)
      refine ⟨i, by omega, heq, fun j hj hlt => ?_⟩
      rcases Nat.eq_or_lt_of_le hj with rfl | hj
      · exact htaken
      · exact hpassed j hj hlt
    · exact ⟨k, Nat.le_refl k, rfl, fun j hle hlt => absurd hle (Nat.not_le.mpr hlt)⟩

/-- A fresh name is its base, with or without a number. -/
theorem exists_fresh_eq (taken : List String) (base separator : String) :
    ∃ i, fresh taken base separator = numbered base separator i :=
  (exists_seekFresh_eq taken base separator _ 1).imp fun _ h => h.2.1

/-- A search that ends at a taken name has met taken names only. -/
theorem numbered_mem_of_seekFresh_mem (taken : List String) (base separator : String)
    (budget k : Nat) (h : seekFresh taken base separator budget k ∈ taken) :
    ∀ i ≤ budget, numbered base separator (k + i) ∈ taken := by
  induction budget generalizing k with
  | zero =>
    intro i hi
    obtain rfl : i = 0 := by omega
    exact h
  | succ budget ih =>
    unfold seekFresh at h
    split at h
    · next hk =>
      intro i hi
      cases i with
      | zero => exact hk
      | succ i =>
        have hnext := ih (k + 1) h i (by omega)
        rwa [show k + 1 + i = k + (i + 1) by omega] at hnext
    · next hk => exact absurd h hk

/-- Numbered names that are all taken are no more than the taken names. -/
theorem length_le_of_numbered_mem {taken : List String} {base separator : String} {n : Nat}
    (h : ∀ i, 1 ≤ i → i < 1 + n → numbered base separator i ∈ taken) : n ≤ taken.length := by
  let names := (List.range' 1 n).map (numbered base separator)
  have hnodup : names.Nodup := by
    refine List.Nodup.map_on ?_ List.nodup_range'
    intro i hi j hj hij
    rw [List.mem_range'_1] at hi hj
    exact numbered_injective base separator hi.1 hj.1 hij
  have hsub : names ⊆ taken := by
    intro name hname
    obtain ⟨i, hi, rfl⟩ := List.mem_map.mp hname
    rw [List.mem_range'_1] at hi
    exact h i hi.1 hi.2
  have hlen := (hnodup.subperm hsub).length_le
  simpa only [names, List.length_map, List.length_range'] using hlen

/-- A fresh name is not taken: `taken.length + 1` different names cannot all be. -/
theorem fresh_not_mem (taken : List String) (base separator : String) :
    fresh taken base separator ∉ taken := by
  intro h
  have hall := numbered_mem_of_seekFresh_mem taken base separator _ _ h
  have hlen : taken.length + 1 ≤ taken.length := by
    apply length_le_of_numbered_mem
    intro i hi hlt
    have hi' := hall (i - 1) (by omega)
    rwa [show 1 + (i - 1) = i by omega] at hi'
  omega

/-- The first free name: the base, or if it is taken, the base with the least number from two on
that makes it free. -/
inductive FirstFree (taken : List String) (base separator : String) : String → Prop
  | base (h : base ∉ taken) : FirstFree taken base separator base
  | numbered {k : Nat} (hk : 2 ≤ k) (hbase : base ∈ taken)
      (hless : ∀ j, 2 ≤ j → j < k → base ++ separator ++ toString j ∈ taken)
      (hfree : base ++ separator ++ toString k ∉ taken) :
      FirstFree taken base separator (base ++ separator ++ toString k)

theorem firstFree_fresh (taken : List String) (base separator : String) :
    FirstFree taken base separator (fresh taken base separator) := by
  have hfree := fresh_not_mem taken base separator
  obtain ⟨i, hle, heq, hpassed⟩ := exists_seekFresh_eq taken base separator taken.length 1
  change fresh taken base separator = _ at heq
  rw [heq] at hfree ⊢
  unfold Naming.numbered at hfree hpassed ⊢
  split_ifs at hfree ⊢ with hi
  · exact .base hfree
  · have hbase := hpassed 1 (Nat.le_refl 1) (by omega)
    rw [if_pos (by decide)] at hbase
    refine .numbered (by omega) hbase (fun j hj hlt => ?_) hfree
    have hless := hpassed j (by omega) hlt
    rwa [if_neg (by omega)] at hless

end ClientGen.Naming
