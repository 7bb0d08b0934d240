import ClientGen.Number.Shortest
import Mathlib.Algebra.Order.Field.Power
import Mathlib.Data.Rat.Cast.Order
import Mathlib.Tactic.FieldSimp
import Mathlib.Tactic.GCongr
import Mathlib.Tactic.Linarith
import Mathlib.Tactic.NormNum
import Mathlib.Tactic.Positivity
import Mathlib.Tactic.Ring

/-! Ratios as rational numbers: scaling by powers of ten, comparison, and logarithms. -/

namespace ClientGen.Double

theorem cast_pow_toNat (base : Nat) {k : Int} (hk : 0 ≤ k) :
    ((Nat.pow base k.toNat : Nat) : ℚ) = (base : ℚ) ^ k := by
  rw [Nat.pow_eq, Nat.cast_pow, ← zpow_natCast, Int.toNat_of_nonneg hk]

theorem cast_pow_neg_toNat (base : Nat) {k : Int} (hk : k ≤ 0) :
    ((Nat.pow base (-k).toNat : Nat) : ℚ) = ((base : ℚ) ^ k)⁻¹ := by
  rw [cast_pow_toNat base (by omega), zpow_neg]

namespace Ratio

/-- The number that a ratio is. -/
def value (r : Ratio) : ℚ := r.num / r.den

variable {r : Ratio}

theorem value_scale (r : Ratio) (k : Int) : (r.scale k).value = r.value * 10 ^ k := by
  unfold scale value
  split_ifs with hk
  · rw [Nat.cast_mul, cast_pow_toNat 10 hk, mul_div_right_comm, Nat.cast_ofNat]
  · rw [Nat.cast_mul, cast_pow_neg_toNat 10 (by omega), Nat.cast_ofNat, div_mul_eq_div_div,
      div_inv_eq_mul]

theorem den_scale_pos (hden : 0 < r.den) (k : Int) : 0 < (r.scale k).den := by
  unfold scale
  split_ifs
  · exact hden
  · exact Nat.mul_pos hden (Nat.pow_pos (by decide))

theorem le_value_iff (hden : 0 < r.den) (n : Nat) : (n : ℚ) ≤ r.value ↔ n * r.den ≤ r.num := by
  rw [value, le_div_iff₀ (Nat.cast_pos.mpr hden)]
  exact_mod_cast Iff.rfl

theorem value_le_iff (hden : 0 < r.den) (n : Nat) : r.value ≤ n ↔ r.num ≤ n * r.den := by
  rw [value, div_le_iff₀ (Nat.cast_pos.mpr hden)]
  exact_mod_cast Iff.rfl

theorem above_iff (hden : 0 < r.den) (n : Nat) (closed : Bool) :
    r.above n closed = true ↔ if closed then (n : ℚ) ≤ r.value else n < r.value := by
  cases closed with
  | false =>
    rw [above, if_neg Bool.false_ne_true, if_neg Bool.false_ne_true, decide_eq_true_eq,
      ← not_le, ← not_le, not_iff_not, value_le_iff hden]
  | true => rw [above, if_pos rfl, if_pos rfl, decide_eq_true_eq, le_value_iff hden]

theorem below_iff (hden : 0 < r.den) (n : Nat) (closed : Bool) :
    r.below n closed = true ↔ if closed then r.value ≤ n else r.value < n := by
  cases closed with
  | false =>
    rw [below, if_neg Bool.false_ne_true, if_neg Bool.false_ne_true, decide_eq_true_eq,
      ← not_le, ← not_le, not_iff_not, le_value_iff hden]
  | true => rw [below, if_pos rfl, if_pos rfl, decide_eq_true_eq, value_le_iff hden]

/-- The binary logarithm of a ratio, off by one at most. -/
def log2 (r : Ratio) : Int := (r.num.log2 : Int) - r.den.log2

theorem cast_log2_bounds {n : Nat} (hn : 0 < n) :
    (2 : ℚ) ^ (n.log2 : Int) ≤ n ∧ (n : ℚ) < 2 ^ ((n.log2 : Int) + 1) := by
  have hlow : 2 ^ n.log2 ≤ n := Nat.log2_self_le (by omega)
  have hhigh : n < 2 ^ (n.log2 + 1) := Nat.lt_log2_self
  rw [← Nat.cast_add_one, zpow_natCast, zpow_natCast]
  exact ⟨by exact_mod_cast hlow, by exact_mod_cast hhigh⟩

theorem log2_bounds (hnum : 0 < r.num) (hden : 0 < r.den) :
    (2 : ℚ) ^ (r.log2 - 1) < r.value ∧ r.value < 2 ^ (r.log2 + 1) := by
  obtain ⟨hnumLow, hnumHigh⟩ := cast_log2_bounds hnum
  obtain ⟨hdenLow, hdenHigh⟩ := cast_log2_bounds hden
  have hpos : (0 : ℚ) < r.den := Nat.cast_pos.mpr hden
  have htwo : (2 : ℚ) ≠ 0 := two_ne_zero
  constructor
  · rw [value, lt_div_iff₀ hpos]
    calc (2 : ℚ) ^ (r.log2 - 1) * r.den
      _ < 2 ^ (r.log2 - 1) * 2 ^ ((r.den.log2 : Int) + 1) := by gcongr
      _ = 2 ^ (r.num.log2 : Int) := by rw [← zpow_add₀ htwo, log2]; congr 1; omega
      _ ≤ r.num := hnumLow
  · rw [value, div_lt_iff₀ hpos]
    calc (r.num : ℚ)
      _ < 2 ^ ((r.num.log2 : Int) + 1) := hnumHigh
      _ = 2 ^ (r.log2 + 1) * 2 ^ (r.den.log2 : Int) := by
        rw [← zpow_add₀ htwo, log2]; congr 1; omega
      _ ≤ 2 ^ (r.log2 + 1) * r.den := by gcongr

end Ratio

/-- The estimate of a decimal logarithm from a binary one is at most two too large, for the binary
logarithms of doubles. -/
theorem ten_pow_estimate_le {l : Int} (hlow : -1100 ≤ l) (hhigh : l ≤ 1100) :
    (10 : ℚ) ^ (l * 30103 / 100000 - 2) ≤ 2 ^ (l - 1) := by
  generalize hestimate : l * 30103 / 100000 - 2 = k
  rcases le_or_gt l 0 with hneg | hpos
  · -- The powers compare as `10 ^ 13` with `2 ^ 43`.
    rw [← pow_le_pow_iff_left₀ (zpow_nonneg (by norm_num) k) (zpow_nonneg (by norm_num) _)
      (by norm_num : 43 ≠ 0)]
    calc ((10 : ℚ) ^ k) ^ 43
      _ = 10 ^ (k * 43) := by rw [← zpow_natCast, ← zpow_mul, Nat.cast_ofNat]
      _ ≤ 10 ^ (13 * (l - 1)) := zpow_le_zpow_right₀ (by norm_num) (by omega)
      _ = ((10 ^ 13 : ℚ) ^ (1 - l))⁻¹ := by
        rw [← zpow_neg, ← zpow_natCast, ← zpow_mul, Nat.cast_ofNat, neg_sub]
      _ ≤ ((2 ^ 43 : ℚ) ^ (1 - l))⁻¹ := by
        refine inv_anti₀ (zpow_pos (by norm_num) _) ?_
        exact zpow_le_zpow_left₀ (by omega) (by norm_num) (by norm_num)
      _ = ((2 : ℚ) ^ (l - 1)) ^ 43 := by
        rw [← zpow_neg, ← zpow_natCast, ← zpow_mul, ← zpow_natCast, ← zpow_mul, neg_sub, mul_comm]
  · -- The powers compare as `10 ^ 3` with `2 ^ 10`.
    rw [← pow_le_pow_iff_left₀ (zpow_nonneg (by norm_num) k) (zpow_nonneg (by norm_num) _)
      (by norm_num : 10 ≠ 0)]
    calc ((10 : ℚ) ^ k) ^ 10
      _ = 10 ^ (k * 10) := by rw [← zpow_natCast, ← zpow_mul, Nat.cast_ofNat]
      _ ≤ 10 ^ (3 * (l - 1)) := zpow_le_zpow_right₀ (by norm_num) (by omega)
      _ = (10 ^ 3 : ℚ) ^ (l - 1) := by rw [← zpow_natCast, ← zpow_mul, Nat.cast_ofNat]
      _ ≤ (2 ^ 10 : ℚ) ^ (l - 1) :=
        zpow_le_zpow_left₀ (by omega) (by norm_num) (by norm_num)
      _ = ((2 : ℚ) ^ (l - 1)) ^ 10 := by
        rw [← zpow_natCast, ← zpow_mul, ← zpow_natCast, ← zpow_mul, mul_comm]

variable {r : Ratio}

/-- Whether a ratio is below a power of ten. -/
def Ratio.belowPow (r : Ratio) (k : Int) : Bool :=
  if k ≥ 0 then decide (r.num < r.den * Nat.pow 10 k.toNat)
  else decide (r.num * Nat.pow 10 (-k).toNat < r.den)

theorem Ratio.decimalExponent_eq (r : Ratio) : r.decimalExponent =
    let estimate := r.log2 * 30103 / 100000
    if r.belowPow (estimate - 1) then estimate - 1
    else if r.belowPow estimate then estimate
    else if r.belowPow (estimate + 1) then estimate + 1
    else estimate + 2 := rfl

theorem Ratio.pow_le_value (hden : 0 < r.den) {k : Int} (h : ¬ r.belowPow k = true) :
    (10 : ℚ) ^ k ≤ r.value := by
  have hpos : (0 : ℚ) < r.den := Nat.cast_pos.mpr hden
  rw [Ratio.value, le_div_iff₀ hpos]
  unfold Ratio.belowPow at h
  split_ifs at h with hk
  · rw [decide_eq_true_eq, not_lt] at h
    have hcast : ((r.den * Nat.pow 10 k.toNat : Nat) : ℚ) ≤ r.num := Nat.cast_le.mpr h
    rwa [Nat.cast_mul, cast_pow_toNat 10 hk, Nat.cast_ofNat, mul_comm] at hcast
  · rw [decide_eq_true_eq, not_lt] at h
    have hcast : (r.den : ℚ) ≤ ((r.num * Nat.pow 10 (-k).toNat : Nat) : ℚ) := Nat.cast_le.mpr h
    rw [Nat.cast_mul, cast_pow_neg_toNat 10 (by omega), Nat.cast_ofNat] at hcast
    rwa [← div_eq_mul_inv, le_div_iff₀ (zpow_pos (by norm_num) k), mul_comm] at hcast

/-- A ratio is at least the power of ten below its decimal exponent. -/
theorem Ratio.pow_decimalExponent_le (hnum : 0 < r.num) (hden : 0 < r.den)
    (hlow : -1100 ≤ r.log2) (hhigh : r.log2 ≤ 1100) :
    (10 : ℚ) ^ (r.decimalExponent - 1) ≤ r.value := by
  have hestimate := (ten_pow_estimate_le hlow hhigh).trans (log2_bounds hnum hden).1.le
  rw [decimalExponent_eq]
  dsimp only
  generalize r.log2 * 30103 / 100000 = estimate at *
  split_ifs with h₁ h₂ h₃
  · rwa [sub_sub]
  · exact pow_le_value hden h₁
  · rw [add_sub_cancel_right]
    exact pow_le_value hden h₂
  · rw [show estimate + 2 - 1 = estimate + 1 by omega]
    exact pow_le_value hden h₃
end ClientGen.Double
