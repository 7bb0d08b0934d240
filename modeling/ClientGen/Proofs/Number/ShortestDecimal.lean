import ClientGen.Proofs.Number.Rounding

/-! The shortest decimal of a double: it is rounded to the double, and seventeen digits are enough
for one. -/

namespace ClientGen.Double

/-- The number that a decimal is. -/
def Decimal.value (d : Decimal) : ℚ := d.digits * 10 ^ d.exponent

variable {value low high : Ratio} {closed : Bool} {k : Int} {count : Nat} {d : Decimal}

/-- What is tested on a grid is whether a decimal lies between the bounds. -/
theorem inside_iff (hlow : 0 < low.den) (hhigh : 0 < high.den) (shift : Int) (n : Nat) :
    ((low.scale shift).below n closed && (high.scale shift).above n closed) = true ↔
      Between low.value high.value closed (⟨n, -shift⟩ : Decimal).value := by
  have hpos : (0 : ℚ) < 10 ^ shift := zpow_pos (by norm_num) shift
  rw [Bool.and_eq_true, Ratio.below_iff (Ratio.den_scale_pos hlow shift),
    Ratio.above_iff (Ratio.den_scale_pos hhigh shift), Ratio.value_scale, Ratio.value_scale,
    Between, Decimal.value, zpow_neg, ← div_eq_mul_inv, le_div_iff₀ hpos, lt_div_iff₀ hpos,
    div_le_iff₀ hpos, div_lt_iff₀ hpos]
  cases closed <;> simp

/-- The two decimals on a grid next to a value, the nearer one first. -/
theorem nearestOnGrid_eq (value low high : Ratio) (closed : Bool) (k : Int) (count : Nat) :
    ∃ other, nearestOnGrid value low high closed k count =
    ([roundDiv (value.scale (count - k)).num (value.scale (count - k)).den, other].find? fun n =>
      (low.scale (count - k)).below n closed && (high.scale (count - k)).above n closed).map
        fun n => ⟨n, -(count - k)⟩ := by
  unfold nearestOnGrid roundDiv
  dsimp only
  split_ifs with hup
  · exact ⟨_, rfl⟩
  · exact ⟨_, rfl⟩

/-- A decimal found on a grid lies between the bounds. -/
theorem between_of_nearestOnGrid (hlow : 0 < low.den) (hhigh : 0 < high.den)
    (h : nearestOnGrid value low high closed k count = some d) :
    Between low.value high.value closed d.value := by
  obtain ⟨other, heq⟩ := nearestOnGrid_eq value low high closed k count
  rw [heq] at h
  obtain ⟨n, hfind, rfl⟩ := Option.map_eq_some_iff.mp h
  have hinside := List.find?_some hfind
  exact (inside_iff hlow hhigh _ n).mp hinside

/-- The value of a rounded quotient is half a unit off at most. -/
theorem abs_roundDiv_sub_le (r : Ratio) (hden : 0 < r.den) :
    |(roundDiv r.num r.den : ℚ) - r.value| ≤ 1 / 2 := by
  have hpos : (0 : ℚ) < r.den := Nat.cast_pos.mpr hden
  have herror : (2 : ℚ) * |(roundDiv r.num r.den : ℚ) * r.den - r.num| ≤ r.den := by
    exact_mod_cast roundDiv_error r.num hden
  have hvalue : r.value * r.den = r.num := div_mul_cancel₀ _ hpos.ne'
  rw [← hvalue, ← sub_mul, abs_mul, abs_of_pos hpos, ← mul_assoc] at herror
  have hone := le_of_mul_le_mul_right (herror.trans (one_mul (r.den : ℚ)).ge) hpos
  linarith

/-- A grid has a decimal between the bounds if both are more than half a step away from the
value. -/
theorem isSome_nearestOnGrid (hvalue : 0 < value.den) (hlow : 0 < low.den) (hhigh : 0 < high.den)
    (hdown : low.value + 10 ^ (k - count) / 2 < value.value)
    (hup : value.value + 10 ^ (k - count) / 2 < high.value) :
    (nearestOnGrid value low high closed k count).isSome := by
  obtain ⟨other, heq⟩ := nearestOnGrid_eq value low high closed k count
  generalize hn : roundDiv (value.scale (count - k)).num (value.scale (count - k)).den = n at heq
  have herror := abs_roundDiv_sub_le (value.scale (count - k)) (Ratio.den_scale_pos hvalue _)
  have hstep : (10 : ℚ) ^ (count - k : Int) * 10 ^ (k - count) = 1 := by
    rw [← zpow_add₀ (by norm_num), show (count - k + (k - count) : Int) = 0 by omega, zpow_zero]
  have hpos : (0 : ℚ) < 10 ^ (k - count) := zpow_pos (by norm_num) _
  rw [hn, Ratio.value_scale, abs_le] at herror
  have hinside : Between low.value high.value closed (⟨n, -(count - k)⟩ : Decimal).value := by
    rw [Decimal.value, neg_sub]
    dsimp only
    generalize (10 : ℚ) ^ (k - count) = step at *
    generalize (10 : ℚ) ^ (count - k : Int) = scale at *
    have hscaled : value.value * scale * step = value.value := by rw [mul_assoc, hstep, mul_one]
    exact between_of_lt closed (by nlinarith) (by nlinarith)
  rw [heq, Option.isSome_map, List.find?_isSome]
  exact ⟨n, List.mem_cons_self, (inside_iff hlow hhigh _ n).mpr hinside⟩

/-! ### The search -/

/-- A number of quarters of the unit `2 ^ e`. -/
def quarters (e : Int) (n : Nat) : Ratio :=
  if e ≥ 2 then ⟨n * Nat.pow 2 (e - 2).toNat, 1⟩ else ⟨n, Nat.pow 2 (2 - e).toNat⟩

theorem value_quarters (e : Int) (n : Nat) : (quarters e n).value = n * 2 ^ (e - 2) := by
  unfold quarters Ratio.value
  split_ifs with he
  · rw [Nat.cast_one, div_one, Nat.cast_mul, cast_pow_toNat 2 (by omega), Nat.cast_ofNat]
  · rw [← neg_sub, cast_pow_neg_toNat 2 (by omega), div_inv_eq_mul, Nat.cast_ofNat]

theorem den_quarters_pos (e : Int) (n : Nat) : 0 < (quarters e n).den := by
  unfold quarters
  split_ifs
  · exact Nat.one_pos
  · exact Nat.pow_pos (by decide)

theorem num_quarters_pos (e : Int) {n : Nat} (hn : 0 < n) : 0 < (quarters e n).num := by
  unfold quarters
  split_ifs
  · exact Nat.mul_pos hn (Nat.pow_pos (by decide))
  · exact hn

theorem shortest_eq (m : Nat) (e : Int) : shortest m e =
    (((List.range 17).map (· + 1)).findSome? (nearestOnGrid (quarters e (4 * m))
      (quarters e (lowQuarters m e)) (quarters e (4 * m + 2)) (m % 2 == 0)
      (quarters e (4 * m)).decimalExponent)).getD ⟨m, 0⟩ := by
  unfold shortest
  dsimp only
  split
  · next h => exact (congrArg (Option.getD · _) h).symm
  · next h => exact (congrArg (Option.getD · _) h).symm

section Shortest

variable {m : Nat} {e : Int}

theorem value_four_quarters : (quarters e (4 * m)).value = m * 2 ^ e := by
  rw [value_quarters, Nat.cast_mul, Nat.cast_ofNat, zpow_sub₀ two_ne_zero]
  norm_num
  ring

theorem rounds_self (hm : m ≠ 0) : Rounds m e (m * 2 ^ e) := by
  have hunit : (0 : ℚ) < 2 ^ (e - 2) := zpow_pos two_pos _
  have hvalue : (m : ℚ) * 2 ^ e = (4 * m : Nat) * 2 ^ (e - 2) := by
    rw [← value_four_quarters, value_quarters]
  rw [hvalue]
  refine between_of_lt _ (mul_lt_mul_of_pos_right ?_ hunit) (mul_lt_mul_of_pos_right ?_ hunit)
  · have hlow : lowQuarters m e < 4 * m := by
      unfold lowQuarters
      split_ifs <;> omega
    exact_mod_cast hlow
  · exact_mod_cast Nat.lt_add_of_pos_right two_pos

/-- The value of a double tells its significand and its exponent. -/
theorem IsCanonical.unique {m' : Nat} {e' : Int} (hc : IsCanonical m e) (hc' : IsCanonical m' e')
    (hm : m ≠ 0) (h : (m : ℚ) * 2 ^ e = m' * 2 ^ e') : m = m' ∧ e = e' := by
  have hm' : m' ≠ 0 := by
    rintro rfl
    rw [Nat.cast_zero, zero_mul] at h
    exact (mul_pos (Nat.cast_pos.mpr (Nat.pos_of_ne_zero hm)) (zpow_pos two_pos e)).ne' h
  have hread {m' : Nat} {e' : Int} (hc' : IsCanonical m' e') (hm' : m' ≠ 0)
      (h : (m : ℚ) * 2 ^ e = m' * 2 ^ e') :
      ofRatio false (quarters e (4 * m)).num (quarters e (4 * m)).den = .finite false m' e' := by
    refine ofRatio_of_rounds false hc' hm' (num_quarters_pos e (by omega)) (den_quarters_pos e _) ?_
    rw [value_four_quarters, h]
    exact rounds_self hm'
  have hsame := (hread hc hm rfl).symm.trans (hread hc' hm' h)
  obtain ⟨-, rfl, rfl⟩ := Double.finite.inj hsame
  exact ⟨rfl, rfl⟩

variable (hc : IsCanonical m e) (hm : m ≠ 0)
include hc hm

theorem log2_quarters_bounds :
    -1100 ≤ (quarters e (4 * m)).log2 ∧ (quarters e (4 * m)).log2 ≤ 1100 := by
  obtain ⟨hlt, -, hmin, hmax⟩ := hc
  obtain ⟨hbelow, habove⟩ :=
    Ratio.log2_bounds (num_quarters_pos e (by omega : 0 < 4 * m)) (den_quarters_pos e _)
  rw [value_four_quarters] at hbelow habove
  have htwo : (1 : ℚ) < 2 := one_lt_two
  have hpos : (0 : ℚ) < 2 ^ e := zpow_pos (by norm_num) e
  constructor
  · have hone : (1 : ℚ) ≤ m := by exact_mod_cast Nat.one_le_iff_ne_zero.mpr hm
    have hleast : (2 : ℚ) ^ e ≤ m * 2 ^ e := le_mul_of_one_le_left hpos.le hone
    have hexp := (zpow_lt_zpow_iff_right₀ htwo).mp (hleast.trans_lt habove)
    rw [minExponent] at hmin
    omega
  · have hlt' : (m : ℚ) < 2 ^ (53 : Int) := by exact_mod_cast hlt
    have hgreatest : (m : ℚ) * 2 ^ e < 2 ^ (53 + e) := by
      rw [zpow_add₀ two_ne_zero]
      exact mul_lt_mul_of_pos_right hlt' hpos
    have hexp := (zpow_lt_zpow_iff_right₀ htwo).mp (hbelow.trans hgreatest)
    rw [maxExponent] at hmax
    omega

/-- A grid of seventeen digits is fine enough for every double. -/
theorem isSome_seventeen : (nearestOnGrid (quarters e (4 * m)) (quarters e (lowQuarters m e))
    (quarters e (4 * m + 2)) (m % 2 == 0) (quarters e (4 * m)).decimalExponent 17).isSome := by
  obtain ⟨hlow, hhigh⟩ := log2_quarters_bounds hc hm
  have hpower := Ratio.pow_decimalExponent_le (num_quarters_pos e (by omega : 0 < 4 * m))
    (den_quarters_pos e _) hlow hhigh
  have hunit : (0 : ℚ) < 2 ^ (e - 2) := zpow_pos (by norm_num) _
  have hlt : (m : ℚ) < 2 ^ 53 := by exact_mod_cast hc.lt
  have hcap : (m : ℚ) * 2 ^ (e - 2) < 2 ^ 53 * 2 ^ (e - 2) := mul_lt_mul_of_pos_right hlt hunit
  generalize (quarters e (4 * m)).decimalExponent = k at *
  -- A step of the grid is at most a part in `10 ^ 16` of the value.
  have hstep : (10 : ℚ) ^ (k - (17 : Nat)) * 10 ^ 16 = 10 ^ (k - 1) := by
    rw [← zpow_natCast, ← zpow_add₀ (by norm_num)]
    congr 1
    omega
  rw [value_quarters, ← hstep] at hpower
  push_cast at hpower
  refine isSome_nearestOnGrid (den_quarters_pos e _) (den_quarters_pos e _) (den_quarters_pos e _)
    ?_ ?_
  · rw [value_quarters, value_quarters, lowQuarters]
    split_ifs with hpow
    · rw [hpow.1] at hpower ⊢
      push_cast at hpower ⊢
      norm_num at hpower ⊢
      linarith
    · rw [Nat.cast_sub (by omega)]
      push_cast
      linarith
  · rw [value_quarters, value_quarters]
    push_cast
    linarith

/-- The shortest decimal is rounded to its double. -/
theorem rounds_shortest : Rounds m e (shortest m e).value := by
  have hsome := isSome_seventeen hc hm
  generalize hfound : ((List.range 17).map (· + 1)).findSome? (nearestOnGrid (quarters e (4 * m))
    (quarters e (lowQuarters m e)) (quarters e (4 * m + 2)) (m % 2 == 0)
    (quarters e (4 * m)).decimalExponent) = found
  rw [shortest_eq, hfound]
  cases found with
  | none =>
    rw [List.findSome?_eq_none_iff] at hfound
    rw [hfound 17 (by decide)] at hsome
    cases hsome
  | some d =>
    obtain ⟨count, -, hcount⟩ := List.exists_of_findSome?_eq_some hfound
    have hbetween := between_of_nearestOnGrid (den_quarters_pos e _) (den_quarters_pos e _) hcount
    rwa [value_quarters, value_quarters] at hbetween

end Shortest

end ClientGen.Double
