import ClientGen.Proofs.Number.Nearest
import ClientGen.Proofs.Number.Ratios

/-! Rounding to doubles: which numbers a double stands for, and that the reader of ratios and
decimals finds the double that a number is rounded to. -/

namespace ClientGen.Double

/-- The numbers between two bounds, both of which belong to them if they are closed. -/
def Between (low high : ℚ) (closed : Bool) (q : ℚ) : Prop :=
  if closed then low ≤ q ∧ q ≤ high else low < q ∧ q < high

theorem Between.bounds {low high q : ℚ} {closed : Bool} (h : Between low high closed q) :
    low ≤ q ∧ q ≤ high := by
  unfold Between at h
  split_ifs at h
  · exact h
  · exact ⟨h.1.le, h.2.le⟩

theorem between_of_lt {low high q : ℚ} (closed : Bool) (hlow : low < q) (hhigh : q < high) :
    Between low high closed q := by
  unfold Between
  split_ifs
  · exact ⟨hlow.le, hhigh.le⟩
  · exact ⟨hlow, hhigh⟩

/-! ### The numbers that a double stands for -/

/-- Significand and exponent in the one form that they have in a finite double. -/
structure IsCanonical (m : Nat) (e : Int) : Prop where
  lt : m < 2 ^ 53
  normal : 2 ^ 52 ≤ m ∨ e = minExponent
  min_le : minExponent ≤ e
  le_max : e ≤ maxExponent

/-- Four times the least significand that is rounded up to `m`. Below a power of two the doubles lie
at half the distance. -/
def lowQuarters (m : Nat) (e : Int) : Nat :=
  if m = 2 ^ 52 ∧ e > minExponent then 4 * m - 1 else 4 * m - 2

/-- The numbers that are rounded to `m · 2 ^ e`: halfway to the next double they go to the even
significand. -/
def Rounds (m : Nat) (e : Int) (q : ℚ) : Prop :=
  Between (lowQuarters m e * 2 ^ (e - 2)) ((4 * m + 2 : Nat) * 2 ^ (e - 2)) (m % 2 == 0) q

/-! ### Ratios -/

theorem roundDiv_eq {num den m : Nat} (hden : 0 < den) (hlow : 2 * (m * den) ≤ 2 * num + den)
    (hhigh : 2 * num ≤ 2 * (m * den) + den)
    (heven : 2 * (m * den) = 2 * num + den ∨ 2 * num = 2 * (m * den) + den → m % 2 = 0) :
    roundDiv num den = m := by
  have hsplit : den * (num / den) + num % den = num := Nat.div_add_mod num den
  have hlt : num % den < den := Nat.mod_lt num hden
  unfold roundDiv
  dsimp only
  generalize num / den = q at *
  generalize num % den = r at *
  subst hsplit
  rw [Nat.mul_comm m] at hlow hhigh heven
  rcases lt_trichotomy m q with hbelow | rfl | habove
  · have hroom : den * (m + 1) ≤ den * q := Nat.mul_le_mul_left _ hbelow
    rw [Nat.mul_add] at hroom
    omega
  · split_ifs with hup
    · rw [Bool.or_eq_true, Bool.and_eq_true, decide_eq_true_eq, beq_iff_eq, beq_iff_eq] at hup
      omega
    · rfl
  · obtain rfl : m = q + 1 := by
      by_contra hne
      have hroom : den * (q + 2) ≤ den * m := Nat.mul_le_mul_left _ (by omega)
      rw [Nat.mul_add] at hroom
      omega
    rw [Nat.mul_add, Nat.mul_one] at *
    split_ifs with hup
    · rfl
    · rw [Bool.or_eq_true, Bool.and_eq_true, decide_eq_true_eq, beq_iff_eq, beq_iff_eq] at hup
      omega

namespace Ratio

variable {r : Ratio}

/-- A quotient is rounded to the integer that is half a unit away at most, and even if it is just
that. -/
theorem roundDiv_eq (hden : 0 < r.den) {m : Nat} (hlow : m - 1 / 2 ≤ r.value)
    (hhigh : r.value ≤ m + 1 / 2) (heven : r.value = m - 1 / 2 ∨ r.value = m + 1 / 2 → m % 2 = 0) :
    roundDiv r.num r.den = m := by
  have hpos : (0 : ℚ) < r.den := Nat.cast_pos.mpr hden
  rw [value, le_div_iff₀ hpos] at hlow
  rw [value, div_le_iff₀ hpos] at hhigh
  rw [value, div_eq_iff hpos.ne', div_eq_iff hpos.ne'] at heven
  refine Double.roundDiv_eq hden ?_ ?_ fun h => heven ?_
  · have hcast : (2 * (m * r.den) : ℚ) ≤ 2 * r.num + r.den := by linarith
    exact_mod_cast hcast
  · have hcast : (2 * r.num : ℚ) ≤ 2 * (m * r.den) + r.den := by linarith
    exact_mod_cast hcast
  · refine h.imp (fun h => ?_) fun h => ?_
    · have hcast : (2 * (m * r.den) : ℚ) = 2 * r.num + r.den := by exact_mod_cast h
      linarith
    · have hcast : (2 * r.num : ℚ) = 2 * (m * r.den) + r.den := by exact_mod_cast h
      linarith

/-- A ratio in units of `2 ^ e`. -/
def inUnits (r : Ratio) (e : Int) : Ratio :=
  if e ≥ 0 then ⟨r.num, r.den * Nat.pow 2 e.toNat⟩ else ⟨r.num * Nat.pow 2 (-e).toNat, r.den⟩

theorem value_inUnits (r : Ratio) (e : Int) : (r.inUnits e).value = r.value / 2 ^ e := by
  unfold inUnits value
  split_ifs with he
  · rw [Nat.cast_mul, cast_pow_toNat 2 he, Nat.cast_ofNat, div_mul_eq_div_div]
  · rw [Nat.cast_mul, cast_pow_neg_toNat 2 (by omega), Nat.cast_ofNat, div_right_comm,
      div_eq_mul_inv _ ((2 : ℚ) ^ e)]

theorem den_inUnits_pos (hden : 0 < r.den) (e : Int) : 0 < (r.inUnits e).den := by
  unfold inUnits
  split_ifs
  · exact Nat.mul_pos hden (Nat.pow_pos (by decide))
  · exact hden

theorem scaledRound_eq (r : Ratio) (e : Int) :
    scaledRound r.num r.den e = roundDiv (r.inUnits e).num (r.inUnits e).den := by
  unfold scaledRound inUnits
  split_ifs <;> rfl

/-- Whether a ratio has 53 bits at most in units of `2 ^ e`. -/
def fits (r : Ratio) (e : Int) : Bool :=
  if e ≥ 0 then decide (r.num < r.den * Nat.pow 2 (53 + e.toNat))
  else decide (r.num * Nat.pow 2 (-e).toNat < r.den * Nat.pow 2 53)

theorem fits_iff (hden : 0 < r.den) (e : Int) : r.fits e = true ↔ r.value < 2 ^ (e + 53) := by
  have hpos : (0 : ℚ) < r.den := Nat.cast_pos.mpr hden
  unfold fits
  rw [value, div_lt_iff₀ hpos]
  split_ifs with he
  · have hpow : (2 : ℚ) ^ (e + 53) = (Nat.pow 2 (53 + e.toNat) : Nat) := by
      rw [← Int.toNat_natCast (53 + e.toNat), cast_pow_toNat 2 (by omega), Nat.cast_ofNat]
      congr 1
      omega
    rw [decide_eq_true_eq, hpow, mul_comm]
    exact_mod_cast Iff.rfl
  · have hcast : ((Nat.pow 2 (-e).toNat : Nat) : ℚ) = ((2 : ℚ) ^ e)⁻¹ :=
      cast_pow_neg_toNat 2 (by omega)
    have hcomm : (2 : ℚ) ^ e * 2 ^ (53 : Int) * r.den = r.den * 2 ^ 53 * 2 ^ e := by
      rw [mul_comm, mul_comm (2 ^ e), mul_assoc]
      rfl
    have hrational (a b : Nat) : a < b ↔ (a : ℚ) < b := Nat.cast_lt.symm
    rw [decide_eq_true_eq, hrational, Nat.cast_mul, hcast, ← div_eq_mul_inv,
      div_lt_iff₀ (zpow_pos two_pos e), zpow_add₀ two_ne_zero, hcomm, Nat.pow_eq, Nat.cast_mul,
      Nat.cast_pow, Nat.cast_ofNat]

/-- The exponent of a ratio that is written with 53 bits. -/
def bitExponent (r : Ratio) : Int :=
  if r.fits (r.log2 - 52 - 1) then r.log2 - 52 - 1 else r.log2 - 52

theorem bitExponent_bounds (hnum : 0 < r.num) (hden : 0 < r.den) :
    (2 : ℚ) ^ (r.bitExponent + 52) ≤ r.value ∧ r.value < 2 ^ (r.bitExponent + 53) := by
  obtain ⟨hlow, hhigh⟩ := log2_bounds hnum hden
  unfold bitExponent
  split_ifs with h
  · refine ⟨?_, (fits_iff hden _).mp h⟩
    rw [show r.log2 - 52 - 1 + 52 = r.log2 - 1 by omega]
    exact hlow.le
  · rw [fits_iff hden, not_lt, show r.log2 - 52 - 1 + 53 = r.log2 - 52 + 52 by omega] at h
    rw [show r.log2 - 52 + 53 = r.log2 + 1 by omega]
    exact ⟨h, hhigh⟩

theorem ofRatio_eq (negative : Bool) (hnum : 0 < r.num) : ofRatio negative r.num r.den =
    let e := max minExponent r.bitExponent
    let m := roundDiv (r.inUnits e).num (r.inUnits e).den
    if m = 2 ^ 53 then
      if e + 1 > maxExponent then .infinite negative else .finite negative (2 ^ 52) (e + 1)
    else if e > maxExponent then .infinite negative else .finite negative m e := by
  have hunfold : ofRatio negative r.num r.den =
      let e := max minExponent r.bitExponent
      let m := scaledRound r.num r.den e
      let carried := if m = Nat.pow 2 53 then (Nat.pow 2 52, e + 1) else (m, e)
      if carried.2 > maxExponent then .infinite negative
      else .finite negative carried.1 carried.2 := by
    unfold ofRatio
    rw [if_neg hnum.ne']
    rfl
  rw [hunfold]
  dsimp only
  rw [← scaledRound_eq, Nat.pow_eq, Nat.pow_eq]
  by_cases hcarry : scaledRound r.num r.den (max minExponent r.bitExponent) = 2 ^ 53
  · rw [if_pos hcarry, if_pos hcarry]
  · rw [if_neg hcarry, if_neg hcarry]

end Ratio

section Rounds

variable {m : Nat} {e : Int} {q : ℚ}

/-- In quarters of the unit, a number that is rounded to a significand is two away at most. -/
theorem Rounds.le_high (h : Rounds m e q) : q ≤ (4 * m + 2) * 2 ^ (e - 2) := by
  have hhigh := (Between.bounds h).2
  push_cast at hhigh
  exact hhigh

theorem Rounds.low_le (h : Rounds m e q) : (lowQuarters m e : ℚ) * 2 ^ (e - 2) ≤ q :=
  (Between.bounds h).1

/-- Ties go to even significands. -/
theorem Rounds.even (h : Rounds m e q)
    (htie : q = lowQuarters m e * 2 ^ (e - 2) ∨ q = (4 * m + 2) * 2 ^ (e - 2)) : m % 2 = 0 := by
  by_contra hodd
  unfold Rounds Between at h
  rw [if_neg (by simpa using hodd)] at h
  push_cast at h
  rcases htie with rfl | rfl
  · exact lt_irrefl _ h.1
  · exact lt_irrefl _ h.2

theorem le_lowQuarters (m : Nat) (e : Int) : 4 * m - 2 ≤ lowQuarters m e := by
  unfold lowQuarters
  split_ifs <;> omega

/-- A power of two in quarters of the unit. -/
theorem zpow_eq_pow_mul (e : Int) (n : Nat) {k : Int} (hk : k = e - 2 + n) :
    (2 : ℚ) ^ k = 2 ^ n * 2 ^ (e - 2) := by
  rw [hk, zpow_add₀ two_ne_zero, zpow_natCast, mul_comm]

theorem Rounds.pos (h : Rounds m e q) (hm : m ≠ 0) : 0 < q := by
  have hpos : 0 < lowQuarters m e := by
    have := le_lowQuarters m e
    omega
  have hunit : (0 : ℚ) < 2 ^ (e - 2) := zpow_pos two_pos _
  exact (mul_pos (Nat.cast_pos.mpr hpos) hunit).trans_le h.low_le

/-- A number that is rounded to a double has 53 bits at most in its unit. -/
theorem Rounds.lt_pow (h : Rounds m e q) (hc : IsCanonical m e) : q < 2 ^ (e + 53) := by
  have hm : (m : ℚ) ≤ 2 ^ 53 - 1 := by
    have := hc.lt
    rw [le_sub_iff_add_le]
    exact_mod_cast this
  have hunit : (0 : ℚ) < 2 ^ (e - 2) := zpow_pos two_pos _
  calc q
    _ ≤ (4 * m + 2) * 2 ^ (e - 2) := h.le_high
    _ < 2 ^ 55 * 2 ^ (e - 2) := mul_lt_mul_of_pos_right (by linarith) hunit
    _ = 2 ^ (e + 53) := (zpow_eq_pow_mul e 55 (by omega)).symm

/-- In a unit that the significand is counted in, a number is rounded to it. -/
theorem Rounds.roundDiv_eq {r : Ratio} (h : Rounds m e r.value) (hden : 0 < r.den) (hm : m ≠ 0) :
    roundDiv (r.inUnits e).num (r.inUnits e).den = m := by
  have hunit : (0 : ℚ) < 2 ^ (e - 2) := zpow_pos two_pos _
  have hone : (2 : ℚ) ^ e = 2 ^ 2 * 2 ^ (e - 2) := zpow_eq_pow_mul e 2 (by omega)
  have hhigh := h.le_high
  have hlow := h.low_le
  have hquarters : (4 * m - 2 : ℚ) ≤ lowQuarters m e := by
    have := le_lowQuarters m e
    rw [sub_le_iff_le_add]
    exact_mod_cast (by omega : 4 * m ≤ lowQuarters m e + 2)
  have hscaled := mul_le_mul_of_nonneg_right hquarters hunit.le
  refine Ratio.roundDiv_eq (Ratio.den_inUnits_pos hden e) ?_ ?_ ?_
  · rw [Ratio.value_inUnits, hone, le_div_iff₀ (by linarith)]
    linarith
  · rw [Ratio.value_inUnits, hone, div_le_iff₀ (by linarith)]
    linarith
  · rw [Ratio.value_inUnits, hone, div_eq_iff (by linarith), div_eq_iff (by linarith)]
    rintro (htie | htie)
    · by_cases hpow : m = 2 ^ 52
      · rw [hpow]
        decide
      · refine h.even (.inl ?_)
        rw [htie, lowQuarters, if_neg (fun hand => hpow hand.1), Nat.cast_sub (by omega)]
        push_cast
        ring
    · refine h.even (.inr ?_)
      rw [htie]
      ring

/-- Below a power of two, where the unit is half as large, a number is rounded up to it. -/
theorem Rounds.roundDiv_carry {r : Ratio} (h : Rounds (2 ^ 52) e r.value) (hden : 0 < r.den)
    (hmin : minExponent < e) (hlt : r.value < 2 ^ (e + 52)) :
    roundDiv (r.inUnits (e - 1)).num (r.inUnits (e - 1)).den = 2 ^ 53 := by
  have hunit : (0 : ℚ) < 2 ^ (e - 2) := zpow_pos two_pos _
  have hhalf : (2 : ℚ) ^ (e - 1) = 2 ^ 1 * 2 ^ (e - 2) := zpow_eq_pow_mul e 1 (by omega)
  have hlow := h.low_le
  rw [lowQuarters, if_pos ⟨rfl, hmin⟩] at hlow
  rw [zpow_eq_pow_mul e 54 (by omega)] at hlt
  refine Ratio.roundDiv_eq (Ratio.den_inUnits_pos hden _) ?_ ?_ fun _ => rfl
  · rw [Ratio.value_inUnits, hhalf, le_div_iff₀ (by linarith)]
    push_cast
    norm_num at hlow
    linarith
  · rw [Ratio.value_inUnits, hhalf, div_le_iff₀ (by linarith)]
    push_cast
    linarith

/-- Below the powers of two that its exponent allows a double is a power of two itself. -/
theorem Rounds.eq_of_lt_pow (h : Rounds m e q) (hc : IsCanonical m e) (hmin : minExponent < e)
    (hlt : q < 2 ^ (e + 52)) : m = 2 ^ 52 := by
  have hnormal : 2 ^ 52 ≤ m := hc.normal.resolve_right hmin.ne'
  by_contra hne
  have hunit : (0 : ℚ) < 2 ^ (e - 2) := zpow_pos two_pos _
  have hquarters : 2 ^ 54 ≤ lowQuarters m e := by
    have := le_lowQuarters m e
    omega
  have hlow : (2 ^ 54 : ℚ) * 2 ^ (e - 2) ≤ q :=
    (mul_le_mul_of_nonneg_right (by exact_mod_cast hquarters) hunit.le).trans h.low_le
  rw [zpow_eq_pow_mul e 54 (by omega)] at hlt
  exact absurd hlow hlt.not_ge

/-- What is rounded to a double is read as it. -/
theorem ofRatio_of_rounds (negative : Bool) {r : Ratio} (hc : IsCanonical m e) (hm : m ≠ 0)
    (hnum : 0 < r.num) (hden : 0 < r.den) (h : Rounds m e r.value) :
    ofRatio negative r.num r.den = .finite negative m e := by
  obtain ⟨hlow, hhigh⟩ := Ratio.bitExponent_bounds hnum hden
  have htwo : (1 : ℚ) < 2 := one_lt_two
  have hle : r.bitExponent ≤ e := by
    have := (zpow_lt_zpow_iff_right₀ htwo).mp (hlow.trans_lt (h.lt_pow hc))
    omega
  have hmax : ¬ e > maxExponent := not_lt.mpr hc.le_max
  rw [Ratio.ofRatio_eq negative hnum]
  dsimp only
  by_cases hcarry : minExponent < e ∧ r.value < 2 ^ (e + 52)
  · -- The number lies below the power of two that it is rounded to.
    obtain ⟨hmin, hlt⟩ := hcarry
    obtain rfl := h.eq_of_lt_pow hc hmin hlt
    have hge : (2 : ℚ) ^ (e + 51) ≤ r.value := by
      rw [zpow_eq_pow_mul e 53 (by omega)]
      refine le_trans ?_ h.low_le
      refine mul_le_mul_of_nonneg_right ?_ (zpow_pos two_pos _).le
      exact_mod_cast (by omega : 2 ^ 53 ≤ 4 * 2 ^ 52 - 2).trans (le_lowQuarters _ e)
    have hbelow := (zpow_lt_zpow_iff_right₀ htwo).mp (hlow.trans_lt hlt)
    have habove := (zpow_lt_zpow_iff_right₀ htwo).mp (hge.trans_lt hhigh)
    rw [show max minExponent r.bitExponent = e - 1 by omega, h.roundDiv_carry hden hmin hlt,
      if_pos rfl, sub_add_cancel, if_neg hmax]
  · have hexp : max minExponent r.bitExponent = e := by
      rcases lt_or_eq_of_le hc.min_le with hmin | hmin
      · have hnot := not_lt.mp fun hlt => hcarry ⟨hmin, hlt⟩
        have := (zpow_lt_zpow_iff_right₀ htwo).mp (hnot.trans_lt hhigh)
        omega
      · omega
    rw [hexp, h.roundDiv_eq hden hm, if_neg hc.lt.ne, if_neg hmax]

end Rounds

/-! ### Decimals -/

section Decimals

variable {digits : Nat} {exponent : Int}

theorem ten_pow_le_two_pow (n : Nat) : 10 ^ (n * 3 / 10) ≤ 2 ^ n := by
  rw [← pow_le_pow_iff_left₀ (Nat.zero_le _) (Nat.zero_le _) (by decide : 10 ≠ 0)]
  calc (10 ^ (n * 3 / 10)) ^ 10
    _ = 10 ^ (n * 3 / 10 * 10) := (pow_mul 10 _ 10).symm
    _ ≤ 10 ^ (3 * n) := pow_le_pow_right₀ (by decide) (by omega)
    _ = (10 ^ 3) ^ n := pow_mul 10 3 n
    _ ≤ (2 ^ 10) ^ n := pow_le_pow_left₀ (Nat.zero_le _) (by decide) n
    _ = (2 ^ n) ^ 10 := by rw [← pow_mul, ← pow_mul, mul_comm]

theorem two_pow_le_ten_pow (n : Nat) : 2 ^ n ≤ 10 ^ (n * 31 / 100 + 1) := by
  rw [← pow_le_pow_iff_left₀ (Nat.zero_le _) (Nat.zero_le _) (by decide : 100 ≠ 0)]
  calc (2 ^ n) ^ 100
    _ = (2 ^ 100) ^ n := by rw [← pow_mul, ← pow_mul, mul_comm]
    _ ≤ (10 ^ 31) ^ n := pow_le_pow_left₀ (Nat.zero_le _) (by decide) n
    _ = 10 ^ (31 * n) := (pow_mul 10 31 n).symm
    _ ≤ 10 ^ ((n * 31 / 100 + 1) * 100) := pow_le_pow_right₀ (by decide) (by omega)
    _ = (10 ^ (n * 31 / 100 + 1)) ^ 100 := pow_mul 10 _ 100

/-- The bounds of the decimal logarithm of a decimal. -/
theorem decimal_bounds (hdigits : digits ≠ 0) (exponent : Int) :
    (10 : ℚ) ^ ((digits.log2 : Int) * 3 / 10 + exponent) ≤ digits * 10 ^ exponent ∧
      (digits : ℚ) * 10 ^ exponent < 10 ^ ((digits.log2 + 1 : Int) * 31 / 100 + 1 + exponent) := by
  have hten : (10 : ℚ) ≠ 0 := by norm_num
  have hpos : (0 : ℚ) < 10 ^ exponent := zpow_pos (by norm_num) exponent
  have hlow : 10 ^ (digits.log2 * 3 / 10) ≤ digits :=
    (ten_pow_le_two_pow _).trans (Nat.log2_self_le hdigits)
  have hhigh : digits < 10 ^ ((digits.log2 + 1) * 31 / 100 + 1) :=
    Nat.lt_log2_self.trans_le (two_pow_le_ten_pow _)
  rw [zpow_add₀ hten, zpow_add₀ hten _ exponent]
  constructor
  · refine mul_le_mul_of_nonneg_right ?_ hpos.le
    rw [show (digits.log2 : Int) * 3 / 10 = (digits.log2 * 3 / 10 : Nat) by omega, zpow_natCast]
    exact_mod_cast hlow
  · refine mul_lt_mul_of_pos_right ?_ hpos
    rw [show (digits.log2 + 1 : Int) * 31 / 100 + 1 = ((digits.log2 + 1) * 31 / 100 + 1 : Nat) by
      omega, zpow_natCast]
    exact_mod_cast hhigh

/-- A decimal as a ratio. -/
theorem ofDecimal_eq (negative : Bool) (hdigits : digits ≠ 0)
    (hlow : (digits.log2 : Int) * 3 / 10 + exponent ≤ 310)
    (hhigh : -330 ≤ (digits.log2 + 1 : Int) * 31 / 100 + 1 + exponent) :
    ofDecimal negative digits exponent = ofRatio negative ((⟨digits, 1⟩ : Ratio).scale exponent).num
      ((⟨digits, 1⟩ : Ratio).scale exponent).den := by
  unfold ofDecimal Ratio.scale
  dsimp only
  rw [if_neg hdigits, if_neg (by omega), if_neg (by omega)]
  split_ifs
  · rfl
  · rw [Nat.one_mul]

/-- What is rounded to a double is read as it. -/
theorem ofDecimal_of_rounds (negative : Bool) {m : Nat} {e : Int} (hc : IsCanonical m e)
    (hm : m ≠ 0) (h : Rounds m e (digits * 10 ^ exponent)) :
    ofDecimal negative digits exponent = .finite negative m e := by
  have hpos := h.pos hm
  have hdigits : digits ≠ 0 := by
    rintro rfl
    simp at hpos
  obtain ⟨hlow, hhigh⟩ := decimal_bounds hdigits exponent
  have hten : (1 : ℚ) < 10 := by norm_num
  have hbelow : (digits.log2 : Int) * 3 / 10 + exponent < 310 := by
    refine (zpow_lt_zpow_iff_right₀ hten).mp (hlow.trans_lt ((h.lt_pow hc).trans ?_))
    have hexp : e + 53 ≤ 1024 := by
      have := hc.le_max
      rw [maxExponent] at this
      omega
    calc (2 : ℚ) ^ (e + 53)
      _ ≤ 2 ^ (1024 : Int) := zpow_le_zpow_right₀ one_le_two hexp
      _ < 10 ^ (310 : Int) := by exact_mod_cast (by decide +kernel : 2 ^ 1024 < 10 ^ 310)
  have habove : -330 < (digits.log2 + 1 : Int) * 31 / 100 + 1 + exponent := by
    refine (zpow_lt_zpow_iff_right₀ hten).mp (lt_of_lt_of_le ?_ (h.low_le.trans hhigh.le))
    have hexp : -1076 ≤ e - 2 := by
      have := hc.min_le
      rw [minExponent] at this
      omega
    have hquarters : (1 : ℚ) ≤ lowQuarters m e := by
      have := le_lowQuarters m e
      exact_mod_cast (by omega : 1 ≤ lowQuarters m e)
    calc (10 : ℚ) ^ (-330 : Int)
      _ < 2 ^ (-1076 : Int) := by
        rw [zpow_neg, zpow_neg]
        refine inv_strictAnti₀ (zpow_pos two_pos _) ?_
        exact_mod_cast (by decide +kernel : 2 ^ 1076 < 10 ^ 330)
      _ ≤ 2 ^ (e - 2) := zpow_le_zpow_right₀ one_le_two hexp
      _ ≤ lowQuarters m e * 2 ^ (e - 2) := le_mul_of_one_le_left (zpow_pos two_pos _).le hquarters
  have hvalue : ((⟨digits, 1⟩ : Ratio).scale exponent).value = digits * 10 ^ exponent := by
    rw [Ratio.value_scale, Ratio.value, Nat.cast_one, div_one]
  have hnum : 0 < ((⟨digits, 1⟩ : Ratio).scale exponent).num := by
    unfold Ratio.scale
    split_ifs
    · exact Nat.mul_pos (Nat.pos_of_ne_zero hdigits) (Nat.pow_pos (by decide))
    · exact Nat.pos_of_ne_zero hdigits
  rw [ofDecimal_eq negative hdigits hbelow.le habove.le]
  exact ofRatio_of_rounds negative hc hm hnum (Ratio.den_scale_pos Nat.one_pos exponent)
    (hvalue ▸ h)

end Decimals

/-! ### The form of doubles -/

/-- The doubles in the one form that they have. -/
def WellFormed : Double → Prop
  | .finite _ m e => IsCanonical m e
  | _ => True

theorem isCanonical_zero : IsCanonical 0 minExponent where
  lt := by decide
  normal := .inr rfl
  min_le := le_refl _
  le_max := by decide

/-- A ratio is read in the one form. -/
theorem wellFormed_ofRatio (negative : Bool) (num : Nat) {den : Nat} (hden : 0 < den) :
    (ofRatio negative num den).WellFormed := by
  rcases Nat.eq_zero_or_pos num with rfl | hnum
  · exact isCanonical_zero
  obtain ⟨hlow, hhigh⟩ := Ratio.bitExponent_bounds (r := ⟨num, den⟩) hnum hden
  rw [Ratio.ofRatio_eq (r := ⟨num, den⟩) negative hnum]
  dsimp only
  generalize hb : (⟨num, den⟩ : Ratio).bitExponent = b at *
  have hunit : (0 : ℚ) < 2 ^ max minExponent b := zpow_pos two_pos _
  have hvalue := Ratio.value_inUnits ⟨num, den⟩ (max minExponent b)
  have hunitden := Ratio.den_inUnits_pos (r := ⟨num, den⟩) hden (max minExponent b)
  have hlt : ((⟨num, den⟩ : Ratio).inUnits (max minExponent b)).value < (2 ^ 53 : Nat) := by
    rw [hvalue, div_lt_iff₀ hunit]
    refine hhigh.trans_le ?_
    rw [Nat.cast_pow, Nat.cast_ofNat, ← zpow_natCast, ← zpow_add₀ two_ne_zero]
    exact zpow_le_zpow_right₀ one_le_two (by push_cast; omega)
  have hge : b = max minExponent b →
      ((2 ^ 52 : Nat) : ℚ) ≤ ((⟨num, den⟩ : Ratio).inUnits (max minExponent b)).value := by
    intro heq
    rw [hvalue, le_div_iff₀ hunit]
    refine le_trans ?_ hlow
    rw [Nat.cast_pow, Nat.cast_ofNat, ← zpow_natCast, ← zpow_add₀ two_ne_zero]
    exact zpow_le_zpow_right₀ one_le_two (by push_cast; omega)
  rw [Ratio.le_value_iff hunitden] at hge
  rw [← not_le, Ratio.le_value_iff hunitden, not_le] at hlt
  generalize (⟨num, den⟩ : Ratio).inUnits (max minExponent b) = u at *
  have hdivlt : u.num / u.den < 2 ^ 53 := (Nat.div_lt_iff_lt_mul hunitden).mpr hlt
  have hup : roundDiv u.num u.den ≤ u.num / u.den + 1 := roundDiv_le u.num
  have hdown : u.num / u.den ≤ roundDiv u.num u.den := div_le_roundDiv u.num
  split_ifs with hcarry hmax hmax
  · trivial
  · exact ⟨by decide, .inl (le_refl _), by omega, by omega⟩
  · trivial
  · refine ⟨by omega, ?_, le_max_left _ _, by omega⟩
    rcases le_total b minExponent with hle | hle
    · exact .inr (max_eq_left hle)
    · have hdiv := (Nat.le_div_iff_mul_le hunitden).mpr (hge (max_eq_right hle).symm)
      exact .inl (hdiv.trans hdown)

theorem wellFormed_ofDecimal (negative : Bool) (digits : Nat) (exponent : Int) :
    (ofDecimal negative digits exponent).WellFormed := by
  unfold ofDecimal
  dsimp only
  split_ifs
  · exact isCanonical_zero
  · trivial
  · exact isCanonical_zero
  · exact wellFormed_ofRatio negative _ Nat.one_pos
  · exact wellFormed_ofRatio negative _ (Nat.pow_pos (by decide))

end ClientGen.Double
