import ClientGen.Number.Reader
import Mathlib.Algebra.Order.Group.Unbundled.Int
import Mathlib.Algebra.Order.GroupWithZero.Basic
import Mathlib.Algebra.Order.Ring.Abs
import Mathlib.Tactic.Linarith
import Mathlib.Tactic.Ring

/-! Whole numbers as doubles: the double that stands for one is a nearest one, and it is the number
itself where the number has at most 53 significant bits. -/

namespace ClientGen.Double

/-- The integers that are the value of a double. -/
def Exact (n : Int) : Prop := ∃ m e : Nat, n.natAbs = m * 2 ^ e ∧ m < 2 ^ 53 ∧ e ≤ 971

/-- A value of a double that no other value of a double is nearer to. -/
structure Nearest (n i : Int) : Prop where
  exact : Exact i
  least (j : Int) (h : Exact j) : |i - n| ≤ |j - n|

theorem exact_iff_of_nearest {n i : Int} (h : Nearest n i) : Exact n ↔ i = n := by
  constructor
  · intro hn
    have hle := h.least n hn
    rw [sub_self, abs_zero] at hle
    exact sub_eq_zero.mp (abs_nonpos_iff.mp hle)
  · rintro rfl
    exact h.exact

theorem exact_neg {n : Int} : Exact (-n) ↔ Exact n := by
  rw [Exact, Exact, Int.natAbs_neg]

theorem exact_zero : Exact 0 := ⟨0, 0, rfl, by decide, by decide⟩

/-- The integers that are doubles end half a unit of the last place before those that overflow. -/
theorem Exact.natAbs_lt {n : Int} (h : Exact n) : n.natAbs < 2 ^ 1024 - 2 ^ 970 := by
  obtain ⟨m, e, heq, hm, he⟩ := h
  have hmax : m * 2 ^ e ≤ (2 ^ 53 - 1) * 2 ^ 971 :=
    Nat.mul_le_mul (by omega) (pow_le_pow_right₀ (by decide) he)
  omega

theorem Nearest.neg {n i : Int} (h : Nearest n i) : Nearest (-n) (-i) where
  exact := exact_neg.mpr h.exact
  least j hj := by
    have hle := h.least (-j) (exact_neg.mpr hj)
    rwa [show -i - -n = -(i - n) by omega, show j - -n = -(-j - n) by omega, abs_neg, abs_neg]

/-! ### Quotients rounded to integers -/

section Quotient

variable (num : Nat) {den : Nat}

theorem div_le_roundDiv : num / den ≤ roundDiv num den := by
  unfold roundDiv
  dsimp only
  split_ifs <;> omega

theorem roundDiv_le : roundDiv num den ≤ num / den + 1 := by
  unfold roundDiv
  dsimp only
  split_ifs <;> omega

theorem roundDiv_one : roundDiv num 1 = num := by
  simp [roundDiv, Nat.mod_one]

/-- Just below an even number the half goes up. -/
theorem roundDiv_lt_iff (half b : Nat) (h : 0 < half) :
    roundDiv num (2 * half) < 2 * b ↔ num + half < 2 * b * (2 * half) := by
  have hsplit : 2 * half * (num / (2 * half)) + num % (2 * half) = num := Nat.div_add_mod num _
  have hlt : num % (2 * half) < 2 * half := Nat.mod_lt num (by omega)
  unfold roundDiv
  dsimp only
  generalize num / (2 * half) = q at *
  generalize num % (2 * half) = r at *
  subst hsplit
  rw [Nat.mul_comm (2 * b)]
  rcases lt_trichotomy (q + 1) (2 * b) with hbelow | htop | habove
  · have hroom : 2 * half * (q + 2) ≤ 2 * half * (2 * b) := Nat.mul_le_mul_left _ hbelow
    rw [Nat.mul_add] at hroom
    split_ifs <;> constructor <;> omega
  · rw [← htop, Nat.mul_add]
    split_ifs with hup
    · rw [Bool.or_eq_true, Bool.and_eq_true, decide_eq_true_eq, beq_iff_eq] at hup
      constructor <;> omega
    · rw [Bool.or_eq_true, Bool.and_eq_true, decide_eq_true_eq, beq_iff_eq, beq_iff_eq] at hup
      constructor <;> omega
  · have hfull : 2 * half * (2 * b) ≤ 2 * half * q := Nat.mul_le_mul_left _ (by omega)
    split_ifs <;> constructor <;> omega

/-- Rounding is off by half of the divisor at most. -/
theorem roundDiv_error (h : 0 < den) :
    2 * |((roundDiv num den * den : Nat) : Int) - num| ≤ den := by
  have hsplit : den * (num / den) + num % den = num := Nat.div_add_mod num den
  have hlt : num % den < den := Nat.mod_lt num h
  rw [← abs_two, ← abs_mul, abs_le]
  unfold roundDiv
  dsimp only
  split_ifs with hup
  · rw [Bool.or_eq_true, Bool.and_eq_true, decide_eq_true_eq, beq_iff_eq] at hup
    rw [Nat.add_mul, Nat.one_mul, Nat.mul_comm (num / den)]
    constructor <;> omega
  · rw [Bool.or_eq_true, decide_eq_true_eq, not_or] at hup
    rw [Nat.mul_comm (num / den)]
    constructor <;> omega

/-- No multiple of the divisor is nearer. -/
theorem roundDiv_nearest (h : 0 < den) {multiple : Nat} (hdvd : den ∣ multiple) :
    |((roundDiv num den * den : Nat) : Int) - num| ≤ |(multiple : Int) - num| := by
  obtain ⟨q, rfl⟩ := hdvd
  by_cases hq : roundDiv num den = q
  · rw [hq, Nat.mul_comm]
  have hstep : (1 : Int) ≤ |(roundDiv num den : Int) - q| :=
    Int.one_le_abs (sub_ne_zero.mpr (by exact_mod_cast hq))
  have hgap : (den : Int) ≤ |((roundDiv num den * den : Nat) : Int) - (den * q : Nat)| := by
    have hfactor : ((roundDiv num den * den : Nat) : Int) - (den * q : Nat) =
        ((roundDiv num den : Int) - q) * den := by
      push_cast
      ring
    rw [hfactor, abs_mul, Nat.abs_cast]
    nlinarith
  have herror := roundDiv_error num h
  have htriangle := abs_sub_le ((roundDiv num den * den : Nat) : Int) num (den * q : Nat)
  rw [abs_sub_comm (num : Int)] at htriangle
  linarith

end Quotient

/-! ### The doubles around a whole number -/

/-- The distance of the doubles next to a whole number, where these are whole themselves. -/
def spacing (k : Nat) : Nat := 2 ^ (k.log2 - 52)

/-- The double that a whole number is rounded to, as long as it is in range. -/
def rounded (k : Nat) : Nat := roundDiv k (spacing k) * spacing k

theorem spacing_pos (k : Nat) : 0 < spacing k := Nat.two_pow_pos _

theorem spacing_dvd_pow {k e : Nat} (h : k.log2 ≤ e) : spacing k ∣ 2 ^ e :=
  Nat.pow_dvd_pow 2 (by omega)

theorem rounded_of_log2_le {k : Nat} (h : k.log2 ≤ 52) : rounded k = k := by
  rw [rounded, spacing, Nat.sub_eq_zero_of_le h, Nat.pow_zero, roundDiv_one, Nat.mul_one]

/-- A double at or above the power of two below a number is a multiple of the spacing there. -/
theorem spacing_dvd_of_exact {k j : Nat} (hj : Exact j) (hle : 2 ^ k.log2 ≤ j) : spacing k ∣ j := by
  obtain ⟨m, e, heq, hm, -⟩ := hj
  rw [Int.natAbs_natCast] at heq
  subst heq
  have hlt : 2 ^ k.log2 < 2 ^ (53 + e) :=
    calc
      2 ^ k.log2 ≤ m * 2 ^ e := hle
      _ < 2 ^ 53 * 2 ^ e := Nat.mul_lt_mul_of_pos_right hm (Nat.two_pow_pos e)
      _ = 2 ^ (53 + e) := (Nat.pow_add 2 53 e).symm
  have hexp : k.log2 < 53 + e := (pow_lt_pow_iff_right₀ (by decide : 1 < 2)).mp hlt
  exact (Nat.pow_dvd_pow 2 (by omega)).mul_left m

theorem rounded_nearest (k : Nat) {j : Nat} (hj : Exact j) :
    |(rounded k : Int) - k| ≤ |(j : Int) - k| := by
  by_cases hk : k = 0
  · subst hk
    rw [rounded_of_log2_le (by decide), sub_self, abs_zero]
    exact abs_nonneg _
  by_cases hle : 2 ^ k.log2 ≤ j
  · exact roundDiv_nearest k (spacing_pos k) (spacing_dvd_of_exact hj hle)
  · -- The power of two lies between the two, and the spacing divides it.
    have hlow : 2 ^ k.log2 ≤ k := Nat.log2_self_le hk
    have hpower := roundDiv_nearest k (spacing_pos k) (spacing_dvd_pow (Nat.le_refl k.log2))
    refine le_trans hpower ?_
    rw [abs_of_nonpos (by omega), abs_of_nonpos (by omega)]
    omega

section Range

variable {k : Nat}

/-- The significand of a whole number has 53 bits, or it is the next power of two. -/
theorem roundDiv_spacing_le (h : 52 ≤ k.log2) : roundDiv k (spacing k) ≤ 2 ^ 53 := by
  have hlt : k < 2 ^ 53 * spacing k := by
    rw [spacing, ← Nat.pow_add, show 53 + (k.log2 - 52) = k.log2 + 1 by omega]
    exact Nat.lt_log2_self
  have hdiv : k / spacing k < 2 ^ 53 := (Nat.div_lt_iff_lt_mul (spacing_pos k)).mpr hlt
  exact (roundDiv_le k).trans hdiv

theorem rounded_of_carry (h : 52 ≤ k.log2) (hcarry : roundDiv k (spacing k) = 2 ^ 53) :
    rounded k = 2 ^ (k.log2 + 1) := by
  rw [rounded, hcarry, spacing, ← Nat.pow_add, show 53 + (k.log2 - 52) = k.log2 + 1 by omega]

theorem rounded_lt_of_ne (h : 52 ≤ k.log2) (hcarry : roundDiv k (spacing k) ≠ 2 ^ 53) :
    rounded k < 2 ^ (k.log2 + 1) :=
  calc
    rounded k < 2 ^ 53 * spacing k :=
      Nat.mul_lt_mul_of_pos_right ((roundDiv_spacing_le h).lt_of_ne hcarry) (spacing_pos k)
    _ = 2 ^ (k.log2 + 1) := by
      rw [spacing, ← Nat.pow_add, show 53 + (k.log2 - 52) = k.log2 + 1 by omega]

theorem rounded_le (k : Nat) : rounded k ≤ 2 ^ (k.log2 + 1) := by
  by_cases h : k.log2 ≤ 52
  · rw [rounded_of_log2_le h]
    exact Nat.lt_log2_self.le
  by_cases hcarry : roundDiv k (spacing k) = 2 ^ 53
  · exact (rounded_of_carry (by omega) hcarry).le
  · exact (rounded_lt_of_ne (by omega) hcarry).le

theorem pow_le_rounded (hk : k ≠ 0) : 2 ^ k.log2 ≤ rounded k :=
  calc
    2 ^ k.log2 = 2 ^ k.log2 / spacing k * spacing k :=
      (Nat.div_mul_cancel (spacing_dvd_pow (Nat.le_refl _))).symm
    _ ≤ k / spacing k * spacing k :=
      Nat.mul_le_mul_right _ (Nat.div_le_div_right (Nat.log2_self_le hk))
    _ ≤ rounded k := Nat.mul_le_mul_right _ (div_le_roundDiv k)

/-- What a number in range is rounded to is the value of a double. -/
theorem exact_rounded (hk : k ≠ 0) (h : rounded k < 2 ^ 1024) : Exact (rounded k) := by
  have hlog : k.log2 < 1024 :=
    (pow_lt_pow_iff_right₀ (by decide : 1 < 2)).mp ((pow_le_rounded hk).trans_lt h)
  by_cases hsmall : k.log2 ≤ 52
  · rw [rounded_of_log2_le hsmall]
    refine ⟨k, 0, by simp, ?_, by decide⟩
    exact Nat.lt_log2_self.trans_le (pow_le_pow_right₀ (by decide) (by omega))
  by_cases hcarry : roundDiv k (spacing k) = 2 ^ 53
  · have hvalue : rounded k = 2 ^ (k.log2 + 1) := rounded_of_carry (by omega) hcarry
    rw [hvalue] at h
    have hexp : k.log2 + 1 < 1024 := (pow_lt_pow_iff_right₀ (by decide : 1 < 2)).mp h
    refine ⟨2 ^ 52, k.log2 + 1 - 52, ?_, by decide, by omega⟩
    have hexponent : 52 + (k.log2 + 1 - 52) = k.log2 + 1 := by omega
    rw [Int.natAbs_natCast, hvalue, ← Nat.pow_add, hexponent]
  · have hle := roundDiv_spacing_le (k := k) (by omega)
    exact ⟨roundDiv k (spacing k), k.log2 - 52, by rw [Int.natAbs_natCast]; rfl, by omega, by omega⟩

/-- The numbers that are rounded into the range of doubles. -/
theorem rounded_lt_iff (hk : k ≠ 0) : rounded k < 2 ^ 1024 ↔ k < 2 ^ 1024 - 2 ^ 970 := by
  have hlow : 2 ^ k.log2 ≤ k := Nat.log2_self_le hk
  have hhigh : k < 2 ^ (k.log2 + 1) := Nat.lt_log2_self
  rcases lt_trichotomy k.log2 1023 with hlt | heq | hgt
  · have hpow : 2 ^ (k.log2 + 1) ≤ 2 ^ 1023 := pow_le_pow_right₀ (by decide) (by omega)
    have hle := rounded_le k
    constructor <;> omega
  · -- In the highest binade a tie at the top goes up, since the significand below it is odd.
    have hspacing : spacing k = 2 * 2 ^ 970 := by
      rw [spacing, heq, ← Nat.pow_succ']
    have hhalf : 0 < 2 ^ 970 := pow_pos (by decide) 970
    have htop : 2 ^ 1024 = 2 * 2 ^ 52 * (2 * 2 ^ 970) := by
      rw [← pow_succ', ← pow_succ', ← pow_add]
    rw [rounded, hspacing, htop, Nat.mul_lt_mul_right (by omega), roundDiv_lt_iff k _ _ hhalf]
    generalize 2 ^ 970 = half at *
    omega
  · have hpow : 2 ^ 1024 ≤ 2 ^ k.log2 := pow_le_pow_right₀ (by decide) hgt
    have hle := pow_le_rounded hk
    constructor <;> omega

end Range

/-- A whole number in range is rounded to a nearest double. -/
theorem nearest_rounded {k : Nat} (h : k < 2 ^ 1024 - 2 ^ 970) : Nearest k (rounded k) where
  exact := by
    by_cases hk : k = 0
    · subst hk
      exact exact_zero
    · exact exact_rounded hk ((rounded_lt_iff hk).mpr h)
  least j hj := by
    have hnearest := rounded_nearest k (j := j.natAbs) (by rwa [Exact, Int.natAbs_natCast])
    have hle : |(j.natAbs : Int) - k| ≤ |j - k| := by
      rw [abs_le]
      have hup := le_abs_self (j - k)
      have hdown := neg_abs_le (j - k)
      omega
    exact hnearest.trans hle

/-! ### Reading a whole number -/

/-- A number is split into its highest 53 bits, with a carry to the next power of two. -/
theorem ofRatio_one (negative : Bool) {k : Nat} (hk : k ≠ 0) {e : Int} (he : e = k.log2 - 52)
    {m : Nat} (hm : m = scaledRound k 1 e) :
    ofRatio negative k 1 =
      if m = 2 ^ 53 then
        if e + 1 > maxExponent then .infinite negative else .finite negative (2 ^ 52) (e + 1)
      else if e > maxExponent then .infinite negative else .finite negative m e := by
  have hlow : 2 ^ k.log2 ≤ k := Nat.log2_self_le hk
  have hfits : ¬ (if e - 1 ≥ 0 then decide (k < 1 * Nat.pow 2 (53 + (e - 1).toNat))
      else decide (k * Nat.pow 2 (-(e - 1)).toNat < 1 * Nat.pow 2 53)) = true := by
    split_ifs with hsign
    · rw [decide_eq_true_eq, Nat.pow_eq, Nat.one_mul,
        show 53 + (e - 1).toNat = k.log2 by omega]
      omega
    · rw [decide_eq_true_eq, Nat.pow_eq, Nat.pow_eq, Nat.one_mul, Nat.not_lt,
        show 53 = k.log2 + (-(e - 1)).toNat by omega, Nat.pow_add]
      exact Nat.mul_le_mul_right _ hlow
  have hguess : ((k.log2 : Int) - ((1 : Nat).log2 : Nat) - 52) = e := by
    rw [he, show (1 : Nat).log2 = 0 by decide]
    omega
  have hexp : max minExponent e = e := max_eq_right (by rw [minExponent]; omega)
  unfold ofRatio
  dsimp only
  rw [if_neg hk, hguess, if_neg hfits, hexp, ← hm, Nat.pow_eq, Nat.pow_eq]
  by_cases hcarry : m = 2 ^ 53
  · rw [if_pos hcarry, if_pos hcarry]
  · rw [if_neg hcarry, if_neg hcarry]

theorem toInt?_of_natExponent (negative : Bool) (m e : Nat) :
    (finite negative m e).toInt? = some (Numeral.signed negative (m * 2 ^ e)) := by
  rw [toInt?, if_pos (Int.natCast_nonneg e), Int.toNat_natCast]
  rfl

theorem toInt?_of_negExponent (negative : Bool) (k : Nat) {s : Nat} (hs : 0 < s) :
    (finite negative (k * 2 ^ s) (-s)).toInt? = some (Numeral.signed negative k) := by
  rw [toInt?, if_neg (by omega), Int.neg_neg, Int.toNat_natCast, Nat.pow_eq]
  dsimp only
  rw [if_pos (Nat.mul_mod_left k (2 ^ s)), Nat.mul_div_cancel k (Nat.two_pow_pos s)]
  rfl

/-- The double that stands for a whole number has the value that the number is rounded to; beyond
the range it is infinite. -/
theorem ofRatio_whole (negative : Bool) {k : Nat} (hk : k ≠ 0) :
    (rounded k < 2 ^ 1024 →
      (ofRatio negative k 1).toInt? = some (Numeral.signed negative (rounded k))) ∧
    (2 ^ 1024 ≤ rounded k → ofRatio negative k 1 = .infinite negative) := by
  have hlow := pow_le_rounded hk
  by_cases hsmall : k.log2 < 52
  · -- The significand of a small number has 53 bits, of which the last ones are zero.
    have hscaled : scaledRound k 1 (k.log2 - 52) = k * 2 ^ (52 - k.log2) := by
      rw [scaledRound, if_neg (by omega), roundDiv_one, Nat.pow_eq]
      congr 2
      omega
    have hlt : k * 2 ^ (52 - k.log2) < 2 ^ 53 :=
      calc
        k * 2 ^ (52 - k.log2) < 2 ^ (k.log2 + 1) * 2 ^ (52 - k.log2) :=
          Nat.mul_lt_mul_of_pos_right Nat.lt_log2_self (Nat.two_pow_pos _)
        _ = 2 ^ 53 := by rw [← Nat.pow_add, show k.log2 + 1 + (52 - k.log2) = 53 by omega]
    have hvalue : rounded k = k := rounded_of_log2_le hsmall.le
    rw [ofRatio_one negative hk rfl hscaled.symm, if_neg hlt.ne,
      if_neg (by rw [maxExponent]; omega), hvalue]
    refine ⟨fun _ => ?_, fun hbeyond => ?_⟩
    · rw [show (k.log2 : Int) - 52 = -((52 - k.log2 : Nat) : Int) by omega]
      exact toInt?_of_negExponent negative k (by omega)
    · have hbound : k < 2 ^ (k.log2 + 1) := Nat.lt_log2_self
      have hpow : 2 ^ (k.log2 + 1) ≤ 2 ^ 1024 := pow_le_pow_right₀ (by decide) (by omega)
      omega
  · have hexp : (k.log2 : Int) - 52 = (k.log2 - 52 : Nat) := by omega
    have hscaled : scaledRound k 1 (k.log2 - 52) = roundDiv k (spacing k) := by
      rw [scaledRound, if_pos (by omega), Nat.one_mul, hexp, Int.toNat_natCast]
      rfl
    rw [ofRatio_one negative hk rfl hscaled.symm]
    by_cases hcarry : roundDiv k (spacing k) = 2 ^ 53
    · have hvalue : rounded k = 2 ^ (k.log2 + 1) := rounded_of_carry (by omega) hcarry
      have hexp' : (k.log2 : Int) - 52 + 1 = (k.log2 + 1 - 52 : Nat) := by omega
      rw [if_pos hcarry, hvalue, pow_lt_pow_iff_right₀ (by decide : 1 < 2),
        pow_le_pow_iff_right₀ (by decide : 1 < 2), maxExponent]
      refine ⟨fun hin => ?_, fun hbeyond => if_pos (by omega)⟩
      rw [if_neg (by omega), hexp', toInt?_of_natExponent, ← Nat.pow_add,
        show 52 + (k.log2 + 1 - 52) = k.log2 + 1 by omega]
    · have hlt : rounded k < 2 ^ (k.log2 + 1) := rounded_lt_of_ne (by omega) hcarry
      rw [if_neg hcarry, maxExponent]
      refine ⟨fun hin => ?_, fun hbeyond => if_pos ?_⟩
      · have hlog : k.log2 < 1024 :=
          (pow_lt_pow_iff_right₀ (by decide : 1 < 2)).mp (hlow.trans_lt hin)
        rw [if_neg (by omega), hexp]
        exact toInt?_of_natExponent negative _ _
      · have hlog : 1024 < k.log2 + 1 :=
          (pow_lt_pow_iff_right₀ (by decide : 1 < 2)).mp (hbeyond.trans_lt hlt)
        omega

/-- A whole number without a fraction part is read as a nearest double, or as an infinity where
it is half a unit of the last place beyond the greatest double or more. -/
theorem ofDecimal_whole (negative : Bool) (k : Nat) :
    (k < 2 ^ 1024 - 2 ^ 970 →
      (ofDecimal negative k 0).toInt? = some (Numeral.signed negative (rounded k))) ∧
    (2 ^ 1024 - 2 ^ 970 ≤ k → ofDecimal negative k 0 = .infinite negative) := by
  by_cases hk : k = 0
  · subst hk
    refine ⟨fun _ => ?_, fun hbeyond => absurd hbeyond (by omega)⟩
    rw [ofDecimal, if_pos rfl, zero, toInt?, if_neg (by decide)]
    dsimp only
    rw [Nat.zero_mod, if_pos rfl, Nat.zero_div, rounded_of_log2_le (by decide)]
    rfl
  have hrange := rounded_lt_iff hk
  by_cases hhuge : (k.log2 : Int) * 3 / 10 + 0 > 310
  · have hpow : 2 ^ 1024 ≤ 2 ^ k.log2 := pow_le_pow_right₀ (by decide) (by omega)
    have hlow := pow_le_rounded hk
    have hinf : ofDecimal negative k 0 = .infinite negative := by
      rw [ofDecimal, if_neg hk]
      exact if_pos hhuge
    exact ⟨fun hin => absurd (hrange.mpr hin) (by omega), fun _ => hinf⟩
  · have hratio : ofDecimal negative k 0 = ofRatio negative k 1 := by
      rw [ofDecimal, if_neg hk]
      dsimp only
      rw [if_neg hhuge, if_neg (by omega), if_pos (by decide), Int.toNat_zero, Nat.pow_eq,
        Nat.pow_zero, Nat.mul_one]
    obtain ⟨hin, hbeyond⟩ := ofRatio_whole negative hk
    rw [hratio]
    exact ⟨fun h => hin (hrange.mpr h), fun h => hbeyond (by omega)⟩

end ClientGen.Double
