import ClientGen.Proofs.Number.NumberTexts
import ClientGen.Proofs.Number.ShortestDecimal

/-! Written doubles read back. -/

namespace ClientGen.Double

open Numeral

/-! ### Digits -/

theorem natOfDigits_append (s t : List Char) :
    natOfDigits (s ++ t) = natOfDigits s * 10 ^ t.length + natOfDigits t := by
  have happend : natOfDigits (s ++ t) = Nat.ofDigitChars 10 t (natOfDigits s) :=
    Nat.ofDigitChars_append 0
  rw [happend, Nat.ofDigitChars_eq_ofDigitChars_zero, mul_comm]
  rfl

theorem natOfDigits_zeros (k : Nat) : natOfDigits (List.replicate k '0') = 0 :=
  (Nat.ofDigitChars_replicate_zero (b := 10) (n := k)).trans (Nat.mul_zero _)

theorem natOfDigits_digitsOf (n : Nat) : natOfDigits (digitsOf n) = n :=
  Nat.ofDigitChars_ten_toDigits

theorem isDigit_of_mem_zeros {k : Nat} : ∀ c ∈ List.replicate k '0', c.isDigit := by
  intro c hc
  rw [List.eq_of_mem_replicate hc]
  decide

/-- Zeros at the end of the digits go into the exponent. -/
theorem trimmed_spec {d : Decimal} (hd : d.digits ≠ 0) : d.trimmed.1 ≠ [] ∧
    (∀ c ∈ d.trimmed.1, c.isDigit) ∧
    (natOfDigits d.trimmed.1 : ℚ) * 10 ^ d.trimmed.2 = d.value := by
  obtain ⟨kept, hkept⟩ : ∃ kept, kept = (digitsOf d.digits).rdropWhile (· == '0') := ⟨_, rfl⟩
  have htrimmed : d.trimmed =
      (kept, d.exponent + ((digitsOf d.digits).length - kept.length : Nat)) := by
    rw [hkept]
    rfl
  have hzeros : (digitsOf d.digits).rtakeWhile (· == '0') =
      List.replicate ((digitsOf d.digits).rtakeWhile (· == '0')).length '0' :=
    List.eq_replicate_of_mem fun c hc => by simpa using List.mem_rtakeWhile_imp hc
  have hsplit : kept ++ (digitsOf d.digits).rtakeWhile (· == '0') = digitsOf d.digits := by
    rw [hkept, List.rdropWhile_append_rtakeWhile]
  generalize ((digitsOf d.digits).rtakeWhile (· == '0')).length = k at hzeros
  rw [hzeros] at hsplit
  have hvalue : d.digits = natOfDigits kept * 10 ^ k := by
    rw [← natOfDigits_digitsOf d.digits, ← hsplit, natOfDigits_append, natOfDigits_zeros,
      List.length_replicate, Nat.add_zero]
  have hlength : (digitsOf d.digits).length - kept.length = k := by
    rw [← hsplit, List.length_append, List.length_replicate, Nat.add_sub_cancel_left]
  rw [htrimmed, hlength]
  refine ⟨?_, fun c hc => ?_, ?_⟩
  · rintro rfl
    exact hd (hvalue.trans (Nat.zero_mul _))
  · have hmem : c ∈ digitsOf d.digits := hsplit ▸ List.mem_append_left _ hc
    exact isDigit_of_mem_toDigits c hmem
  · rw [Decimal.value, hvalue, zpow_add₀ (by norm_num), zpow_natCast]
    push_cast
    ring

/-! ### Layouts -/

/-- A text starts with a digit, and it is read as the double that a number is rounded to. -/
structure ReadsAs (s : List Char) (q : ℚ) : Prop where
  digit : ∃ b rest, s = b :: rest ∧ b.isDigit
  decimal (negative : Bool) : ∃ (digits : Nat) (exponent : Int),
    decimal? negative s = some (ofDecimal negative digits exponent) ∧
      (digits : ℚ) * 10 ^ exponent = q

/-- The exponent that a text in scientific layout ends with. -/
theorem exponent?_written (exponent : Int) :
    exponent? ('e' :: (if exponent < 0 then '-' else '+') ::
      (if (digitsOf exponent.natAbs).length < 2 then '0' :: digitsOf exponent.natAbs
        else digitsOf exponent.natAbs)) = some exponent := by
  obtain ⟨size, hsize⟩ : ∃ size, size = if (digitsOf exponent.natAbs).length < 2 then
    '0' :: digitsOf exponent.natAbs else digitsOf exponent.natAbs := ⟨_, rfl⟩
  have hspec : size ≠ [] ∧ (∀ c ∈ size, c.isDigit) ∧ natOfDigits size = exponent.natAbs := by
    have hall : ∀ c ∈ digitsOf exponent.natAbs, c.isDigit := isDigit_of_mem_toDigits
    rw [hsize]
    split_ifs
    · refine ⟨by simp, List.forall_mem_cons.mpr ⟨by decide, hall⟩, ?_⟩
      exact natOfDigits_digitsOf exponent.natAbs
    · exact ⟨Nat.toDigits_ne_nil, hall, natOfDigits_digitsOf _⟩
  rw [← hsize]
  obtain ⟨hsome, hall, hvalue⟩ := hspec
  have hread (negative : Bool) (mark : Char) (hmark : sign (mark :: size) = (negative, size)) :
      exponent? ('e' :: mark :: size) = some (signed negative exponent.natAbs) := by
    rw [exponent?, hmark, ← hvalue]
    exact if_pos ⟨.inl rfl, hsome, List.all_eq_true.mpr hall⟩
  split_ifs with hneg
  · rw [hread true '-' rfl, ← decide_eq_true hneg, signed_natAbs]
  · rw [hread false '+' rfl, ← decide_eq_false hneg, signed_natAbs]

section Layouts

variable {digits : List Char} (hne : digits ≠ []) (hdigits : ∀ c ∈ digits, c.isDigit)
include hne hdigits

theorem exists_digit (rest : List Char) : ∃ b others, digits ++ rest = b :: others ∧ b.isDigit := by
  obtain ⟨b, others, rfl⟩ := List.exists_cons_of_ne_nil hne
  exact ⟨b, others ++ rest, rfl, hdigits b List.mem_cons_self⟩

theorem readsAs_positional (point : Int) :
    ReadsAs (positional digits point) (natOfDigits digits * 10 ^ (point - digits.length)) := by
  unfold positional
  dsimp only
  split_ifs with hsmall hlong
  · refine ⟨⟨'0', _, rfl, by decide⟩, fun negative => ?_⟩
    have hread := decimal?_fraction negative ['0']
      (List.replicate (-point).toNat '0' ++ digits) [] (by simp) (by simp)
      (List.forall_mem_append.mpr ⟨isDigit_of_mem_zeros, hdigits⟩) (by simp) rfl
    rw [List.append_nil] at hread
    refine ⟨_, _, hread, ?_⟩
    have hvalue : natOfDigits (['0'] ++ (List.replicate (-point).toNat '0' ++ digits)) =
        natOfDigits digits := by
      rw [natOfDigits_append, natOfDigits_append, natOfDigits_zeros]
      simp [natOfDigits]
    rw [hvalue, List.length_append, List.length_replicate]
    congr 2
    omega
  · rw [List.append_assoc]
    refine ⟨exists_digit hne hdigits _, fun negative => ?_⟩
    have hread := decimal?_fraction negative
      (digits ++ List.replicate (point.toNat - digits.length) '0') ['0'] [] (by simp [hne])
      (List.forall_mem_append.mpr ⟨hdigits, isDigit_of_mem_zeros⟩)
      (by simp) (by simp) rfl
    rw [List.append_assoc digits, List.append_nil] at hread
    refine ⟨_, _, hread, ?_⟩
    have hpoint : point - digits.length = (point.toNat - digits.length : Nat) := by omega
    have hzero : natOfDigits ['0'] = 0 := rfl
    rw [natOfDigits_append, natOfDigits_append, natOfDigits_zeros, hzero, hpoint, zpow_natCast,
      List.length_replicate]
    simp [mul_assoc]
  · have htake : ∀ c ∈ digits.take point.toNat, c.isDigit :=
      fun c hc => hdigits c (List.mem_of_mem_take hc)
    have htakeNe : digits.take point.toNat ≠ [] := by
      rw [Ne, List.take_eq_nil_iff, not_or]
      exact ⟨by omega, hne⟩
    refine ⟨exists_digit htakeNe htake _, fun negative => ?_⟩
    have hread := decimal?_fraction negative (digits.take point.toNat)
      (digits.drop point.toNat) [] htakeNe htake
      (fun c hc => hdigits c (List.mem_of_mem_drop hc)) (by simp) rfl
    rw [List.append_nil] at hread
    refine ⟨_, _, hread, ?_⟩
    rw [List.take_append_drop, List.length_drop]
    congr 2
    omega

theorem readsAs_scientific (exponent : Int) :
    ReadsAs (scientific digits exponent)
      (natOfDigits digits * 10 ^ (exponent + 1 - digits.length)) := by
  have hexponent := exponent?_written exponent
  unfold scientific
  dsimp only
  generalize (if exponent < 0 then '-' else '+') :: (if (digitsOf exponent.natAbs).length < 2 then
    '0' :: digitsOf exponent.natAbs else digitsOf exponent.natAbs) = tail at *
  split
  · next d =>
    refine ⟨exists_digit hne hdigits _, fun negative => ?_⟩
    refine ⟨_, _, decimal?_whole negative [d] _ hne hdigits (by simp) hexponent, ?_⟩
    simp
  · next d rest _ =>
    refine ⟨⟨d, _, rfl, hdigits d List.mem_cons_self⟩, fun negative => ?_⟩
    obtain ⟨hd, hrest⟩ := List.forall_mem_cons.mp hdigits
    refine ⟨_, _, decimal?_fraction negative [d] rest _ (by simp) (by simpa using hd) hrest
      (by simp) hexponent, ?_⟩
    rw [List.singleton_append, List.length_cons]
    congr 2
    omega
  · exact absurd rfl hne

end Layouts

/-! ### Texts -/

theorem sign_text (negative : Bool) : Sign (if negative then "-" else "").toList negative := by
  cases negative with
  | false => exact .none
  | true => exact .minus

/-- After its sign, a text is read as the double that its number is rounded to. -/
theorem double?_of_readsAs {s : List Char} {q : ℚ} (h : ReadsAs s q) {negative : Bool}
    (hchars : IsNumberText ((if negative then "-" else "").toList ++ s)) :
    ∃ (digits : Nat) (exponent : Int), double? ((if negative then "-" else "").toList ++ s) =
      some (ofDecimal negative digits exponent) ∧ (digits : ℚ) * 10 ^ exponent = q := by
  obtain ⟨b, rest, rfl, hb⟩ := h.digit
  obtain ⟨digits, exponent, hread, hvalue⟩ := h.decimal negative
  exact ⟨digits, exponent, (double?_of_digit (sign_text negative) hb hchars).trans hread, hvalue⟩

/-- The text of a double is read as the double. -/
theorem double?_text {x : Double} (h : x.WellFormed) : double? x.text.toList = some x := by
  cases x with
  | nan => rfl
  | infinite negative => cases negative <;> rfl
  | finite negative m e =>
    have hchars := isNumberText_text (finite negative m e)
    have hc : IsCanonical m e := h
    unfold text at hchars ⊢
    dsimp only at hchars ⊢
    by_cases hm : m = 0
    · subst hm
      obtain rfl := hc.normal.resolve_left (by decide)
      cases negative <;> rfl
    rw [if_neg hm, String.toList_append, String.toList_ofList] at hchars ⊢
    have hrounds := rounds_shortest hc hm
    have hdigits : (shortest m e).digits ≠ 0 := by
      intro hzero
      have hpos := hrounds.pos hm
      rw [Decimal.value, hzero, Nat.cast_zero, zero_mul] at hpos
      exact lt_irrefl _ hpos
    obtain ⟨hne, hall, hvalue⟩ := trimmed_spec hdigits
    generalize (shortest m e).trimmed.1 = digits at *
    generalize (shortest m e).trimmed.2 = exponent at *
    have hreads : ReadsAs (if -4 < exponent + digits.length ∧ exponent + digits.length ≤ 16 then
        positional digits (exponent + digits.length)
        else scientific digits (exponent + digits.length - 1)) (shortest m e).value := by
      rw [← hvalue]
      split_ifs
      · have hread := readsAs_positional hne hall (exponent + digits.length)
        rwa [add_sub_cancel_right] at hread
      · have hread := readsAs_scientific hne hall (exponent + digits.length - 1)
        rwa [sub_add_cancel, add_sub_cancel_right] at hread
    obtain ⟨n, k, hread, hnumber⟩ := double?_of_readsAs hreads hchars
    rw [← hnumber] at hrounds
    rw [hread, ofDecimal_of_rounds negative hc hm hrounds]

/-- Different doubles have different texts. -/
theorem text_injective {x y : Double} (hx : x.WellFormed) (hy : y.WellFormed)
    (h : x.text = y.text) : x = y := by
  have hread := double?_text hx
  rw [h, double?_text hy] at hread
  exact (Option.some.inj hread).symm

/-- A written double has a point or a letter. -/
theorem exists_mark_text (x : Double) : ∃ c ∈ x.text.toList, c = '.' ∨ c = 'e' ∨ c = 'n' := by
  cases x with
  | nan => exact ⟨'n', by decide, .inr (.inr rfl)⟩
  | infinite negative => exact ⟨'n', by cases negative <;> decide, .inr (.inr rfl)⟩
  | finite negative m e =>
    unfold text
    dsimp only
    generalize (if negative = true then "-" else "") = sign
    by_cases hm : m = 0
    · rw [if_pos hm, String.toList_append]
      exact ⟨'.', List.mem_append_right _ (by decide), .inl rfl⟩
    · rw [if_neg hm, String.toList_append, String.toList_ofList]
      split_ifs
      · refine ⟨'.', List.mem_append_right _ ?_, .inl rfl⟩
        unfold positional
        dsimp only
        split_ifs <;> simp
      · refine ⟨'e', List.mem_append_right _ ?_, .inr (.inl rfl)⟩
        simp [scientific]

/-- No double is written like an integer. -/
theorem text_ne_toString (x : Double) (i : Int) : x.text ≠ toString i := by
  intro h
  obtain ⟨c, hc, hmark⟩ := x.exists_mark_text
  rw [h] at hc
  rcases mem_toString hc with rfl | hdigit
  · exact absurd hmark (by decide)
  · rcases hmark with rfl | rfl | rfl <;> exact absurd hdigit (by decide)

end ClientGen.Double

namespace ClientGen.Numeral

open Double

theorem wellFormed_decimal? {negative : Bool} {s : List Char} {x : Double}
    (h : decimal? negative s = some x) : x.WellFormed := by
  unfold decimal? at h
  dsimp only at h
  split_ifs at h
  obtain ⟨e, -, hx⟩ := Option.bind_eq_some_iff.mp h
  exact Option.some.inj hx ▸ wellFormed_ofDecimal _ _ _

/-- Every double that a text is read as has the one form. -/
theorem wellFormed_double? {s : List Char} {x : Double} (h : double? s = some x) :
    x.WellFormed := by
  simp only [double?, Option.bind_eq_bind, Option.bind_eq_some_iff] at h
  obtain ⟨body, -, kept, -, h⟩ := h
  split_ifs at h
  · exact Option.some.inj h ▸ trivial
  · exact Option.some.inj h ▸ trivial
  · exact wellFormed_decimal? h

end ClientGen.Numeral
