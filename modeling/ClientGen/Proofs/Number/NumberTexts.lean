import ClientGen.Number.Reader
import ClientGen.Number.Shortest
import ClientGen.Proofs.Number.Integers

/-! Texts of numbers: the characters they are written in, and how the reader takes a text apart into
a sign, digits, a fraction and an exponent. -/

namespace ClientGen

namespace Numeral

/-- The sign that an integer is written with. -/
def mark (n : Int) : List Char := if n < 0 then ['-'] else []

theorem sign_mark (n : Int) : Sign (mark n) (decide (n < 0)) := by
  unfold mark
  by_cases hneg : n < 0
  · rw [if_pos hneg, decide_eq_true hneg]
    exact .minus
  · rw [if_neg hneg, decide_eq_false hneg]
    exact .none

theorem toList_toString (n : Int) : (toString n).toList = mark n ++ Nat.toDigits 10 n.natAbs := by
  have hnat (k : Nat) : (toString k).toList = Nat.toDigits 10 k := by
    rw [Nat.toString_eq_ofList_toDigits, String.toList_ofList]
  cases n with
  | ofNat k => exact hnat k
  | negSucc k =>
    change ("-" ++ toString (k + 1)).toList = _
    rw [String.toList_append, hnat, mark, if_pos (Int.negSucc_lt_zero k)]
    rfl

theorem isDigit_of_mem_toDigits {k : Nat} : ∀ c ∈ Nat.toDigits 10 k, c.isDigit :=
  fun _ hc => Nat.isDigit_of_mem_toDigits (by decide) (by decide) hc

theorem mem_toString {n : Int} {c : Char} (h : c ∈ (toString n).toList) : c = '-' ∨ c.isDigit := by
  rw [toList_toString] at h
  rcases List.mem_append.mp h with hmark | hdigit
  · unfold mark at hmark
    split_ifs at hmark with hneg
    · exact .inl (List.mem_singleton.mp hmark)
    · cases hmark
  · exact .inr (isDigit_of_mem_toDigits c hdigit)

theorem signed_natAbs (n : Int) : signed (decide (n < 0)) n.natAbs = n := by
  unfold signed
  split_ifs with hneg
  · rw [decide_eq_true_eq] at hneg
    omega
  · rw [decide_eq_true_eq] at hneg
    omega

theorem toString_inj {i j : Int} (h : toString i = toString j) : i = j := by
  have hsign (n : Int) : sign (toString n).toList = (decide (n < 0), Nat.toDigits 10 n.natAbs) := by
    obtain ⟨b, rest, hdigits⟩ :=
      List.exists_cons_of_ne_nil (Nat.toDigits_ne_nil (b := 10) (n := n.natAbs))
    have hb : b.isDigit := isDigit_of_mem_toDigits b (hdigits ▸ List.mem_cons_self)
    rw [toList_toString, hdigits, sign_append (sign_mark n) hb]
  obtain ⟨hnegative, hdigits⟩ := Prod.mk.inj ((hsign i).symm.trans (h ▸ hsign j))
  calc i = signed (decide (i < 0)) i.natAbs := (signed_natAbs i).symm
    _ = signed (decide (j < 0)) j.natAbs := by
      rw [hnegative, ← Nat.ofDigitChars_ten_toDigits (n := i.natAbs), hdigits,
        Nat.ofDigitChars_ten_toDigits]
    _ = j := signed_natAbs j

end Numeral

/-- The characters of written numbers, those that are infinite or none included. -/
def isNumberChar (c : Char) : Bool :=
  c.isDigit || ['-', '+', '.', 'e', 'i', 'n', 'f', 'a'].contains c

/-- The characters of numbers are visible ones in ASCII. -/
theorem toNat_of_isNumberChar {c : Char} (h : isNumberChar c) :
    0x20 < c.toNat ∧ c.toNat < 0x80 := by
  rw [isNumberChar, Bool.or_eq_true] at h
  rcases h with hdigit | hother
  · have hrange := Text.isDigit_iff.mp hdigit
    omega
  · have hall : ['-', '+', '.', 'e', 'i', 'n', 'f', 'a'].all fun c =>
        decide (0x20 < c.toNat ∧ c.toNat < 0x80) := by decide
    exact of_decide_eq_true (List.all_eq_true.mp hall c (List.contains_iff_mem.mp hother))

/-- A text of characters of numbers. -/
def IsNumberText (s : List Char) : Prop := ∀ c ∈ s, isNumberChar c

instance (s : List Char) : Decidable (IsNumberText s) := List.decidableBAll _ s

theorem isNumberText_of_isDigit {s : List Char} (h : ∀ c ∈ s, c.isDigit) : IsNumberText s := by
  intro c hc
  rw [isNumberChar, h c hc, Bool.true_or]

theorem IsNumberText.append {s t : List Char} (hs : IsNumberText s) (ht : IsNumberText t) :
    IsNumberText (s ++ t) := List.forall_mem_append.mpr ⟨hs, ht⟩

theorem IsNumberText.cons {c : Char} {s : List Char} (hc : isNumberChar c) (hs : IsNumberText s) :
    IsNumberText (c :: s) := List.forall_mem_cons.mpr ⟨hc, hs⟩

theorem isNumberText_int (i : Int) : IsNumberText (toString i).toList := by
  intro c hc
  rcases Numeral.mem_toString hc with rfl | hdigit
  · decide
  · rw [isNumberChar, hdigit, Bool.true_or]

namespace Double

theorem isNumberText_positional {digits : List Char} (h : ∀ c ∈ digits, c.isDigit) (point : Int) :
    IsNumberText (positional digits point) := by
  have hzeros (n : Nat) : IsNumberText (List.replicate n '0') := by
    intro c hc
    rw [List.eq_of_mem_replicate hc]
    decide
  have hdigits := isNumberText_of_isDigit h
  unfold positional
  dsimp only
  split_ifs with hsmall hlong
  · exact .cons (by decide) (.cons (by decide) ((hzeros _).append hdigits))
  · exact (hdigits.append (hzeros _)).append (by decide)
  · refine IsNumberText.append (fun c hc => hdigits c (List.mem_of_mem_take hc)) ?_
    exact .cons (by decide) fun c hc => hdigits c (List.mem_of_mem_drop hc)

theorem isNumberText_scientific {digits : List Char} (h : ∀ c ∈ digits, c.isDigit)
    (exponent : Int) : IsNumberText (scientific digits exponent) := by
  have hsize : IsNumberText (digitsOf exponent.natAbs) :=
    isNumberText_of_isDigit Numeral.isDigit_of_mem_toDigits
  have hdigits := isNumberText_of_isDigit h
  unfold scientific
  dsimp only
  refine IsNumberText.append ?_ (.cons (by decide) (.cons ?_ ?_))
  · split
    · exact hdigits
    · obtain ⟨hfirst, hrest⟩ := List.forall_mem_cons.mp hdigits
      exact .cons hfirst (.cons (by decide) hrest)
    · exact hdigits
  · split_ifs <;> decide
  · split_ifs
    · exact .cons (by decide) hsize
    · exact hsize

/-- Every number is written in the characters of numbers. -/
theorem isNumberText_text (x : Double) : IsNumberText x.text.toList := by
  cases x with
  | nan => decide
  | infinite negative => cases negative <;> decide
  | finite negative m e =>
    have hsign : IsNumberText (if negative then "-" else "").toList := by
      cases negative <;> decide
    have hdigits : ∀ c ∈ (shortest m e).trimmed.1, c.isDigit := by
      intro c hc
      have hkept := List.mem_reverse.mp hc
      exact Numeral.isDigit_of_mem_toDigits c
        (List.mem_reverse.mp (List.dropWhile_subset _ hkept))
    unfold text
    dsimp only
    by_cases hzero : m = 0
    · rw [if_pos hzero, String.toList_append]
      exact hsign.append (by decide)
    · rw [if_neg hzero, String.toList_append, String.toList_ofList]
      refine hsign.append ?_
      split_ifs
      · exact isNumberText_positional hdigits _
      · exact isNumberText_scientific hdigits _

end Double

namespace Numeral

/-- Nothing is trimmed off a text in ASCII without blanks. -/
theorem body?_eq_self {s : List Char} (hne : s ≠ [])
    (h : ∀ c ∈ s, 0x20 < c.toNat ∧ c.toNat < 0x80) : body? s = some s := by
  have hascii : ascii? s = some s :=
    if_pos (List.all_eq_true.mpr fun c hc => decide_eq_true (h c hc).2)
  have hplain : ∀ c ∈ s, isAsciiBlank c = false := fun c hc => isAsciiBlank_eq_false (h c hc).1
  have htrim : Text.trimWhile isAsciiBlank s = s :=
    (Text.trimWhile_eq_iff hne).mpr ⟨fun c hc => hplain c (List.mem_of_head? hc),
      fun c hc => hplain c (List.mem_of_getLast? hc), [], [], by simp, by simp⟩
  rw [body?, hascii, Option.map_some, htrim]

theorem dropSeparators?_of_not_mem {s : List Char} (h : '_' ∉ s) (flag : Bool) :
    dropSeparators? flag s = some s := by
  induction s generalizing flag with
  | nil => rfl
  | cons c rest ih =>
    rw [List.mem_cons, not_or] at h
    rw [dropSeparators?_cons (Ne.symm h.1), ih h.2]
    rfl

/-- A row of digits ends where something else follows. -/
theorem takeWhile_isDigit {digits : List Char} (hdigits : ∀ c ∈ digits, c.isDigit)
    (rest : List Char) (hrest : ∀ c ∈ rest.head?, c.isDigit = false) :
    (digits ++ rest).takeWhile Char.isDigit = digits ∧
      (digits ++ rest).dropWhile Char.isDigit = rest := by
  rw [List.takeWhile_append_of_pos hdigits, List.dropWhile_append_of_pos hdigits]
  cases rest with
  | nil => simp
  | cons c rest =>
    have hc : ¬ c.isDigit = true := by simpa using hrest c rfl
    rw [List.takeWhile_cons_of_neg hc, List.dropWhile_cons_of_neg hc, List.append_nil]
    exact ⟨rfl, rfl⟩

section Parts

variable (negative : Bool) (whole fraction rest : List Char) {e : Int}

/-- A decimal fraction with a point. -/
theorem decimal?_fraction (hne : whole ≠ []) (hwhole : ∀ c ∈ whole, c.isDigit)
    (hfraction : ∀ c ∈ fraction, c.isDigit) (hrest : ∀ c ∈ rest.head?, c.isDigit = false)
    (he : exponent? rest = some e) :
    decimal? negative (whole ++ '.' :: (fraction ++ rest)) =
      some (Double.ofDecimal negative (natOfDigits (whole ++ fraction)) (e - fraction.length)) := by
  obtain ⟨htake, hdrop⟩ := takeWhile_isDigit hwhole ('.' :: (fraction ++ rest)) (by simp)
  obtain ⟨htail, hend⟩ := takeWhile_isDigit hfraction rest hrest
  unfold decimal?
  simp only [htake, hdrop, htail, hend, he]
  rw [if_neg (by simp [hne])]
  rfl

/-- Digits without a point after them. -/
theorem decimal?_whole (hne : whole ≠ []) (hwhole : ∀ c ∈ whole, c.isDigit)
    (hrest : ∀ c ∈ rest.head?, c.isDigit = false ∧ c ≠ '.') (he : exponent? rest = some e) :
    decimal? negative (whole ++ rest) = some (Double.ofDecimal negative (natOfDigits whole) e) := by
  obtain ⟨htake, hdrop⟩ := takeWhile_isDigit hwhole rest fun c hc => (hrest c hc).1
  unfold decimal?
  simp only [htake, hdrop]
  split
  · next tail => exact absurd rfl (hrest '.' rfl).2
  · simp [hne, he]

end Parts

/-- A number is read after its sign. -/
theorem double?_of_digit {sign rest : List Char} {negative : Bool} {b : Char}
    (hsign : Sign sign negative) (hb : b.isDigit) (h : IsNumberText (sign ++ b :: rest)) :
    double? (sign ++ b :: rest) = decimal? negative (b :: rest) := by
  have hbody : body? (sign ++ b :: rest) = some (sign ++ b :: rest) :=
    body?_eq_self (by simp) fun c hc => toNat_of_isNumberChar (h c hc)
  have hdrop : dropSeparators? false (sign ++ b :: rest) = some (sign ++ b :: rest) :=
    dropSeparators?_of_not_mem (fun hmem => absurd (h _ hmem) (by decide)) false
  -- The first letter of a word for an infinity or for no number is no digit.
  have hword (word : String) {first : Char} (hhead : word.toList.head? = some first)
      (hletter : first.isDigit = false) : String.ofList ((b :: rest).map Char.toLower) ≠ word := by
    rintro rfl
    rw [String.toList_ofList, List.map_cons, Text.toLower_eq_self (.inr hb)] at hhead
    obtain rfl := Option.some.inj hhead
    rw [hb] at hletter
    cases hletter
  have hinf := hword "inf" rfl rfl
  have hinfinity := hword "infinity" rfl rfl
  have hnan := hword "nan" rfl rfl
  unfold double?
  simp only [hbody, hdrop, Option.bind_eq_bind, Option.bind_some, sign_append hsign hb]
  rw [if_neg (not_or.mpr ⟨hinf, hinfinity⟩), if_neg hnan]

/-- The decimal text of an integer is read as the double that stands for it. -/
theorem double?_toString (n : Int) :
    double? (toString n).toList = some (Double.ofDecimal (decide (n < 0)) n.natAbs 0) := by
  have hvalue : natOfDigits (Nat.toDigits 10 n.natAbs) = n.natAbs := Nat.ofDigitChars_ten_toDigits
  have hdigits := isDigit_of_mem_toDigits (k := n.natAbs)
  have hchars := isNumberText_int n
  rw [toList_toString] at hchars ⊢
  obtain ⟨b, rest, hb⟩ := List.exists_cons_of_ne_nil (Nat.toDigits_ne_nil (b := 10) (n := n.natAbs))
  rw [hb] at hvalue hdigits hchars ⊢
  have hread := decimal?_whole (decide (n < 0)) (b :: rest) [] (List.cons_ne_nil b rest) hdigits
    (by simp) rfl
  rw [double?_of_digit (sign_mark n) (hdigits b List.mem_cons_self) hchars, ← hvalue]
  rwa [List.append_nil] at hread

end Numeral

end ClientGen
