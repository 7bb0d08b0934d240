import ClientGen.Number.Reader
import ClientGen.Proofs.Outcome
import ClientGen.Proofs.Text.Ascii
import ClientGen.Proofs.Text.Splitting
import Mathlib.Algebra.Group.Nat.Defs
import Mathlib.Data.List.Forall2

/-! Integers in texts: the reader accepts blanks, a sign, and digits of any script with single
underscores between them, and nothing else. -/

namespace ClientGen

namespace Text

theorem decimalValue?_eq_some {c : Char} {d : Nat} (h : decimalValue? c = some d) :
    ∃ z ∈ decimalZeros.toList, d < 10 ∧ c.toNat = z + d := by
  obtain ⟨z, hfind, rfl⟩ := Option.map_eq_some_iff.mp h
  have hrange := Array.find?_some hfind
  rw [Bool.and_eq_true_iff, decide_eq_true_eq, decide_eq_true_eq] at hrange
  refine ⟨z, Array.mem_toList_iff.mpr (Array.mem_of_find?_eq_some hfind), ?_, ?_⟩
  · omega
  · omega

/-- The digits of ASCII have the values that they show. -/
theorem decimalValue?_of_isDigit {c : Char} (h : c.isDigit) :
    decimalValue? c = some (c.toNat - 48) := by
  have hrange := isDigit_iff.mp h
  have hzeros : decimalZeros = #[0x30] ++ decimalZeros.extract 1 := by decide +kernel
  unfold decimalValue?
  rw [hzeros, Array.find?_append]
  simp [hrange.1, Nat.lt_succ_of_le hrange.2]

theorem isDigit_of_decimalValue? {c : Char} {d : Nat} (h : decimalValue? c = some d)
    (hascii : c.toNat < 0x80) : c.isDigit := by
  have hzeros : ∀ z ∈ decimalZeros.toList, z = 0x30 ∨ 0x80 ≤ z := by decide +kernel
  obtain ⟨z, hz, hd, hc⟩ := decimalValue?_eq_some h
  rcases hzeros z hz with rfl | hlarge
  · exact isDigit_iff.mpr (by omega)
  · omega

/-- No digit is white space. -/
theorem isSpace_of_decimalValue? {c : Char} {d : Nat} (h : decimalValue? c = some d) :
    isSpace c = false := by
  let space (n : Nat) : Bool :=
    (0x09 ≤ n && n ≤ 0x0d) || (0x1c ≤ n && n ≤ 0x20) || n == 0x85 || n == 0xa0 || n == 0x1680 ||
      (0x2000 ≤ n && n ≤ 0x200a) || n == 0x2028 || n == 0x2029 || n == 0x202f || n == 0x205f ||
      n == 0x3000
  have hnone : ∀ z ∈ decimalZeros.toList, ∀ k < 10, space (z + k) = false := by
    decide +kernel
  obtain ⟨z, hz, hd, hc⟩ := decimalValue?_eq_some h
  change space c.toNat = false
  rw [hc]
  exact hnone z hz d hd

end Text

namespace Numeral

/-- Blanks that may stand around a numeral: those of ASCII, and white space of other scripts. -/
def isBlank (c : Char) : Bool := isAsciiBlank c || (0x80 ≤ c.toNat && Text.isSpace c)

/-- A row of digits of any script, with single underscores between them: the value of all digits
when those before the row have the value `n`. -/
inductive Digits : Nat → List Char → Nat → Prop
  | last {n d : Nat} {c : Char} (h : Text.decimalValue? c = some d) : Digits n [c] (10 * n + d)
  | next {n d m : Nat} {c : Char} {rest : List Char} (h : Text.decimalValue? c = some d)
      (hrest : Digits (10 * n + d) rest m) : Digits n (c :: rest) m
  | underscore {n d m : Nat} {c : Char} {rest : List Char} (h : Text.decimalValue? c = some d)
      (hrest : Digits (10 * n + d) rest m) : Digits n (c :: '_' :: rest) m

/-- A sign or none, and whether it is a minus. -/
inductive Sign : List Char → Bool → Prop
  | none : Sign [] false
  | plus : Sign ['+'] false
  | minus : Sign ['-'] true

/-- Texts that stand for an integer: blanks, a sign, no more digits than a numeral may have, and
blanks. -/
inductive Spells : List Char → Int → Prop
  | numeral {before mark digits after : List Char} {negative : Bool} {n : Nat}
      (hblank : ∀ c ∈ before ++ after, isBlank c) (hmark : Sign mark negative)
      (hdigits : Digits 0 digits n) (hlimit : digits.countP (· != '_') ≤ digitLimit) :
      Spells (before ++ (mark ++ digits) ++ after) (signed negative n)

/-- How a character of a numeral is spelled in ASCII. -/
def asciiChar? (c : Char) : Option Char :=
  if c.toNat < 0x80 then some c
  else if Text.isSpace c then some ' '
  else (Text.decimalValue? c).map fun d => Char.ofNat (48 + d)

/-- Characters and their spellings in ASCII. -/
abbrev Ascii (s t : List Char) : Prop := List.Forall₂ (fun c b => asciiChar? c = some b) s t

theorem ascii?_eq_some_iff {s t : List Char} : ascii? s = some t ↔ Ascii s t := by
  have hmap {s t : List Char} : s.mapM asciiChar? = some t ↔ Ascii s t := mapM_eq_some
  rw [← hmap, ascii?]
  split_ifs with hascii
  · have hsame : Ascii s s := List.forall₂_same.mpr fun c hc => by
      rw [asciiChar?, if_pos (of_decide_eq_true (List.all_eq_true.mp hascii c hc))]
    rw [hmap.mpr hsame]
  · rfl

private theorem toNat_digit {d : Nat} (h : d < 10) : (Char.ofNat (48 + d)).toNat = 48 + d :=
  (by decide : ∀ d < 10, (Char.ofNat (48 + d)).toNat = 48 + d) d h

theorem asciiChar?_of_decimalValue? {c : Char} {d : Nat} (h : Text.decimalValue? c = some d) :
    ∃ b, asciiChar? c = some b ∧ b.isDigit ∧ b.toNat - 48 = d := by
  obtain ⟨-, -, hlt, -⟩ := Text.decimalValue?_eq_some h
  unfold asciiChar?
  split_ifs with hascii hspace
  · have hdigit := Text.isDigit_of_decimalValue? h hascii
    rw [Text.decimalValue?_of_isDigit hdigit] at h
    exact ⟨c, rfl, hdigit, Option.some.inj h⟩
  · rw [Text.isSpace_of_decimalValue? h] at hspace
    cases hspace
  · have hnat := toNat_digit hlt
    refine ⟨Char.ofNat (48 + d), by rw [h]; rfl, Text.isDigit_iff.mpr ?_, ?_⟩
    · omega
    · omega

theorem isAsciiBlank_eq_false {c : Char} (h : 0x20 < c.toNat) : isAsciiBlank c = false := by
  rw [isAsciiBlank, Bool.or_eq_false_iff, beq_eq_false_iff_ne, Bool.and_eq_false_iff]
  refine ⟨?_, .inr (decide_eq_false fun hle => ?_)⟩
  · rintro rfl
    exact absurd h (by decide)
  · have hle : c.toNat ≤ 0x0d := hle
    omega

section Character

variable {c b : Char} (h : asciiChar? c = some b)
include h

/-- A character of a numeral is in ASCII, or white space, or a digit. -/
theorem asciiChar?_cases : c.toNat < 0x80 ∧ b = c ∨ 0x80 ≤ c.toNat ∧ Text.isSpace c ∧ b = ' ' ∨
    0x80 ≤ c.toNat ∧ ∃ d < 10, Text.decimalValue? c = some d ∧ b = Char.ofNat (48 + d) := by
  unfold asciiChar? at h
  split_ifs at h with hascii hspace
  · exact .inl ⟨hascii, (Option.some.inj h).symm⟩
  · exact .inr (.inl ⟨not_lt.mp hascii, hspace, (Option.some.inj h).symm⟩)
  · obtain ⟨d, hd, rfl⟩ := Option.map_eq_some_iff.mp h
    obtain ⟨-, -, hlt, -⟩ := Text.decimalValue?_eq_some hd
    exact .inr (.inr ⟨not_lt.mp hascii, d, hlt, hd, rfl⟩)

theorem isAsciiBlank_eq : isAsciiBlank b = isBlank c := by
  have hlarge (hc : 0x80 ≤ c.toNat) : isBlank c = Text.isSpace c := by
    simp [isBlank, isAsciiBlank_eq_false (by omega : 0x20 < c.toNat), hc]
  rcases asciiChar?_cases h with ⟨hascii, rfl⟩ | ⟨hc, hspace, rfl⟩ | ⟨hc, d, hlt, hd, rfl⟩
  · have hsmall : ¬ 0x80 ≤ b.toNat := by omega
    simp [isBlank, hsmall]
  · rw [hlarge hc, hspace]
    rfl
  · rw [hlarge hc, Text.isSpace_of_decimalValue? hd]
    exact (by decide : ∀ d < 10, isAsciiBlank (Char.ofNat (48 + d)) = false) d hlt

theorem decimalValue?_eq (hdigit : b.isDigit) : Text.decimalValue? c = some (b.toNat - 48) := by
  rcases asciiChar?_cases h with ⟨hascii, rfl⟩ | ⟨hc, hspace, rfl⟩ | ⟨hc, d, hlt, hd, rfl⟩
  · exact Text.decimalValue?_of_isDigit hdigit
  · exact absurd hdigit (by decide)
  · rw [hd, toNat_digit hlt, Nat.add_sub_cancel_left]

theorem eq_of_mark (hmark : b = '+' ∨ b = '-' ∨ b = '_') : c = b := by
  rcases asciiChar?_cases h with ⟨hascii, rfl⟩ | ⟨hc, hspace, rfl⟩ | ⟨hc, d, hlt, hd, rfl⟩
  · rfl
  · exact absurd hmark (by decide)
  · exact absurd hmark ((by decide : ∀ d < 10, ¬ (Char.ofNat (48 + d) = '+' ∨
      Char.ofNat (48 + d) = '-' ∨ Char.ofNat (48 + d) = '_')) d hlt)

end Character

/-- The value of a row of digits that is read on from a value. -/
abbrev valueFrom (n : Nat) (digits : List Char) : Nat :=
  digits.foldl (fun n c => 10 * n + (c.toNat - 48)) n

theorem dropSeparators?_cons {b : Char} (hb : b ≠ '_') (flag : Bool) (rest : List Char) :
    dropSeparators? flag (b :: rest) = (dropSeparators? b.isDigit rest).map (b :: ·) := by
  rw [dropSeparators?.eq_3 _ _ _ fun _ _ heq _ => hb heq, if_neg hb]

theorem eq_filter_of_dropSeparators? {flag : Bool} {s ds : List Char}
    (h : dropSeparators? flag s = some ds) : ds = s.filter (· != '_') := by
  induction flag, s using dropSeparators?.induct generalizing ds with
  | case1 flag =>
    obtain rfl := Option.some.inj h
    rfl
  | case2 flag b rest hand ih =>
    rw [dropSeparators?, if_pos hand] at h
    obtain ⟨others, hothers, rfl⟩ := Option.map_eq_some_iff.mp h
    have hb : b ≠ '_' := by
      rintro rfl
      exact absurd hand (by simp)
    rw [ih hothers, List.filter_cons_of_neg (by simp), List.filter_cons_of_pos (by simpa using hb)]
  | case3 flag b rest hand =>
    rw [dropSeparators?, if_neg hand] at h
    cases h
  | case4 flag rest hrest =>
    rw [dropSeparators?.eq_3 _ _ _ hrest, if_pos rfl] at h
    cases h
  | case5 flag b rest _ hb ih =>
    rw [dropSeparators?_cons hb] at h
    obtain ⟨others, hothers, rfl⟩ := Option.map_eq_some_iff.mp h
    rw [ih hothers, List.filter_cons_of_pos (by simpa using hb)]

/-- A row of digits has as many as are left without its underscores. -/
theorem length_of_dropSeparators? {flag : Bool} {s t ds : List Char} (hascii : Ascii s t)
    (h : dropSeparators? flag t = some ds) : ds.length = s.countP (· != '_') := by
  rw [eq_filter_of_dropSeparators? h, ← List.countP_eq_length_filter]
  clear h
  induction hascii with
  | nil => rfl
  | @cons c b s t hchar _ ih =>
    have hsame : c = '_' ↔ b = '_' := by
      constructor
      · rintro rfl
        exact (Option.some.inj hchar).symm
      · rintro rfl
        exact eq_of_mark hchar (by decide)
    simp [List.countP_cons, ih, hsame]

/-- After a digit, what loses its underscores goes on with the row of digits. -/
theorem digits_cons_of_dropSeparators? {s t ds : List Char} (hascii : Ascii s t)
    (h : dropSeparators? true t = some ds) (hdigits : ∀ b ∈ ds, b.isDigit) {n d : Nat} {c : Char}
    (hc : Text.decimalValue? c = some d) :
    Digits n (c :: s) (valueFrom (10 * n + d) ds) := by
  generalize hflag : true = flag at h
  induction flag, t using dropSeparators?.induct generalizing s ds n d c with
  | case1 flag =>
    obtain rfl := List.forall₂_nil_right_iff.mp hascii
    obtain rfl := Option.some.inj h
    exact .last hc
  | case2 flag b rest hand ih =>
    rw [dropSeparators?, if_pos hand] at h
    obtain ⟨others, hothers, rfl⟩ := Option.map_eq_some_iff.mp h
    obtain ⟨u, s, hu, htail, rfl⟩ := List.forall₂_cons_right_iff.mp hascii
    obtain ⟨c', s', hc', hrest, rfl⟩ := List.forall₂_cons_right_iff.mp htail
    obtain ⟨hb, hall⟩ := List.forall_mem_cons.mp hdigits
    obtain rfl := eq_of_mark hu (by decide)
    exact .underscore hc (ih hrest hall (decimalValue?_eq hc' hb) rfl hothers)
  | case3 flag b rest hand =>
    rw [dropSeparators?, if_neg hand] at h
    cases h
  | case4 flag rest hrest =>
    rw [dropSeparators?.eq_3 _ _ _ hrest, if_pos rfl] at h
    cases h
  | case5 flag b rest _ hb ih =>
    rw [dropSeparators?_cons hb] at h
    obtain ⟨others, hothers, rfl⟩ := Option.map_eq_some_iff.mp h
    obtain ⟨c', s', hc', hrest, rfl⟩ := List.forall₂_cons_right_iff.mp hascii
    obtain ⟨hb, hall⟩ := List.forall_mem_cons.mp hdigits
    exact .next hc (ih hrest hall (decimalValue?_eq hc' hb) hb.symm hothers)

/-- What loses its underscores at the start of a numeral is a row of digits. -/
theorem digits_of_dropSeparators? {s t ds : List Char} (hascii : Ascii s t)
    (h : dropSeparators? false t = some ds) (hne : ds ≠ []) (hdigits : ∀ b ∈ ds, b.isDigit)
    (n : Nat) : Digits n s (valueFrom n ds) := by
  cases t with
  | nil => exact absurd (Option.some.inj h).symm hne
  | cons b rest =>
    have hb : b ≠ '_' := by
      rintro rfl
      cases rest <;> cases h
    rw [dropSeparators?_cons hb] at h
    obtain ⟨others, hothers, rfl⟩ := Option.map_eq_some_iff.mp h
    obtain ⟨c, s', hc, hrest, rfl⟩ := List.forall₂_cons_right_iff.mp hascii
    obtain ⟨hdigit, hall⟩ := List.forall_mem_cons.mp hdigits
    rw [hdigit] at hothers
    exact digits_cons_of_dropSeparators? hrest hothers hall (decimalValue?_eq hc hdigit)

/-- A row of digits in ASCII, without its underscores. -/
theorem exists_ascii_of_digits {n m : Nat} {s : List Char} (h : Digits n s m) :
    ∃ b rest ds, Ascii s (b :: rest) ∧ b.isDigit ∧ (∀ c ∈ (b :: rest).getLast?, c.isDigit) ∧
      (∀ flag, dropSeparators? flag (b :: rest) = some ds) ∧ ds ≠ [] ∧ (∀ c ∈ ds, c.isDigit) ∧
      m = valueFrom n ds := by
  have hmark {b : Char} (hb : b.isDigit) : b ≠ '_' := by
    rintro rfl
    exact absurd hb (by decide)
  induction h with
  | last hc =>
    obtain ⟨b, hascii, hb, rfl⟩ := asciiChar?_of_decimalValue? hc
    refine ⟨b, [], [b], .cons hascii .nil, hb, by simpa using hb, fun flag => ?_, by simp,
      by simpa using hb, rfl⟩
    rw [dropSeparators?_cons (hmark hb)]
    rfl
  | next hc _ ih =>
    obtain ⟨b, hascii, hb, rfl⟩ := asciiChar?_of_decimalValue? hc
    obtain ⟨b', rest, ds, hrest, _, hlast, hdrop, _, hall, rfl⟩ := ih
    refine ⟨b, b' :: rest, b :: ds, .cons hascii hrest, hb, by simpa using hlast, fun flag => ?_,
      by simp, List.forall_mem_cons.mpr ⟨hb, hall⟩, rfl⟩
    rw [dropSeparators?_cons (hmark hb), hdrop]
    rfl
  | underscore hc _ ih =>
    obtain ⟨b, hascii, hb, rfl⟩ := asciiChar?_of_decimalValue? hc
    obtain ⟨b', rest, ds, hrest, hb', hlast, hdrop, _, hall, rfl⟩ := ih
    refine ⟨b, '_' :: b' :: rest, b :: ds, .cons hascii (.cons rfl hrest), hb,
      by simpa using hlast, fun flag => ?_, by simp, List.forall_mem_cons.mpr ⟨hb, hall⟩, rfl⟩
    have hunder : dropSeparators? true ('_' :: b' :: rest) = some ds := by
      rw [← hdrop true, dropSeparators?_cons (hmark hb'), dropSeparators?, hb']
      rfl
    rw [dropSeparators?_cons (hmark hb), hb, hunder]
    rfl

theorem exists_append_of_ascii {s a b : List Char} (h : Ascii s (a ++ b)) :
    ∃ s₁ s₂, s = s₁ ++ s₂ ∧ Ascii s₁ a ∧ Ascii s₂ b :=
  ⟨s.take a.length, s.drop a.length, (List.take_append_drop _ s).symm,
    List.forall₂_take_append _ _ _ h, List.forall₂_drop_append _ _ _ h⟩

theorem isBlank_iff {s t : List Char} (h : Ascii s t) :
    (∀ b ∈ t, isAsciiBlank b) ↔ ∀ c ∈ s, isBlank c := by
  obtain ⟨hleft, hright⟩ := exists_mem_of_forall₂ h
  constructor
  · intro ht c hc
    obtain ⟨b, hb, hcb⟩ := hleft c hc
    exact isAsciiBlank_eq hcb ▸ ht b hb
  · intro hs b hb
    obtain ⟨c, hc, hcb⟩ := hright b hb
    exact isAsciiBlank_eq hcb ▸ hs c hc

theorem exists_mark_of_ascii {s t : List Char} (h : Ascii s t) :
    ∃ mark rest, s = mark ++ rest ∧ Sign mark (sign t).1 ∧ Ascii rest (sign t).2 := by
  unfold sign
  split
  · obtain ⟨c, rest, hc, hrest, rfl⟩ := List.forall₂_cons_right_iff.mp h
    obtain rfl := eq_of_mark hc (by decide)
    exact ⟨['-'], rest, rfl, .minus, hrest⟩
  · obtain ⟨c, rest, hc, hrest, rfl⟩ := List.forall₂_cons_right_iff.mp h
    obtain rfl := eq_of_mark hc (by decide)
    exact ⟨['+'], rest, rfl, .plus, hrest⟩
  · exact ⟨[], s, rfl, .none, h⟩

theorem sign_append {mark rest : List Char} {negative : Bool} {b : Char}
    (h : Sign mark negative) (hb : b.isDigit) :
    sign (mark ++ b :: rest) = (negative, b :: rest) := by
  cases h with
  | none =>
    unfold sign
    split
    · next heq =>
      obtain ⟨rfl, -⟩ := List.cons.inj heq
      exact absurd hb (by decide)
    · next heq =>
      obtain ⟨rfl, -⟩ := List.cons.inj heq
      exact absurd hb (by decide)
    · rfl
  | plus => rfl
  | minus => rfl

/-- What is read as an integer spells it. -/
theorem spells_of_int? {s : List Char} {i : Int} (h : int? s = some i) : Spells s i := by
  simp only [int?, body?, Option.bind_eq_bind, Option.bind_eq_some_iff, Option.map_eq_some_iff] at h
  obtain ⟨body, ⟨t, ht, hbody⟩, digits, hdrop, h⟩ := h
  split_ifs at h with hdigits
  obtain rfl := Option.some.inj h
  obtain ⟨hne, hall, hlimit⟩ := hdigits
  have hbodyne : body ≠ [] := by
    rintro rfl
    exact hne (Option.some.inj hdrop).symm
  obtain ⟨-, -, before, after, rfl, hblank⟩ := (Text.trimWhile_eq_iff hbodyne).mp hbody
  obtain ⟨s, s₃, rfl, hs, h₃⟩ := exists_append_of_ascii (ascii?_eq_some_iff.mp ht)
  obtain ⟨s₁, s₂, rfl, h₁, h₂⟩ := exists_append_of_ascii hs
  obtain ⟨mark, row, rfl, hmark, hrow⟩ := exists_mark_of_ascii h₂
  obtain ⟨hbefore, hafter⟩ := List.forall_mem_append.mp hblank
  refine .numeral (List.forall_mem_append.mpr ⟨(isBlank_iff h₁).mp hbefore,
    (isBlank_iff h₃).mp hafter⟩) hmark ?_ ?_
  · exact digits_of_dropSeparators? hrow hdrop hne (List.all_eq_true.mp hall) 0
  · exact length_of_dropSeparators? hrow hdrop ▸ hlimit

theorem exists_ascii_of_blank {s : List Char} (h : ∀ c ∈ s, isBlank c) :
    ∃ t, Ascii s t ∧ ∀ b ∈ t, isAsciiBlank b := by
  have hchar : ∀ c ∈ s, ∃ b, asciiChar? c = some b := by
    intro c hc
    have hblank := h c hc
    unfold asciiChar?
    split_ifs with hascii hspace
    · exact ⟨c, rfl⟩
    · exact ⟨' ', rfl⟩
    · rw [isBlank, isAsciiBlank_eq_false (by omega), Bool.false_or, Bool.and_eq_true_iff] at hblank
      exact absurd hblank.2 hspace
  have hspelled : ∃ t, Ascii s t := by
    clear h
    induction s with
    | nil => exact ⟨[], .nil⟩
    | cons c s ih =>
      obtain ⟨⟨b, hb⟩, hrest⟩ := List.forall_mem_cons.mp hchar
      obtain ⟨t, ht⟩ := ih hrest
      exact ⟨b :: t, .cons hb ht⟩
  obtain ⟨t, ht⟩ := hspelled
  exact ⟨t, ht, (isBlank_iff ht).mpr h⟩

/-- What spells an integer is read as it. -/
theorem int?_of_spells {s : List Char} {i : Int} (h : Spells s i) : int? s = some i := by
  obtain @⟨before, mark, row, after, negative, n, hblank, hmark, hrow, hlimit⟩ := h
  obtain ⟨hbefore, hafter⟩ := List.forall_mem_append.mp hblank
  obtain ⟨b, rest, digits, hdigits, hb, hlast, hdrop, hne, hall, rfl⟩ := exists_ascii_of_digits hrow
  obtain ⟨t₁, h₁, hblank₁⟩ := exists_ascii_of_blank hbefore
  obtain ⟨t₃, h₃, hblank₃⟩ := exists_ascii_of_blank hafter
  have hplain {c : Char} (hc : c.isDigit) : isAsciiBlank c = false :=
    isAsciiBlank_eq_false (by have hrange := Text.isDigit_iff.mp hc; omega)
  have hascii : Ascii (before ++ (mark ++ row) ++ after) (t₁ ++ (mark ++ b :: rest) ++ t₃) := by
    refine List.rel_append (List.rel_append h₁ (List.rel_append ?_ hdigits)) h₃
    cases hmark with
    | none => exact .nil
    | plus => exact .cons rfl .nil
    | minus => exact .cons rfl .nil
  have htrim : Text.trimWhile isAsciiBlank (t₁ ++ (mark ++ b :: rest) ++ t₃) =
      mark ++ b :: rest := by
    refine (Text.trimWhile_eq_iff (by simp)).mpr ⟨fun c hc => ?_, fun c hc => ?_, t₁, t₃, rfl,
      List.forall_mem_append.mpr ⟨hblank₁, hblank₃⟩⟩
    · cases hmark with
      | none =>
        obtain rfl := Option.some.inj hc
        exact hplain hb
      | plus =>
        obtain rfl := Option.some.inj hc
        rfl
      | minus =>
        obtain rfl := Option.some.inj hc
        rfl
    · rw [List.getLast?_append_of_ne_nil _ (List.cons_ne_nil _ _)] at hc
      exact hplain (hlast c hc)
  simp only [int?, body?, ascii?_eq_some_iff.mpr hascii, Option.map_some, htrim,
    Option.bind_eq_bind, Option.bind_some, sign_append hmark hb, hdrop]
  rw [← length_of_dropSeparators? hdigits (hdrop true)] at hlimit
  rw [if_pos ⟨hne, List.all_eq_true.mpr hall, hlimit⟩]
  rfl

theorem int?_eq_some_iff {s : List Char} {i : Int} : int? s = some i ↔ Spells s i :=
  ⟨spells_of_int?, int?_of_spells⟩

/-- A text stands for one integer at most. -/
theorem Spells.unique {s : List Char} {i j : Int} (hi : Spells s i) (hj : Spells s j) : i = j :=
  Option.some.inj ((int?_of_spells hi).symm.trans (int?_of_spells hj))

/-- Digits of ASCII are a row of digits. -/
theorem digits_of_isDigit {s : List Char} (hne : s ≠ []) (h : ∀ c ∈ s, c.isDigit) (n : Nat) :
    Digits n s (valueFrom n s) := by
  induction s generalizing n with
  | nil => exact absurd rfl hne
  | cons c rest ih =>
    obtain ⟨hc, hrest⟩ := List.forall_mem_cons.mp h
    have hvalue := Text.decimalValue?_of_isDigit hc
    cases rest with
    | nil => exact .last hvalue
    | cons b others => exact .next hvalue (ih (List.cons_ne_nil _ _) hrest _)

theorem countP_of_isDigit {s : List Char} (h : ∀ c ∈ s, c.isDigit) :
    s.countP (· != '_') = s.length := by
  refine List.countP_eq_length.mpr fun c hc => bne_iff_ne.mpr ?_
  rintro rfl
  exact absurd (h _ hc) (by decide)

theorem spells_of_isDigit {s : List Char} (hne : s ≠ []) (h : ∀ c ∈ s, c.isDigit)
    (hlimit : s.length ≤ digitLimit) : Spells s (natOfDigits s) := by
  have hblank : ∀ c ∈ ([] ++ [] : List Char), isBlank c := by simp
  have hspells := Spells.numeral hblank .none (digits_of_isDigit hne h 0)
    ((countP_of_isDigit h).symm ▸ hlimit)
  rwa [List.nil_append, List.nil_append, List.append_nil] at hspells

/-- A text of digits that spells an integer is no longer than a numeral may be. -/
theorem Spells.length_le {s : List Char} {i : Int} (hi : Spells s i) (h : ∀ c ∈ s, c.isDigit) :
    s.length ≤ digitLimit := by
  obtain @⟨before, mark, row, after, negative, n, hblank, hmark, hrow, hlimit⟩ := hi
  have hplain : ∀ c ∈ before ++ after, ¬ c.isDigit := by
    intro c hc hdigit
    have hrange := Text.isDigit_iff.mp hdigit
    have hblank := hblank c hc
    rw [isBlank, isAsciiBlank_eq_false (by omega), Bool.false_or, Bool.and_eq_true_iff,
      decide_eq_true_eq] at hblank
    omega
  obtain ⟨hstart, hafter⟩ := List.forall_mem_append.mp h
  obtain ⟨hbefore, hmiddle⟩ := List.forall_mem_append.mp hstart
  obtain ⟨hsign, hdigits⟩ := List.forall_mem_append.mp hmiddle
  obtain rfl : before = [] := List.eq_nil_iff_forall_not_mem.mpr fun c hc =>
    hplain c (List.mem_append_left _ hc) (hbefore c hc)
  obtain rfl : after = [] := List.eq_nil_iff_forall_not_mem.mpr fun c hc =>
    hplain c (List.mem_append_right _ hc) (hafter c hc)
  rw [countP_of_isDigit hdigits] at hlimit
  cases hmark with
  | none => simpa using hlimit
  | plus => exact absurd (hsign _ List.mem_cons_self) (by decide)
  | minus => exact absurd (hsign _ List.mem_cons_self) (by decide)

/-- The integers below a power of ten have numerals, and no others. -/
theorem hasText_iff {i : Int} : hasText i ↔ i.natAbs < 10 ^ digitLimit := by
  rw [hasText, decide_eq_true_eq]
  exact Nat.length_toDigits_le_iff (by decide) (by decide)

theorem isDigit_of_mem_toString (n : Nat) : ∀ c ∈ (toString n).toList, c.isDigit := by
  intro c hc
  rw [Nat.toString_eq_ofList_toDigits, String.toList_ofList] at hc
  exact Nat.isDigit_of_mem_toDigits (by decide) (by decide) hc

/-- The decimal digits of a number spell it, unless they are too many. -/
theorem spells_toString {n : Nat} (h : hasText n) : Spells (toString n).toList n := by
  have hchars : (toString n).toList = Nat.toDigits 10 n := by
    rw [Nat.toString_eq_ofList_toDigits, String.toList_ofList]
  have hne : (toString n).toList ≠ [] := hchars ▸ Nat.toDigits_ne_nil
  have hvalue : natOfDigits (toString n).toList = n := by
    rw [hchars]
    exact Nat.ofDigitChars_ten_toDigits
  have hlimit : (toString n).toList.length ≤ digitLimit := by
    rw [hchars]
    exact of_decide_eq_true h
  have hspells := spells_of_isDigit hne (isDigit_of_mem_toString n) hlimit
  rwa [hvalue] at hspells

/-- A canonical index: digits of ASCII only, and no zero before another digit. -/
def IsIndex (s : List Char) : Prop :=
  s ≠ [] ∧ (∀ c ∈ s, c.isDigit) ∧ (s.head? = some '0' → s = ['0'])

instance (s : List Char) : Decidable (IsIndex s) :=
  inferInstanceAs (Decidable (s ≠ [] ∧ (∀ c ∈ s, c.isDigit) ∧ (s.head? = some '0' → s = ['0'])))

/-- A canonical index stands for the position that its digits show, if they are not too many. -/
structure Counts (s : List Char) (i : Int) : Prop where
  isIndex : IsIndex s
  length_le : s.length ≤ digitLimit
  eq_natOfDigits : i = natOfDigits s

theorem Counts.spells {s : List Char} {i : Int} (h : Counts s i) : Spells s i := by
  obtain ⟨⟨hne, hdigits, -⟩, hlimit, rfl⟩ := h
  exact spells_of_isDigit hne hdigits hlimit

theorem counts_of_spells {s : List Char} {i : Int} (hi : Spells s i) (h : IsIndex s) :
    Counts s i := by
  have hcounts : Counts s (natOfDigits s) := ⟨h, hi.length_le h.2.1, rfl⟩
  rwa [hi.unique hcounts.spells]

theorem not_counts_negSucc {s : List Char} {n : Nat} : ¬ Counts s (Int.negSucc n) := by
  rintro ⟨-, -, h⟩
  cases h

end Numeral

end ClientGen
