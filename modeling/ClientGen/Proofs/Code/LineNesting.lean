import Mathlib.Data.List.Basic
import Mathlib.Tactic.SplitIfs

/-! Lines that open and close brackets: which opening line encloses a line, and when there is one.
-/

namespace ClientGen.Layout

/-- What a line does to the lines after it. A line that closes and opens is `both`. -/
inductive LineKind where
  | opening
  | closing
  | both
  | plain
deriving DecidableEq, Repr

namespace LineKind

/-- How many more lines open than close. -/
def height (ks : List LineKind) : Int := (ks.count opening : Int) - ks.count closing

@[simp] theorem height_nil : height [] = 0 := rfl

@[simp] theorem height_append (a b : List LineKind) : height (a ++ b) = height a + height b := by
  unfold height
  rw [List.count_append, List.count_append]
  omega

@[simp] theorem height_opening (ks : List LineKind) :
    height (opening :: ks) = height ks + 1 := by
  simp [height]
  omega

@[simp] theorem height_closing (ks : List LineKind) :
    height (closing :: ks) = height ks - 1 := by
  simp [height]
  omega

theorem height_cons {k : LineKind} (hopen : k ≠ opening) (hclose : k ≠ closing)
    (ks : List LineKind) : height (k :: ks) = height ks := by
  simp [height, hopen, hclose]

/-- Lines that close what they open and nothing else. -/
inductive Balanced : List LineKind → Prop
  | nil : Balanced []
  | line {k : LineKind} (hopen : k ≠ opening) (hclose : k ≠ closing) : Balanced [k]
  | pair {a : List LineKind} (h : Balanced a) : Balanced (opening :: a ++ [closing])
  | append {a b : List LineKind} (ha : Balanced a) (hb : Balanced b) : Balanced (a ++ b)

theorem Balanced.height_eq {ks : List LineKind} (h : Balanced ks) : height ks = 0 := by
  induction h with
  | nil => rfl
  | line hopen hclose => exact height_cons hopen hclose []
  | pair _ ih => simp [ih]
  | append _ _ iha ihb => simp [iha, ihb]

/-- Nothing is closed before it is opened. -/
theorem Balanced.height_take {ks : List LineKind} (h : Balanced ks) (n : Nat) :
    0 ≤ height (ks.take n) := by
  induction h generalizing n with
  | nil => simp
  | line hopen hclose =>
    cases n with
    | zero => simp
    | succ n => simp [height_cons hopen hclose]
  | @pair a _ ih =>
    cases n with
    | zero => simp
    | succ n =>
      have hinner := ih n
      have hlast : -1 ≤ height ([closing].take (n - a.length)) := by
        cases n - a.length with
        | zero => simp
        | succ m => simp
      rw [List.cons_append, List.take_succ_cons, height_opening, List.take_append, height_append]
      omega
  | @append a b _ _ iha ihb =>
    have hfirst := iha n
    have hsecond := ihb (n - a.length)
    rw [List.take_append, height_append]
    omega

/-- Lines that close more than they open have a first line that closes too much. -/
theorem exists_closing {ks : List LineKind} (h : height ks < 0) :
    ∃ inner rest, ks = inner ++ closing :: rest ∧ Balanced inner := by
  induction hn : ks.length using Nat.strongRecOn generalizing ks with
  | ind n ih =>
    cases ks with
    | nil => simp at h
    | cons k ks =>
      rw [List.length_cons] at hn
      by_cases hopen : k = opening
      · -- What follows closes at least two lines too much: the second of these is the one.
        subst hopen
        rw [height_opening] at h
        obtain ⟨a, rest, rfl, ha⟩ := ih ks.length (by omega) (by omega) rfl
        rw [height_append, ha.height_eq, height_closing] at h
        rw [List.length_append, List.length_cons] at hn
        obtain ⟨b, rest, rfl, hb⟩ := ih rest.length (by omega) (by omega) rfl
        exact ⟨(opening :: a ++ [closing]) ++ b, rest, by simp, ha.pair.append hb⟩
      · by_cases hclose : k = closing
        · subst hclose
          exact ⟨[], ks, rfl, .nil⟩
        · rw [height_cons hopen hclose] at h
          obtain ⟨a, rest, rfl, ha⟩ := ih ks.length (by omega) h rfl
          exact ⟨[k] ++ a, rest, by simp, .append (.line hopen hclose) ha⟩

def swap : LineKind → LineKind
  | opening => closing
  | closing => opening
  | k => k

/-- The lines read from the end, where opening and closing lines change places. -/
def mirror (ks : List LineKind) : List LineKind := (ks.map swap).reverse

theorem mirror_append (a b : List LineKind) : mirror (a ++ b) = mirror b ++ mirror a := by
  rw [mirror, List.map_append, List.reverse_append]
  rfl

theorem mirror_cons (k : LineKind) (ks : List LineKind) :
    mirror (k :: ks) = mirror ks ++ [k.swap] := by
  simp [mirror]

theorem mirror_mirror (ks : List LineKind) : mirror (mirror ks) = ks := by
  have hswap : swap ∘ swap = id := by
    funext k
    cases k <;> rfl
  simp [mirror, hswap]

theorem height_mirror (ks : List LineKind) : height (mirror ks) = -height ks := by
  induction ks with
  | nil => rfl
  | cons k ks ih =>
    rw [mirror_cons, height_append, ih]
    cases k <;> simp [swap, height_cons] <;> omega

theorem Balanced.mirror {ks : List LineKind} (h : Balanced ks) : Balanced (mirror ks) := by
  induction h with
  | nil => exact .nil
  | @line k hopen hclose =>
    cases k with
    | opening => exact absurd rfl hopen
    | closing => exact absurd rfl hclose
    | both => exact .line (by decide) (by decide)
    | plain => exact .line (by decide) (by decide)
  | @pair a _ ih =>
    rw [mirror_append, mirror_cons, mirror_cons]
    exact ih.pair
  | append _ _ iha ihb =>
    rw [mirror_append]
    exact ihb.append iha

/-- Lines that open more than they close have a last line that is left open. -/
theorem exists_opening {ks : List LineKind} (h : 0 < height ks) :
    ∃ before inner, ks = before ++ opening :: inner ∧ Balanced inner := by
  have hmirror : height (mirror ks) < 0 := by
    rw [height_mirror]
    omega
  obtain ⟨inner, rest, heq, hinner⟩ := exists_closing hmirror
  refine ⟨mirror rest, mirror inner, ?_, hinner.mirror⟩
  have hback := congrArg mirror heq
  rw [mirror_mirror, mirror_append] at hback
  rw [hback]
  simp [mirror, swap]

/-- Line `i` is the last opening line before line `j` that is not closed before it: the lines
between them close what they open. -/
structure Encloses (ks : List LineKind) (i j : Nat) : Prop where
  isOpening : ks[i]? = some opening
  lt : i < j
  between : Balanced ((ks.drop (i + 1)).take (j - (i + 1)))

/-- Line `j` closes line `i`. -/
structure Matches (ks : List LineKind) (i j : Nat) : Prop extends Encloses ks i j where
  isClosing : ks[j]? = some closing

variable {ks : List LineKind} {i j n : Nat}

theorem height_take_add (ks : List LineKind) (m n : Nat) :
    height (ks.take (m + n)) = height (ks.take m) + height ((ks.drop m).take n) := by
  rw [List.take_add, height_append]

theorem height_take_succ {k : LineKind} (h : ks[n]? = some k) :
    height (ks.take (n + 1)) = height (ks.take n) + height [k] := by
  rw [List.take_add_one, h, height_append]
  rfl

theorem Encloses.height_succ (h : Encloses ks i j) :
    height (ks.take (i + 1)) = height (ks.take i) + 1 := by
  rw [height_take_succ h.isOpening]
  simp

/-- What an opening line encloses is deeper than it, up to the line that closes it. -/
theorem Encloses.height_lt (h : Encloses ks i j) (hlt : i < n) (hle : n ≤ j) :
    height (ks.take i) < height (ks.take n) := by
  have hinner := h.between.height_take (n - (i + 1))
  have hsplit := height_take_add ks (i + 1) (n - (i + 1))
  have hopen := h.height_succ
  rw [List.take_take, Nat.min_eq_left (by omega)] at hinner
  rw [show i + 1 + (n - (i + 1)) = n by omega] at hsplit
  omega

theorem Encloses.height_eq (h : Encloses ks i j) :
    height (ks.take j) = height (ks.take i) + 1 := by
  have hinner := h.between.height_eq
  have hsplit := height_take_add ks (i + 1) (j - (i + 1))
  have hopen := h.height_succ
  have hlt := h.lt
  rw [show i + 1 + (j - (i + 1)) = j by omega] at hsplit
  omega

theorem Encloses.opening_le {i' : Nat} (h : Encloses ks i j) (h' : Encloses ks i' j) :
    i' ≤ i := by
  by_contra hlt
  have hdeep := h.height_lt (Nat.lt_of_not_le hlt) (Nat.le_of_lt h'.lt)
  have heq := h.height_eq
  have heq' := h'.height_eq
  omega

theorem Encloses.unique {i' : Nat} (h : Encloses ks i j) (h' : Encloses ks i' j) : i = i' :=
  Nat.le_antisymm (h'.opening_le h) (h.opening_le h')

theorem Matches.height_succ (h : Matches ks i j) :
    height (ks.take (j + 1)) = height (ks.take i) := by
  have hlast := h.height_eq
  rw [height_take_succ h.isClosing, height_closing, height_nil]
  omega

theorem Matches.closing_le {j' : Nat} (h : Matches ks i j) (h' : Matches ks i j') : j' ≤ j := by
  by_contra hlt
  have hopen := h.lt
  have hdeep := h'.height_lt (n := j + 1) (by omega) (by omega)
  have hafter := h.height_succ
  omega

theorem Matches.unique {j' : Nat} (h : Matches ks i j) (h' : Matches ks i j') : j = j' :=
  Nat.le_antisymm (h'.closing_le h) (h.closing_le h')

theorem encloses_succ (h : ks[i]? = some opening) : Encloses ks i (i + 1) := by
  refine ⟨h, by omega, ?_⟩
  rw [Nat.sub_self, List.take_zero]
  exact .nil

/-- A line that is not at the outer level is enclosed. -/
theorem exists_encloses (hj : j ≤ ks.length) (h : 0 < height (ks.take j)) :
    ∃ i, Encloses ks i j := by
  obtain ⟨before, inner, heq, hinner⟩ := exists_opening h
  have hlength : before.length + (inner.length + 1) = j := by
    have hlen := congrArg List.length heq
    rw [List.length_take, List.length_append, List.length_cons] at hlen
    omega
  have hks : ks = before ++ opening :: (inner ++ ks.drop j) := by
    have hsplit := ks.take_append_drop j
    rw [heq, List.append_assoc] at hsplit
    exact hsplit.symm
  have hdrop : ks.drop (before.length + 1) = inner ++ ks.drop j := by
    conv_lhs => rw [hks]
    simp
  refine ⟨before.length, ?_, by omega, ?_⟩
  · rw [hks]
    simp
  · rw [hdrop, show j - (before.length + 1) = inner.length by omega, List.take_left']
    · exact hinner
    · rfl

/-- What is enclosed by a line is closed, if not more is opened than closed on the whole. -/
theorem Encloses.exists_matches (h : Encloses ks i n) (hn : height ks < height (ks.take n)) :
    ∃ j, n ≤ j ∧ Matches ks i j := by
  have hrest : height (ks.drop n) < 0 := by
    have hsplit := congrArg height (ks.take_append_drop n)
    rw [height_append] at hsplit
    omega
  obtain ⟨inner, rest, heq, hinner⟩ := exists_closing hrest
  have hlt := h.lt
  refine ⟨n + inner.length, by omega, ⟨h.isOpening, by omega, ?_⟩, ?_⟩
  · have hdrop : (ks.drop (i + 1)).drop (n - (i + 1)) = inner ++ closing :: rest := by
      rw [List.drop_drop, show i + 1 + (n - (i + 1)) = n by omega, heq]
    rw [show n + inner.length - (i + 1) = n - (i + 1) + inner.length by omega, List.take_add, hdrop,
      List.take_left' rfl]
    exact h.between.append hinner
  · have hget := congrArg (fun l => l[inner.length]?) heq
    simpa using hget

end LineKind

end ClientGen.Layout
