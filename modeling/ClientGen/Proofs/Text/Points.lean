import ClientGen.Text.Point
import Mathlib.Data.List.TakeWhile
import Mathlib.Tactic.SplitIfs

/-! The spelling of points: nothing is lost by it, and exactly the halves of pairs have no bytes. -/

namespace ClientGen.Text

theorem points_cons_of_ne {c : Char} (h : c ≠ mark) (rest : List Char) :
    points (c :: rest) = .char c :: points rest := by
  cases rest with
  | nil => rfl
  | cons b rest => rw [points, if_pos h]

/-- The second character of a half is the place of the half in the private range. -/
theorem toNat_half (offset : Fin 0x800) : (Char.ofNat (0xe000 + offset)).toNat = 0xe000 + offset := by
  have hvalid : (0xe000 + offset.val).isValidChar := .inr (by omega)
  rw [Char.ofNat, dif_pos hvalid]
  rfl

theorem points_spelling_append (p : Point) (rest : List Char) :
    points (p.spelling ++ rest) = p :: points rest := by
  cases p with
  | char c =>
    rw [Point.spelling]
    split_ifs with hmark
    · rw [List.cons_append, List.singleton_append, points, if_neg (not_not.mpr rfl), if_pos rfl,
        hmark]
    · exact points_cons_of_ne hmark rest
  | half offset =>
    have hcode := toNat_half offset
    have hne : Char.ofNat (0xe000 + offset) ≠ mark := by
      intro heq
      have hmark : mark.toNat = 0x10ffff := by decide
      rw [heq, hmark] at hcode
      omega
    have hrange : 0xe000 ≤ (Char.ofNat (0xe000 + offset)).toNat ∧
        (Char.ofNat (0xe000 + offset)).toNat < 0xe800 := by omega
    rw [Point.spelling, List.cons_append, List.singleton_append, points, if_neg (not_not.mpr rfl),
      if_neg hne, dif_pos hrange]
    simp [hcode]

/-- The points that are spelled are read again. -/
theorem points_spelled (ps : List Point) : points (ps.flatMap Point.spelling) = ps := by
  induction ps with
  | nil => rfl
  | cons p rest ih => rw [List.flatMap_cons, points_spelling_append, ih]

theorem points_spell (s : List Char) : points (spell s) = s.map Point.char := by
  rw [← points_spelled (s.map Point.char), List.flatMap_map, spell]

/-- Text from outside comes out as it went in. -/
theorem characters_spell (s : List Char) : characters (spell s) = s := by
  rw [characters, points_spell, List.map_map]
  exact List.map_id s

/-- A text has bytes exactly if none of its points is half of a pair. -/
theorem unencodable?_eq_none {s : List Char} :
    unencodable? s = none ↔ ∀ p ∈ points s, p.isHalf = false := by
  unfold unencodable?
  cases hrest : (points s).dropWhile (!·.isHalf) with
  | nil => simpa using List.dropWhile_eq_nil_iff.mp hrest
  | cons p rest =>
    refine iff_of_false (by simp) fun hnone => ?_
    rw [List.dropWhile_eq_nil_iff.mpr fun q hq => by simp [hnone q hq]] at hrest
    cases hrest

/-- Text from outside has bytes. -/
theorem unencodable?_spell (s : List Char) : unencodable? (spell s) = none := by
  rw [unencodable?_eq_none, points_spell]
  exact List.forall_mem_map.mpr fun _ _ => rfl

end ClientGen.Text
