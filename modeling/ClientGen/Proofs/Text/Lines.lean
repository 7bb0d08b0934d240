import ClientGen.Proofs.Text.Splitting

/-! Texts in lines: what the lines of a text hold, and lines that are written and read back. -/

namespace ClientGen.Text

theorem isSpace_of_isLineBreak {c : Char} (h : isLineBreak c) : isSpace c := by
  unfold isLineBreak at h
  unfold isSpace
  simp only [Bool.or_eq_true, Bool.and_eq_true, decide_eq_true_eq, beq_iff_eq] at h ⊢
  omega

theorem linesFrom_cons {c : Char} (hc : isLineBreak c = false) (current rest : List Char) :
    linesFrom current (c :: rest) = linesFrom (c :: current) rest := by
  have hreturn : c ≠ '\r' := by
    rintro rfl
    exact absurd hc (by decide)
  rw [linesFrom]
  · rw [if_neg (by simp [hc])]
  · exact fun _ h => absurd h hreturn

/-- A line that is begun goes on to the next line feed. -/
theorem linesFrom_append {line : List Char} (h : ∀ c ∈ line, isLineBreak c = false)
    (current rest : List Char) : linesFrom current (line ++ '\n' :: rest) =
      (current.reverse ++ line) :: linesFrom [] rest := by
  induction line generalizing current with
  | nil =>
    rw [List.nil_append, List.append_nil, linesFrom]
    · rw [if_pos (by decide)]
    · exact fun _ h => absurd h (by decide)
  | cons c line ih =>
    obtain ⟨hc, hline⟩ := List.forall_mem_cons.mp h
    rw [List.cons_append, linesFrom_cons hc, ih hline, List.reverse_cons, List.append_assoc]
    rfl

/-- Lines that are ended by line feeds are read back. -/
theorem lines_flatMap {ls : List (List Char)} (h : ∀ line ∈ ls, ∀ c ∈ line, isLineBreak c = false) :
    lines (ls.flatMap (· ++ ['\n'])) = ls := by
  induction ls with
  | nil => rfl
  | cons line ls ih =>
    obtain ⟨hline, hls⟩ := List.forall_mem_cons.mp h
    have hrest := ih hls
    unfold lines at hrest ⊢
    rw [List.flatMap_cons, List.append_assoc, List.singleton_append, linesFrom_append hline, hrest]
    rfl

/-- The lines of a text hold its characters in order, but for the line breaks. -/
theorem flatten_linesFrom (current s : List Char) :
    (linesFrom current s).flatten = current.reverse ++ s.filter fun c => !isLineBreak c := by
  have hreturn : isLineBreak '\r' := by decide
  have hfeed : isLineBreak '\n' := by decide
  induction current, s using linesFrom.induct with
  | case1 current hempty =>
    rw [linesFrom, if_pos hempty, List.isEmpty_iff.mp hempty]
    rfl
  | case2 current hempty =>
    rw [linesFrom, if_neg hempty]
    simp
  | case3 current rest ih =>
    rw [linesFrom, List.flatten_cons, ih]
    simp [hreturn, hfeed]
  | case4 current c rest hne hc ih =>
    rw [linesFrom, if_pos hc, List.flatten_cons, ih]
    · simp [hc]
    · exact hne
  | case5 current c rest hne hc ih =>
    rw [linesFrom, if_neg hc, ih]
    · simp [hc]
    · exact hne

theorem exists_mem_lines_iff {s : List Char} {c : Char} :
    (∃ line ∈ lines s, c ∈ line) ↔ c ∈ s ∧ isLineBreak c = false := by
  have hflatten := flatten_linesFrom [] s
  rw [← List.mem_flatten, lines, hflatten]
  simp

theorem isBlank_iff_lines {s : List Char} : isBlank s ↔ ∀ line ∈ lines s, isBlank line := by
  unfold isBlank
  simp only [List.all_eq_true]
  constructor
  · intro h line hline c hc
    exact h c (exists_mem_lines_iff.mp ⟨line, hline, hc⟩).1
  · intro h c hc
    cases hbreak : isLineBreak c with
    | true => exact isSpace_of_isLineBreak hbreak
    | false =>
      obtain ⟨line, hline, hmem⟩ := exists_mem_lines_iff.mpr ⟨hc, hbreak⟩
      exact h line hline c hmem

end ClientGen.Text
