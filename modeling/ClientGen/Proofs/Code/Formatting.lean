import ClientGen.Proofs.Code.Layout

/-! Formatting is canonical: it changes white space only, and what it gives does not depend on how
the source was indented. -/

namespace ClientGen.Layout

open Text

/-- The lines of a text that are not blank, without surrounding white space. -/
def contents (text : List Char) : List (List Char) :=
  ((Text.lines text).map trim).filter fun line => line ≠ []

theorem contents_eq (text : List Char) :
    contents text = ((rows text).filter fun r => r ≠ []).map trim := by
  have htrim : (rows text).map trim = (Text.lines text).map trim := by
    rw [rows, List.map_map]
    exact List.map_congr_left fun raw _ => trim_row raw
  rw [contents, ← htrim, List.filter_map]
  congr 1
  apply List.filter_congr
  intro r hr
  obtain ⟨raw, -, rfl⟩ := List.mem_map.mp hr
  simp [trim_row, row_eq_nil_iff]

theorem filter_collapse (afterBlank : Bool) (rs : List (List Char)) :
    (collapse afterBlank rs).filter (fun r => r ≠ []) = rs.filter fun r => r ≠ [] := by
  induction rs generalizing afterBlank with
  | nil => rfl
  | cons r rs ih =>
    rw [collapse]
    split_ifs with hblank hafter
    · simpa [hblank] using ih true
    · simpa [hblank] using ih true
    · simpa [hblank] using ih false

theorem filter_trimBlankLines (rs : List (List Char)) :
    (trimBlankLines rs).filter (fun r => r ≠ []) = rs.filter fun r => r ≠ [] := by
  have hstart (rs : List (List Char)) :
      (rs.dropWhile (· == [])).filter (fun r => r ≠ []) = rs.filter fun r => r ≠ [] := by
    induction rs with
    | nil => rfl
    | cons r rs ih =>
      rw [List.dropWhile_cons]
      split_ifs with hblank
      · simpa [beq_iff_eq.mp hblank] using ih
      · rfl
  unfold trimBlankLines
  rw [List.filter_reverse, hstart, ← List.filter_reverse, List.reverse_reverse, hstart]

theorem filter_tidy (rs : List (List Char)) :
    (tidy rs).filter (fun r => r ≠ []) = rs.filter fun r => r ≠ [] := by
  rw [tidy, filter_trimBlankLines, filter_collapse]

theorem filter_keptRows (source : List Char) :
    (keptRows source).filter (fun r => r ≠ []) = (rows source).filter fun r => r ≠ [] := by
  rw [← filter_tidy (keptRows source), tidy_keptRows, filter_tidy]

theorem contents_format (i : Indent) (source : List Char) :
    contents (format i source) = contents source := by
  rw [contents_eq, contents_eq, rows_format, filter_keptRows]

theorem tidy_eq_nil_iff {source : List Char} : tidy (rows source) = [] ↔ isBlank source := by
  have hrows : isBlank source ↔ ∀ r ∈ rows source, r = [] := by
    rw [isBlank_iff_lines, rows, List.forall_mem_map]
    simp only [row_eq_nil_iff, trim_eq_nil_iff]
  have hfilter := filter_tidy (rows source)
  rw [hrows]
  constructor
  · intro hnil
    rw [hnil, eq_comm, List.filter_nil, List.filter_eq_nil_iff] at hfilter
    simpa using hfilter
  · intro hall
    have hnone : (tidy (rows source)).filter (fun r => r ≠ []) = [] := by
      rw [hfilter, List.filter_eq_nil_iff]
      simpa using hall
    cases htidy : tidy (rows source) with
    | nil => rfl
    | cons r rs =>
      have hfirst := (isTidy_tidy (rows source)).first
      rw [htidy] at hnone hfirst
      have hr : r = [] := by simpa using List.filter_eq_nil_iff.mp hnone r List.mem_cons_self
      exact absurd (congrArg some hr) hfirst

/-- A text whose first line is not blank, without two blank lines in a row, and with one line feed
at its end. -/
structure IsNeat (text : List Char) : Prop where
  first : ∀ line ∈ (Text.lines text).head?, ¬ isBlank line
  apart : (Text.lines text).IsChain fun a b => ¬ (isBlank a ∧ isBlank b)
  ending : ∃ body c, text = body ++ [c, '\n'] ∧ c ≠ '\n'

variable {unit : List Char}

theorem isBlank_indent_iff {r : List Char} (h : IsRow r) (depth : Nat) :
    isBlank (indent unit depth r) ↔ r = [] := by
  constructor
  · intro hblank
    by_contra hne
    unfold indent isBlank at hblank
    rw [if_neg hne, List.all_append, Bool.and_eq_true_iff] at hblank
    exact hne (h.eq_nil_of_isBlank hblank.2)
  · intro hnil
    rw [indent_eq_nil_iff.mpr hnil]
    rfl

theorem isChain_indented {rs : List (List Char)} (h : ∀ r ∈ rs, IsRow r)
    (hchain : rs.IsChain fun a b => ¬ (a = [] ∧ b = [])) (depth : Nat) :
    (indented unit depth rs).IsChain fun a b => ¬ (isBlank a ∧ isBlank b) := by
  induction rs generalizing depth with
  | nil => exact .nil
  | cons r rs ih =>
    obtain ⟨hr, hrs⟩ := List.forall_mem_cons.mp h
    obtain ⟨hnext, hchain⟩ := List.isChain_cons.mp hchain
    rw [indented]
    apply List.isChain_cons.mpr
    refine ⟨fun line hline hboth => ?_, ih hrs hchain _⟩
    cases rs with
    | nil => cases hline
    | cons r' rs =>
      obtain rfl := Option.some.inj hline
      have hfirst := (isBlank_indent_iff hr depth).mp hboth.1
      have hsecond := (isBlank_indent_iff (hrs r' List.mem_cons_self) _).mp hboth.2
      exact hnext r' rfl ⟨hfirst, hsecond⟩

theorem exists_last_of_indented {rs : List (List Char)} (h : ∀ r ∈ rs, IsRow r) (hne : rs ≠ [])
    (hlast : rs.getLast? ≠ some []) (depth : Nat) :
    ∃ body c, unlines (indented unit depth rs) = body ++ [c, '\n'] ∧ c ≠ '\n' := by
  obtain ⟨before, r, rfl⟩ := (List.eq_nil_or_concat rs).resolve_left hne
  have hr : r ≠ [] := by
    rintro rfl
    exact hlast (by simp)
  obtain ⟨start, c, rfl⟩ := (List.eq_nil_or_concat r).resolve_left hr
  have hrow : IsRow (start ++ [c]) := h _ (by simp)
  have hc : c ≠ '\n' := by
    rintro rfl
    exact absurd (hrow.unbroken '\n' (by simp)) (by decide)
  refine ⟨unlines (indented unit depth before) ++ ((List.replicate
    (place (depthAfter depth before) (start ++ [c])).1 unit).flatten ++ start), c, ?_, hc⟩
  simp [indented_append, indented, indent, unlines]

theorem isNeat_format (i : Indent) {source : List Char} (h : ¬ isBlank source) :
    IsNeat (format i source) := by
  have hne : tidy (rows source) ≠ [] := mt tidy_eq_nil_iff.mp h
  have hkept : keptRows source = tidy (rows source) := if_neg hne
  have htidy := isTidy_tidy (rows source)
  have hrow : ∀ r ∈ tidy (rows source), IsRow r := by
    rw [← hkept]
    exact fun r => isRow_of_mem_keptRows
  constructor
  · intro line hline hblank
    rw [lines_format, hkept] at hline
    cases hrows : tidy (rows source) with
    | nil => exact hne hrows
    | cons r rs =>
      rw [hrows] at hline
      obtain rfl := Option.some.inj hline
      have hr := (isBlank_indent_iff (hrow r (hrows ▸ List.mem_cons_self)) 0).mp hblank
      exact htidy.first (by rw [hrows, hr]; rfl)
  · rw [lines_format, hkept]
    exact isChain_indented hrow htidy.apart 0
  · rw [format_eq, hkept]
    exact exists_last_of_indented hrow hne htidy.last 0

/-- Formatting in any style keeps the lines that are not blank but for the white space around them,
and gives a neat text, or one line feed where the source is blank. What another style gives is the
same before and after. -/
theorem format_canonical (source : List Char) (i j : Indent) :
    format j (format i source) = format j source ∧
    contents (format i source) = contents source ∧
    (isBlank source ∧ format i source = ['\n'] ∨
      ¬ isBlank source ∧ IsNeat (format i source)) := by
  refine ⟨?_, contents_format i source, ?_⟩
  · have hkept : keptRows (format i source) = keptRows source := by
      rw [keptRows, rows_format, tidy_keptRows]
      rfl
    rw [format_eq, hkept, ← format_eq]
  · by_cases hblank : isBlank source
    · have hnil := tidy_eq_nil_iff.mpr hblank
      refine .inl ⟨hblank, ?_⟩
      rw [format_eq, keptRows, hnil]
      rfl
    · exact .inr ⟨hblank, isNeat_format i hblank⟩

end ClientGen.Layout
