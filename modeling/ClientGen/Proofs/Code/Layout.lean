import ClientGen.Code.Layout
import ClientGen.Proofs.Text.Lines
import Mathlib.Data.List.Chain

/-! Formatted sources as rows behind their indentations: blank rows leave the depth as it is, and
the rows of a formatted source are those that were written. -/

namespace ClientGen.Layout

open Text

/-- A line as it is written behind its indentation. -/
def row (raw : List Char) : List Char := spaceStar (trim raw)

theorem trim_spaceStar (line : List Char) : trim (spaceStar line) = trim line := by
  unfold spaceStar
  split
  · exact @trim_append [' '] (List.forall_mem_singleton.mpr rfl) _
  · rfl

theorem row_row (raw : List Char) : row (row raw) = row raw := by
  unfold row
  rw [trim_spaceStar, trim_trim]

theorem trim_row (raw : List Char) : trim (row raw) = trim raw := by
  rw [row, trim_spaceStar, trim_trim]

theorem spaceStar_eq_nil_iff {line : List Char} : spaceStar line = [] ↔ line = [] := by
  unfold spaceStar
  split <;> simp

theorem row_eq_nil_iff {raw : List Char} : row raw = [] ↔ trim raw = [] := spaceStar_eq_nil_iff

/-- The rows of a source, where a blank one is empty. -/
def rows (source : List Char) : List (List Char) := (Text.lines source).map row

/-- Leaves one of several blank rows that follow each other. -/
def collapse (afterBlank : Bool) : List (List Char) → List (List Char)
  | [] => []
  | row :: rows =>
    if row = [] then if afterBlank then collapse true rows else [] :: collapse true rows
    else row :: collapse false rows

/-- The rows that are written. -/
def tidy (rows : List (List Char)) : List (List Char) := trimBlankLines (collapse false rows)

/-- A row behind its indentation at a depth. -/
def indent (unit : List Char) (depth : Nat) (row : List Char) : List Char :=
  if row = [] then [] else (List.replicate (place depth row).1 unit).flatten ++ row

/-- Rows behind their indentations. -/
def indented (unit : List Char) (depth : Nat) : List (List Char) → List (List Char)
  | [] => []
  | row :: rows => indent unit depth row :: indented unit (place depth row).2 rows

theorem indent_eq_nil_iff {unit : List Char} {depth : Nat} {row : List Char} :
    indent unit depth row = [] ↔ row = [] := by
  unfold indent
  split_ifs with h <;> simp [h]

theorem indentLines_eq (depth : Nat) (afterBlank : Bool) (raws : List (List Char)) :
    indentLines depth afterBlank raws =
      indented ['\t'] depth (collapse afterBlank (raws.map row)) := by
  induction raws generalizing depth afterBlank with
  | nil => rfl
  | cons raw raws ih =>
    rw [indentLines, List.map_cons, collapse]
    change (if row raw = [] then _ else _) = _
    by_cases hblank : row raw = []
    · rw [if_pos hblank, if_pos hblank]
      cases afterBlank with
      | true => exact ih depth true
      | false =>
        change [] :: indentLines depth true raws = [] :: indented ['\t'] depth _
        rw [ih]
    · rw [if_neg hblank, if_neg hblank, indented, indent, if_neg hblank,
        List.flatten_replicate_singleton, ← ih]
      rfl

/-- The depth after rows. -/
def depthAfter (depth : Nat) (rows : List (List Char)) : Nat :=
  rows.foldl (fun depth row => (place depth row).2) depth

theorem indented_append (unit : List Char) (depth : Nat) (a b : List (List Char)) :
    indented unit depth (a ++ b) =
      indented unit depth a ++ indented unit (depthAfter depth a) b := by
  induction a generalizing depth with
  | nil => rfl
  | cons row a ih =>
    rw [List.cons_append, indented, indented, ih, List.cons_append]
    rfl

theorem trimBlankLines_eq (ls : List (List Char)) :
    trimBlankLines ls = (ls.dropWhile (· == [])).rdropWhile (· == []) := rfl

/-- Blank lines leave the depth as it is: the same lines are written without those at the ends. -/
theorem trimBlankLines_indented (unit : List Char) (depth : Nat) (rows : List (List Char)) :
    trimBlankLines (indented unit depth rows) = indented unit depth (trimBlankLines rows) := by
  have hstart (rows : List (List Char)) : (indented unit depth rows).dropWhile (· == []) =
      indented unit depth (rows.dropWhile (· == [])) := by
    induction rows with
    | nil => rfl
    | cons row rows ih =>
      by_cases hblank : row = []
      · subst hblank
        exact ih
      · have hline : indent unit depth row ≠ [] := mt indent_eq_nil_iff.mp hblank
        rw [indented, List.dropWhile_cons_of_neg (by simpa using hline),
          List.dropWhile_cons_of_neg (by simpa using hblank), indented]
  have hend (rows : List (List Char)) : (indented unit depth rows).rdropWhile (· == []) =
      indented unit depth (rows.rdropWhile (· == [])) := by
    induction rows using List.reverseRecOn with
    | nil => rfl
    | append_singleton rows row ih =>
      rw [indented_append, indented, indented, List.rdropWhile_concat, List.rdropWhile_concat, ih]
      by_cases hblank : row = []
      · subst hblank
        rfl
      · have hline : indent unit (depthAfter depth rows) row ≠ [] :=
          mt indent_eq_nil_iff.mp hblank
        rw [if_neg (by simpa using hline), if_neg (by simpa using hblank), indented_append]
        rfl
  rw [trimBlankLines_eq, trimBlankLines_eq, hstart, hend]

theorem tabbedLines_eq (source : List Char) :
    tabbedLines source = indented ['\t'] 0 (tidy (rows source)) := by
  rw [tabbedLines, indentLines_eq, trimBlankLines_indented]
  rfl

/-- Rows without a blank one at either end or next to another. -/
structure IsTidy (rows : List (List Char)) : Prop where
  first : rows.head? ≠ some []
  last : rows.getLast? ≠ some []
  apart : rows.IsChain fun a b => ¬ (a = [] ∧ b = [])

theorem isChain_collapse (afterBlank : Bool) (rows : List (List Char)) :
    (collapse afterBlank rows).IsChain (fun a b => ¬ (a = [] ∧ b = [])) ∧
      (afterBlank = true → (collapse afterBlank rows).head? ≠ some []) := by
  induction rows generalizing afterBlank with
  | nil =>
    constructor
    · exact .nil
    · simp [collapse]
  | cons row rows ih =>
    rw [collapse]
    split_ifs with hblank hafter
    · obtain ⟨hchain, hhead⟩ := ih true
      exact ⟨hchain, fun _ => hhead rfl⟩
    · obtain ⟨hchain, hhead⟩ := ih true
      constructor
      · apply List.isChain_cons.mpr
        refine ⟨fun b hb hboth => ?_, hchain⟩
        obtain ⟨-, rfl⟩ := hboth
        exact hhead rfl hb
      · exact fun h => absurd h hafter
    · obtain ⟨hchain, -⟩ := ih false
      constructor
      · apply List.isChain_cons.mpr
        exact ⟨fun b _ hboth => hblank hboth.1, hchain⟩
      · simpa using fun _ => hblank

theorem collapse_eq_self {afterBlank : Bool} {rows : List (List Char)}
    (hchain : rows.IsChain fun a b => ¬ (a = [] ∧ b = []))
    (hhead : afterBlank = true → rows.head? ≠ some []) : collapse afterBlank rows = rows := by
  induction rows generalizing afterBlank with
  | nil => rfl
  | cons row rows ih =>
    obtain ⟨hnext, hchain⟩ := List.isChain_cons.mp hchain
    rw [collapse]
    split_ifs with hblank hafter
    · subst hblank
      exact absurd rfl (hhead hafter)
    · rw [ih hchain, hblank]
      intro _ hrows
      exact hnext [] hrows ⟨hblank, rfl⟩
    · rw [ih hchain]
      exact fun h => absurd h Bool.false_ne_true

theorem isTidy_tidy (rows : List (List Char)) : IsTidy (tidy rows) := by
  let kept := (collapse false rows).dropWhile (· == [])
  have htidy : tidy rows = kept.rdropWhile (· == []) := trimBlankLines_eq _
  have hprefix : tidy rows <+: kept := htidy ▸ List.rdropWhile_prefix _ _
  constructor
  · intro hfirst
    have hhead : kept.head? = some [] := by
      obtain ⟨rest, hrest⟩ := hprefix
      rw [← hrest, List.head?_append, hfirst]
      rfl
    have hnot := List.head?_dropWhile_not (· == []) (collapse false rows)
    rw [show (collapse false rows).dropWhile (· == []) = kept from rfl, hhead] at hnot
    simp at hnot
  · intro hlast
    rw [htidy] at hlast
    have hne : kept.rdropWhile (· == []) ≠ [] := by
      intro hnil
      rw [hnil] at hlast
      cases hlast
    have hnot := List.rdropWhile_last_not _ _ hne
    rw [List.getLast?_eq_some_getLast hne] at hlast
    exact hnot (beq_iff_eq.mpr (Option.some.inj hlast))
  · obtain ⟨before, hbefore⟩ := List.dropWhile_suffix (l := collapse false rows) (· == [])
    obtain ⟨after, hafter⟩ := hprefix
    have hchain := (isChain_collapse false rows).1
    rw [← hbefore, show (collapse false rows).dropWhile (· == []) = kept from rfl,
    ← hafter] at hchain
    exact hchain.right_of_append.left_of_append

theorem tidy_eq_self {rows : List (List Char)} (h : IsTidy rows) : tidy rows = rows := by
  have hcollapse : collapse false rows = rows :=
    collapse_eq_self h.apart fun hb => absurd hb Bool.false_ne_true
  have hstart : rows.dropWhile (· == []) = rows := by
    cases rows with
    | nil => rfl
    | cons row rows =>
      apply List.dropWhile_cons_of_neg
      simpa using h.first
  rw [tidy, hcollapse, trimBlankLines_eq, hstart]
  apply List.rdropWhile_eq_self_iff.mpr
  intro hne hblank
  have hlast : rows.getLast? = some [] := by
    rw [List.getLast?_eq_some_getLast hne, beq_iff_eq.mp hblank]
  exact h.last hlast

theorem collapse_sublist (afterBlank : Bool) (rows : List (List Char)) :
    (collapse afterBlank rows).Sublist rows := by
  induction rows generalizing afterBlank with
  | nil => exact .slnil
  | cons row rows ih =>
    rw [collapse]
    split_ifs with hblank
    · exact (ih true).cons row
    · exact hblank ▸ (ih true).cons_cons row
    · exact (ih false).cons_cons row

theorem tidy_sublist (rows : List (List Char)) : (tidy rows).Sublist rows := by
  rw [tidy, trimBlankLines_eq]
  have hprefix := List.rdropWhile_prefix (· == []) ((collapse false rows).dropWhile (· == []))
  exact hprefix.sublist.trans ((List.dropWhile_sublist _).trans (collapse_sublist false rows))

/-- A row is on one line, and is written as it is. -/
structure IsRow (r : List Char) : Prop where
  row_eq : row r = r
  unbroken : ∀ c ∈ r, isLineBreak c = false

theorem isRow_nil : IsRow [] := ⟨rfl, fun _ h => absurd h List.not_mem_nil⟩

theorem isRow_of_mem_rows {source r : List Char} (h : r ∈ rows source) : IsRow r := by
  obtain ⟨raw, hraw, rfl⟩ := List.mem_map.mp h
  have hbreak : ∀ c ∈ trim raw, isLineBreak c = false := by
    intro c hc
    exact (exists_mem_lines_iff.mp ⟨raw, hraw, trim_subset raw hc⟩).2
  constructor
  · exact row_row raw
  · unfold row spaceStar
    split
    · next rest hstar =>
      rw [hstar] at hbreak
      exact List.forall_mem_cons.mpr ⟨by decide, hbreak⟩
    · exact hbreak

theorem IsRow.head?_ne_tab {r : List Char} (h : IsRow r) : r.head? ≠ some '\t' := by
  have hrow := h.row_eq
  unfold row spaceStar at hrow
  split at hrow
  · rw [← hrow]
    simp
  · intro htab
    have hne : trim r ≠ [] := by
      rw [hrow]
      rintro rfl
      cases htab
    obtain ⟨hfirst, -⟩ := (trimWhile_eq_iff hne).mp rfl
    rw [hrow] at hfirst
    exact absurd (hfirst '\t' htab) (by decide)

theorem IsRow.eq_nil_of_isBlank {r : List Char} (h : IsRow r) (hblank : isBlank r) : r = [] := by
  rw [← h.row_eq]
  exact row_eq_nil_iff.mpr (trim_eq_nil_iff.mpr hblank)

variable {unit : List Char}

theorem forall_mem_indentation {p : Char → Prop} (hunit : ∀ c ∈ unit, p c) (n : Nat) :
    ∀ c ∈ (List.replicate n unit).flatten, p c := by
  intro c hc
  obtain ⟨u, hu, hc⟩ := List.mem_flatten.mp hc
  exact hunit c (List.eq_of_mem_replicate hu ▸ hc)

theorem row_indent (hunit : ∀ c ∈ unit, isSpace c) {r : List Char} (h : IsRow r) (depth : Nat) :
    row (indent unit depth r) = r := by
  unfold indent
  split_ifs with hblank
  · rw [hblank]
    rfl
  · rw [row, trim_append (forall_mem_indentation hunit _)]
    exact h.row_eq

theorem unbroken_indent (hunit : ∀ c ∈ unit, isLineBreak c = false) {r : List Char} (h : IsRow r)
    (depth : Nat) : ∀ c ∈ indent unit depth r, isLineBreak c = false := by
  unfold indent
  split_ifs with hblank
  · simp
  · exact List.forall_mem_append.mpr ⟨forall_mem_indentation hunit _, h.unbroken⟩

theorem map_row_indented (hunit : ∀ c ∈ unit, isSpace c) {rs : List (List Char)}
    (h : ∀ r ∈ rs, IsRow r) (depth : Nat) : (indented unit depth rs).map row = rs := by
  induction rs generalizing depth with
  | nil => rfl
  | cons r rs ih =>
    obtain ⟨hr, hrs⟩ := List.forall_mem_cons.mp h
    rw [indented, List.map_cons, row_indent hunit hr, ih hrs]

theorem unbroken_indented (hunit : ∀ c ∈ unit, isLineBreak c = false) {rs : List (List Char)}
    (h : ∀ r ∈ rs, IsRow r) (depth : Nat) :
    ∀ line ∈ indented unit depth rs, ∀ c ∈ line, isLineBreak c = false := by
  induction rs generalizing depth with
  | nil => simp [indented]
  | cons r rs ih =>
    obtain ⟨hr, hrs⟩ := List.forall_mem_cons.mp h
    rw [indented]
    exact List.forall_mem_cons.mpr ⟨unbroken_indent hunit hr depth, ih hrs _⟩

/-- Lines with their ends. -/
def unlines (ls : List (List Char)) : List Char := ls.flatMap (· ++ ['\n'])

theorem replaceTabs_replicate (unit : List Char) (n : Nat) (rest : List Char) :
    replaceTabs unit true (List.replicate n '\t' ++ rest) =
      (List.replicate n unit).flatten ++ replaceTabs unit true rest := by
  induction n with
  | zero => rfl
  | succ n ih =>
    rw [List.replicate_succ, List.cons_append, replaceTabs, if_pos ⟨rfl, rfl⟩, ih,
      List.replicate_succ, List.flatten_cons, List.append_assoc]

/-- Tabs inside a line stay. -/
theorem replaceTabs_append {line : List Char} (hfeed : '\n' ∉ line) {atStart : Bool}
    (htab : atStart = true → line.head? ≠ some '\t') (unit rest : List Char) :
    replaceTabs unit atStart (line ++ '\n' :: rest) =
      line ++ '\n' :: replaceTabs unit true rest := by
  induction line generalizing atStart with
  | nil =>
    rw [List.nil_append, replaceTabs, if_neg (by simp)]
    rfl
  | cons c line ih =>
    obtain ⟨hc, hline⟩ := not_or.mp (mt List.mem_cons.mpr hfeed)
    have hkeep : ¬ (c = '\t' ∧ atStart = true) := by
      rintro ⟨rfl, hstart⟩
      exact htab hstart rfl
    have hlater : (c == '\n') = false := by simpa using Ne.symm hc
    rw [List.cons_append, replaceTabs, if_neg hkeep, hlater, ih hline (by simp)]
    rfl

theorem replaceTabs_indented (unit : List Char) {rs : List (List Char)} (h : ∀ r ∈ rs, IsRow r)
    (depth : Nat) : replaceTabs unit true (unlines (indented ['\t'] depth rs)) =
      unlines (indented unit depth rs) := by
  induction rs generalizing depth with
  | nil => rfl
  | cons r rs ih =>
    obtain ⟨hr, hrs⟩ := List.forall_mem_cons.mp h
    have hfeed : '\n' ∉ r := fun hmem => absurd (hr.unbroken _ hmem) (by decide)
    have hline := replaceTabs_append hfeed (fun _ : true = true => hr.head?_ne_tab) unit
      (unlines (indented ['\t'] (place depth r).2 rs))
    unfold unlines at hline ih ⊢
    rw [indented, List.flatMap_cons, indented, List.flatMap_cons, List.append_assoc,
      List.append_assoc, List.singleton_append, List.singleton_append, ← ih hrs]
    unfold indent
    split_ifs with hblank
    · subst hblank
      exact hline
    · rw [List.flatten_replicate_singleton, List.append_assoc, replaceTabs_replicate, hline,
        List.append_assoc]

/-- A text without lines is written as one blank line. -/
def orBlank (ls : List (List Char)) : List (List Char) := if ls = [] then [[]] else ls

theorem join_eq_unlines (ls : List (List Char)) :
    Text.join ['\n'] ls ++ ['\n'] = unlines (orBlank ls) := by
  have hjoin (first : List Char) (others : List (List Char)) :
      Text.join ['\n'] (first :: others) ++ ['\n'] = unlines (first :: others) := by
    induction others generalizing first with
    | nil => simp [Text.join, unlines]
    | cons second others ih =>
      have hrest := ih second
      unfold Text.join unlines at hrest ⊢
      rw [List.intercalate_cons_cons, List.append_assoc, List.append_assoc, hrest]
      exact (List.append_assoc first ['\n'] _).symm
  cases ls with
  | nil => rfl
  | cons first others => exact hjoin first others

theorem indented_orBlank (unit : List Char) (rs : List (List Char)) :
    orBlank (indented unit 0 rs) = indented unit 0 (orBlank rs) := by
  cases rs with
  | nil => rfl
  | cons r rs => rfl

/-- The rows of a formatted source. -/
def keptRows (source : List Char) : List (List Char) := orBlank (tidy (rows source))

theorem isRow_of_mem_keptRows {source r : List Char} (h : r ∈ keptRows source) : IsRow r := by
  unfold keptRows orBlank at h
  split_ifs at h
  · exact List.mem_singleton.mp h ▸ isRow_nil
  · exact isRow_of_mem_rows ((tidy_sublist _).subset h)

theorem tabbed_eq (source : List Char) :
    tabbed source = unlines (indented ['\t'] 0 (keptRows source)) := by
  rw [tabbed, tabbedLines_eq, join_eq_unlines, indented_orBlank]
  rfl

theorem format_eq (i : Indent) (source : List Char) :
    format i source = unlines (indented (Layout.unit i) 0 (keptRows source)) := by
  rw [format, reindent, tabbed_eq]
  exact replaceTabs_indented _ (fun _ => isRow_of_mem_keptRows) 0

theorem lines_format (i : Indent) (source : List Char) :
    Text.lines (format i source) = indented (Layout.unit i) 0 (keptRows source) := by
  have hunit : ∀ c ∈ Layout.unit i, isLineBreak c = false := by
    have hall : (Layout.unit i).all fun c => !isLineBreak c := by cases i <;> decide
    simpa using hall
  rw [format_eq]
  apply lines_flatMap
  exact unbroken_indented hunit (fun _ => isRow_of_mem_keptRows) 0

theorem rows_format (i : Indent) (source : List Char) :
    rows (format i source) = keptRows source := by
  have hunit : ∀ c ∈ Layout.unit i, isSpace c := List.all_eq_true.mp (by cases i <;> decide)
  rw [rows, lines_format]
  exact map_row_indented hunit (fun _ => isRow_of_mem_keptRows) 0

theorem tidy_keptRows (source : List Char) : tidy (keptRows source) = tidy (rows source) := by
  unfold keptRows orBlank
  split_ifs with hnil
  · rw [hnil]
    rfl
  · exact tidy_eq_self (isTidy_tidy _)

end ClientGen.Layout
