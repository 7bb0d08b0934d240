import ClientGen.Proofs.Code.Formatting
import ClientGen.Proofs.Code.LineNesting

/-! Indentation follows the brackets at the ends of lines: where these match, a line that closes
stands as deep as the line that it closes, and what is between them stands deeper. -/

namespace ClientGen.Layout

open Text

/-- What a row does. A comment does nothing, whatever its brackets. -/
def rowKind (row : List Char) : LineKind :=
  if isComment row then .plain
  else if closes row then if opens row then .both else .closing
  else if opens row then .opening else .plain

/-- What the lines of a source do, without the blank ones. -/
def kinds (source : List Char) : List LineKind :=
  (contents source).map fun line => rowKind (spaceStar line)

/-- The number of tabs that a line starts with. -/
def tabCount (line : List Char) : Nat := (line.takeWhile (· == '\t')).length

/-- The tabs before the lines of a text that are not blank. -/
def tabCounts (text : List Char) : List Nat :=
  ((Text.lines text).filter fun line => !isBlank line).map tabCount

namespace LineKind

/-- The depth of a line at a depth, and the depth after it. -/
def place (depth : Nat) : LineKind → Nat × Nat
  | opening => (depth, depth + 1)
  | closing => (depth - 1, depth - 1)
  | both => if depth = 0 then (0, 1) else (depth - 1, depth)
  | plain => (depth, depth)

/-- The depths of lines. -/
def levels (depth : Nat) : List LineKind → List Nat
  | [] => []
  | k :: ks => (place depth k).1 :: levels (place depth k).2 ks

/-- The depth after lines. -/
def depthOf (ks : List LineKind) : Nat := ks.foldl (fun depth k => (place depth k).2) 0

/-- Lines whose brackets match: read from the first one on, there are never more closing lines than
opening ones, what closes and opens does so between the two, and all that is opened is closed. -/
structure WellNested (ks : List LineKind) : Prop where
  closed : ∀ n ≤ ks.length, (ks.take n).count closing ≤ (ks.take n).count opening
  inside : ∀ n < ks.length, ks[n]? = some both →
    (ks.take n).count closing < (ks.take n).count opening
  total : ks.count closing = ks.count opening

/-- The tabs of lines whose brackets match. A line that closes stands as deep as the line that it
belongs to, all else between a line and the one that closes it stands deeper, and what is in no such
pair has no tabs. -/
structure Aligned (ks : List LineKind) (tabs : List Nat) : Prop where
  length : tabs.length = ks.length
  closed : ∀ i < ks.length, ks[i]? = some opening → ∃! j, Matches ks i j
  enclosed : ∀ j < ks.length, ks[j]? = some closing ∨ ks[j]? = some both → ∃! i, Encloses ks i j
  level : ∀ i j, Encloses ks i j → ks[j]? = some closing ∨ ks[j]? = some both →
    tabs[j]? = tabs[i]?
  deeper : ∀ i j n, Matches ks i j → i < n → n < j → ¬ (ks[n]? = some both ∧ Encloses ks i n) →
    ∃ t u, tabs[i]? = some t ∧ tabs[n]? = some u ∧ t < u
  outer : ∀ n < ks.length, (∀ i j, Matches ks i j → ¬ (i ≤ n ∧ n ≤ j)) → tabs[n]? = some 0

theorem length_levels (depth : Nat) (ks : List LineKind) :
    (levels depth ks).length = ks.length := by
  induction ks generalizing depth with
  | nil => rfl
  | cons k ks ih => rw [levels, List.length_cons, List.length_cons, ih]

theorem levels_getElem? {ks : List LineKind} {n : Nat} {k : LineKind} (h : ks[n]? = some k) :
    (levels 0 ks)[n]? = some (place (depthOf (ks.take n)) k).1 := by
  have hfrom (depth : Nat) : (levels depth ks)[n]? =
      some (place ((ks.take n).foldl (fun depth k => (place depth k).2) depth) k).1 := by
    induction ks generalizing n depth with
    | nil => simp at h
    | cons k' ks ih =>
      cases n with
      | zero =>
        obtain rfl : k' = k := by simpa using h
        rfl
      | succ n =>
        have hn : ks[n]? = some k := by simpa using h
        rw [levels, List.getElem?_cons_succ, ih hn]
        rfl
  exact hfrom 0

namespace WellNested

variable {ks : List LineKind} (h : WellNested ks)
include h

theorem height_nonneg {n : Nat} (hn : n ≤ ks.length) : 0 ≤ height (ks.take n) := by
  have hclosed := h.closed n hn
  unfold height
  omega

theorem height_pos {n : Nat} (hn : n < ks.length)
    (hk : ks[n]? = some closing ∨ ks[n]? = some both) : 0 < height (ks.take n) := by
  rcases hk with hk | hk
  · have hafter := h.height_nonneg (Nat.succ_le_of_lt hn)
    rw [height_take_succ hk] at hafter
    simp at hafter
    omega
  · have hinside := h.inside n hn hk
    unfold height
    omega

/-- The depth is the number of the lines that are open. -/
theorem depthOf_eq {n : Nat} (hn : n ≤ ks.length) :
    (depthOf (ks.take n) : Int) = height (ks.take n) := by
  induction n with
  | zero => rfl
  | succ n ih =>
    obtain ⟨k, hk⟩ : ∃ k, ks[n]? = some k := ⟨_, List.getElem?_eq_getElem hn⟩
    have hdepth : depthOf (ks.take (n + 1)) = (place (depthOf (ks.take n)) k).2 := by
      rw [List.take_add_one, hk, depthOf, List.foldl_append]
      rfl
    have ih := ih (Nat.le_of_succ_le hn)
    rw [hdepth, height_take_succ hk, ← ih]
    cases k with
    | opening => simp [place]
    | closing =>
      have hpos := h.height_pos hn (.inl hk)
      simp [place]
      omega
    | both =>
      have hpos := h.height_pos hn (.inr hk)
      have hne : depthOf (ks.take n) ≠ 0 := by omega
      simp [place, hne, height_cons]
    | plain => simp [place, height_cons]

/-- A line that closes stands at the depth before it less one. -/
theorem level_of_closes {n : Nat} (hn : n < ks.length)
    (hk : ks[n]? = some closing ∨ ks[n]? = some both) :
    ∃ t : Nat, (levels 0 ks)[n]? = some t ∧ (t : Int) = height (ks.take n) - 1 := by
  have hdepth := h.depthOf_eq (Nat.le_of_lt hn)
  have hpos := h.height_pos hn hk
  rcases hk with hk | hk
  · refine ⟨_, levels_getElem? hk, ?_⟩
    simp only [place]
    omega
  · refine ⟨_, levels_getElem? hk, ?_⟩
    have hne : depthOf (ks.take n) ≠ 0 := by omega
    simp only [place, if_neg hne]
    omega

theorem level_of_not_closes {n : Nat} (hn : n < ks.length)
    (hk : ¬ (ks[n]? = some closing ∨ ks[n]? = some both)) :
    ∃ t : Nat, (levels 0 ks)[n]? = some t ∧ (t : Int) = height (ks.take n) := by
  have hdepth := h.depthOf_eq (Nat.le_of_lt hn)
  obtain ⟨k, heq⟩ : ∃ k, ks[n]? = some k := ⟨_, List.getElem?_eq_getElem hn⟩
  refine ⟨_, levels_getElem? heq, ?_⟩
  rw [← hdepth]
  cases k with
  | opening => rfl
  | closing => exact absurd (.inl heq) hk
  | both => exact absurd (.inr heq) hk
  | plain => rfl

theorem level_of_opening {i j : Nat} (hij : Encloses ks i j) :
    ∃ t : Nat, (levels 0 ks)[i]? = some t ∧ (t : Int) = height (ks.take i) := by
  apply h.level_of_not_closes (List.getElem?_eq_some_iff.mp hij.isOpening).1
  simp [hij.isOpening]

/-- A line that closes inside a pair closes a line inside the pair, unless it belongs to the pair.
-/
theorem height_lt_of_closes {i j n : Nat} (hij : Matches ks i j) (hin : i < n) (hnj : n < j)
    (hn : n < ks.length) (hk : ks[n]? = some closing ∨ ks[n]? = some both)
    (hother : ¬ (ks[n]? = some both ∧ Encloses ks i n)) :
    height (ks.take i) < height (ks.take n) - 1 := by
  rcases hk with hk | hk
  · have hafter := hij.height_lt (Nat.lt_succ_of_lt hin) hnj
    rw [height_take_succ hk, height_closing, height_nil] at hafter
    omega
  · obtain ⟨m, hmn⟩ := exists_encloses hn.le (h.height_pos hn (.inr hk))
    have hlevel := hmn.height_eq
    have hdeep := hij.height_lt hin hnj.le
    rcases Nat.lt_trichotomy m i with hlt | rfl | hlt
    · have hbefore := hmn.height_lt hlt hin.le
      omega
    · exact absurd ⟨hk, hmn⟩ hother
    · have hinner := hij.height_lt hlt (hmn.lt.trans hnj).le
      omega

theorem height_eq_zero : height ks = 0 := by
  have hcounts := h.total
  unfold height
  omega

theorem height_lt_after {i : Nat} (hi : i < ks.length) (hk : ks[i]? = some opening) :
    height ks < height (ks.take (i + 1)) := by
  have hbefore := h.height_nonneg hi.le
  have htotal := h.height_eq_zero
  rw [height_take_succ hk, height_opening, height_nil]
  omega

/-- A line that is not in any pair is at the outer level. -/
theorem height_take_eq_zero {n : Nat} (hn : n < ks.length)
    (hnone : ∀ i j, Matches ks i j → ¬ (i ≤ n ∧ n ≤ j)) : height (ks.take n) = 0 := by
  have hnonneg := h.height_nonneg hn.le
  have htotal := h.height_eq_zero
  by_contra hne
  obtain ⟨i, hi⟩ := exists_encloses hn.le (show 0 < height (ks.take n) by omega)
  obtain ⟨j, hnj, hij⟩ := hi.exists_matches (by omega)
  exact hnone i j hij ⟨hi.lt.le, hnj⟩

theorem aligned : Aligned ks (levels 0 ks) := by
  have hlength {n : Nat} {k : LineKind} (hk : ks[n]? = some k) : n < ks.length :=
    (List.getElem?_eq_some_iff.mp hk).1
  constructor
  · exact length_levels 0 ks
  · intro i hi hk
    obtain ⟨j, -, hij⟩ := (encloses_succ hk).exists_matches (h.height_lt_after hi hk)
    exact ⟨j, hij, fun j' hij' => hij'.unique hij⟩
  · intro j hj hk
    obtain ⟨i, hij⟩ := exists_encloses hj.le (h.height_pos hj hk)
    exact ⟨i, hij, fun i' hij' => hij'.unique hij⟩
  · intro i j hij hk
    have hj : j < ks.length := by rcases hk with hk | hk <;> exact hlength hk
    obtain ⟨t, ht, htop⟩ := h.level_of_opening hij
    obtain ⟨u, hu, hlevel⟩ := h.level_of_closes hj hk
    have hheight := hij.height_eq
    rw [ht, hu]
    congr 1
    omega
  · intro i j n hij hin hnj hother
    have hn : n < ks.length := hnj.trans (hlength hij.isClosing)
    obtain ⟨t, ht, htop⟩ := h.level_of_opening hij.toEncloses
    by_cases hk : ks[n]? = some closing ∨ ks[n]? = some both
    · obtain ⟨u, hu, hlevel⟩ := h.level_of_closes hn hk
      have hdeep := h.height_lt_of_closes hij hin hnj hn hk hother
      exact ⟨t, u, ht, hu, by omega⟩
    · obtain ⟨u, hu, hlevel⟩ := h.level_of_not_closes hn hk
      have hdeep := hij.height_lt hin hnj.le
      exact ⟨t, u, ht, hu, by omega⟩
  · intro n hn hnone
    have hzero := h.height_take_eq_zero hn hnone
    have hk : ¬ (ks[n]? = some closing ∨ ks[n]? = some both) := by
      intro hk
      have hpos := h.height_pos hn hk
      omega
    obtain ⟨t, ht, htop⟩ := h.level_of_not_closes hn hk
    rw [ht]
    congr 1
    omega

end WellNested

end LineKind

/-- The rule of the depths depends on what a row does. -/
theorem place_eq (depth : Nat) (row : List Char) :
    place depth row = LineKind.place depth (rowKind row) := by
  unfold place rowKind
  by_cases hcomment : isComment row
  · rw [if_pos hcomment, if_pos hcomment]
    rfl
  rw [if_neg hcomment, if_neg hcomment]
  cases depth with
  | zero => cases closes row <;> cases opens row <;> rfl
  | succ depth => cases closes row <;> cases opens row <;> rfl

theorem tabCount_indent {r : List Char} (h : IsRow r) (hne : r ≠ []) (depth : Nat) :
    tabCount (indent ['\t'] depth r) = (place depth r).1 := by
  have hstop : r.takeWhile (· == '\t') = [] := by
    cases r with
    | nil => rfl
    | cons c r =>
      have hhead := h.head?_ne_tab
      exact List.takeWhile_cons_of_neg (by simpa using hhead)
  rw [indent, if_neg hne, List.flatten_replicate_singleton, tabCount,
    List.takeWhile_append_of_pos (by simp), hstop, List.append_nil, List.length_replicate]

theorem tabCounts_indented {rs : List (List Char)} (h : ∀ r ∈ rs, IsRow r) (depth : Nat) :
    ((indented ['\t'] depth rs).filter fun line => !isBlank line).map tabCount =
      LineKind.levels depth ((rs.filter fun r => r ≠ []).map rowKind) := by
  induction rs generalizing depth with
  | nil => rfl
  | cons r rs ih =>
    obtain ⟨hr, hrs⟩ := List.forall_mem_cons.mp h
    have hblank := @isBlank_indent_iff ['\t'] r hr depth
    by_cases hnil : r = []
    · rw [indented, List.filter_cons_of_neg (by simpa using hblank.mpr hnil), ih hrs,
        List.filter_cons_of_neg (by simpa using hnil), hnil]
      rfl
    · rw [indented, List.filter_cons_of_pos (by simpa using mt hblank.mp hnil), List.map_cons,
        tabCount_indent hr hnil, ih hrs, List.filter_cons_of_pos (by simpa using hnil),
        List.map_cons, LineKind.levels, place_eq]

theorem kinds_eq (source : List Char) :
    kinds source = ((rows source).filter fun r => r ≠ []).map rowKind := by
  rw [kinds, contents_eq, List.map_map]
  apply List.map_congr_left
  intro r hr
  have hrow := (isRow_of_mem_rows (List.mem_of_mem_filter hr)).row_eq
  exact congrArg rowKind hrow

/-- The tabs of the lines that are not blank are their depths. -/
theorem tabCounts_tabbed (source : List Char) :
    tabCounts (tabbed source) = LineKind.levels 0 (kinds source) := by
  have htab : tabbed source = format .tab source := by
    rw [tabbed_eq, format_eq]
    rfl
  rw [kinds_eq, ← filter_keptRows, tabCounts, htab, lines_format]
  exact tabCounts_indented (fun _ => isRow_of_mem_keptRows) 0

/-- The rule of the depths in whole numbers, which nothing keeps from falling below zero. -/
def countedPlace (depth : Int) (row : List Char) : Int × Int :=
  if isComment row then (depth, depth)
  else
    let inner := if opens row then depth + 1 else depth
    if closes row && depth != 0 then (depth - 1, inner - 1) else (depth, inner)

/-- The depth in whole numbers after the first lines of a source. -/
def countedDepth (source : List Char) (n : Nat) : Int :=
  ((rows source).take n).foldl (fun depth row => (countedPlace depth row).2) 0

theorem countedPlace_cast (depth : Nat) (row : List Char) :
    countedPlace depth row = (((place depth row).1 : Int), ((place depth row).2 : Int)) := by
  unfold countedPlace place
  by_cases hcomment : isComment row
  · rw [if_pos hcomment, if_pos hcomment]
  rw [if_neg hcomment, if_neg hcomment]
  cases depth with
  | zero => cases closes row <;> cases opens row <;> rfl
  | succ depth => cases closes row <;> cases opens row <;> simp <;> omega

theorem countedDepth_eq (source : List Char) (n : Nat) :
    countedDepth source n = depthAfter 0 ((rows source).take n) := by
  have hfrom (rs : List (List Char)) (depth : Nat) :
      rs.foldl (fun depth row => (countedPlace depth row).2) (depth : Int) =
        depthAfter depth rs := by
    induction rs generalizing depth with
    | nil => rfl
    | cons r rs ih =>
      rw [List.foldl_cons, countedPlace_cast]
      exact ih _
  exact hfrom _ 0

/-- Where the brackets at the ends of lines match, a line that closes stands as deep as the line
that it closes, and what is between stands deeper. For any source, the depth does not fall below
zero. -/
theorem indentation_matched (source : List Char) :
    (LineKind.WellNested (kinds source) →
      LineKind.Aligned (kinds source) (tabCounts (tabbed source))) ∧
    ∀ n, 0 ≤ countedDepth source n ∧
      countedDepth source n = depthAfter 0 ((rows source).take n) := by
  constructor
  · intro h
    rw [tabCounts_tabbed]
    exact h.aligned
  · intro n
    have hdepth := countedDepth_eq source n
    exact ⟨by omega, hdepth⟩

/-- A list inside a branch, with a comment that ends in a bracket. -/
def branches : List Char :=
  "if (a) \x7b\nuse([\n// one (\na,\n]);\n\x7d else \x7b\nb;\n\x7d\nend;".toList

theorem kinds_branches : kinds branches =
    [.opening, .opening, .plain, .plain, .closing, .both, .plain, .closing, .plain] := by
  decide +kernel

theorem indentation_matched_branches :
    LineKind.WellNested (kinds branches) ∧
      LineKind.Aligned (kinds branches) (tabCounts (tabbed branches)) ∧
      tabCounts (tabbed branches) = [0, 1, 2, 2, 1, 0, 1, 0, 0] := by
  have h : LineKind.WellNested (kinds branches) := by
    rw [kinds_branches]
    exact ⟨by decide, by decide, by decide⟩
  exact ⟨h, (indentation_matched branches).1 h, by decide +kernel⟩

end ClientGen.Layout
