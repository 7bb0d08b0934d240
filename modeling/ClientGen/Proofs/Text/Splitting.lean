import ClientGen.Text.Replace
import ClientGen.Text.Space
import Mathlib.Data.List.DropRight
import Mathlib.Data.List.TakeWhile
import Mathlib.Tactic.SplitIfs

/-! Texts in pieces: what stands between separators, and what is left without the ends. -/

namespace ClientGen.Text

theorem splitOn_eq (sep : Char) (s : List Char) : splitOn sep s = s.splitOn sep := by
  induction s with
  | nil => rfl
  | cons c rest ih =>
    rw [List.splitOn_cons_eq_if_modifyHead, ← ih, splitOn]
    by_cases hc : c = sep
    · rw [if_pos hc, if_pos (beq_iff_eq.mpr hc)]
    · rw [if_neg hc, if_neg (mt beq_iff_eq.mp hc)]
      cases hpieces : splitOn sep rest with
      | nil => exact absurd (ih.symm.trans hpieces) (List.splitOn_ne_nil sep rest)
      | cons first others => rfl

theorem splitOn_ne_nil (sep : Char) (s : List Char) : splitOn sep s ≠ [] := by
  rw [splitOn_eq]
  exact List.splitOn_ne_nil sep s

theorem splitOn_of_not_mem {sep : Char} {s : List Char} (h : sep ∉ s) : splitOn sep s = [s] := by
  rw [splitOn_eq]
  exact List.splitOn_eq_singleton h

theorem splitOn_append {sep : Char} {a : List Char} (h : sep ∉ a) (b : List Char) :
    splitOn sep (a ++ sep :: b) = a :: splitOn sep b := by
  rw [splitOn_eq, splitOn_eq]
  exact List.splitOn_append_cons_self_of_not_mem h b

theorem not_mem_of_mem_splitOn {sep : Char} {s piece : List Char} (h : piece ∈ splitOn sep s) :
    sep ∉ piece := by
  induction s generalizing piece with
  | nil =>
    obtain rfl := List.mem_singleton.mp h
    exact List.not_mem_nil
  | cons c rest ih =>
    rw [splitOn] at h
    split_ifs at h with hc
    · rcases List.mem_cons.mp h with rfl | h
      · exact List.not_mem_nil
      · exact ih h
    · cases hpieces : splitOn sep rest with
      | nil => exact absurd hpieces (splitOn_ne_nil sep rest)
      | cons first others =>
        rw [hpieces] at h ih
        rcases List.mem_cons.mp h with rfl | h
        · exact List.not_mem_cons_of_ne_of_not_mem (Ne.symm hc) (ih List.mem_cons_self)
        · exact ih (List.mem_cons_of_mem _ h)

/-- There is one way to cut a text into pieces without separators. -/
theorem splitOn_eq_iff {sep : Char} {s : List Char} {pieces : List (List Char)} :
    splitOn sep s = pieces ↔
      pieces ≠ [] ∧ (∀ piece ∈ pieces, sep ∉ piece) ∧ s = [sep].intercalate pieces := by
  constructor
  · rintro rfl
    refine ⟨splitOn_ne_nil sep s, fun _ => not_mem_of_mem_splitOn, ?_⟩
    rw [splitOn_eq]
    exact (List.intercalate_splitOn sep).symm
  · rintro ⟨hne, hpieces, rfl⟩
    rw [splitOn_eq]
    exact List.splitOn_intercalate sep hpieces hne

theorem dropRightWhile_append {p : Char → Bool} {a b : List Char}
    (h : ∀ c ∈ a.getLast?, p c = false) : dropRightWhile p (a ++ b) = a ++ dropRightWhile p b := by
  have hkeep : a.reverse.dropWhile p = a.reverse := by
    cases hr : a.reverse with
    | nil => rfl
    | cons c rest =>
      have hlast : a.getLast? = some c := by
        rw [List.getLast?_eq_head?_reverse, hr, List.head?_cons]
      rw [List.dropWhile_cons_of_neg (by simp [h c hlast])]
  unfold dropRightWhile
  rw [List.reverse_append, List.dropWhile_append, hkeep]
  split_ifs with hb
  · rw [List.isEmpty_iff.mp hb, List.reverse_reverse, List.reverse_nil, List.append_nil]
  · rw [List.reverse_append, List.reverse_reverse]

theorem dropRightWhile_eq_self {p : Char → Bool} {s : List Char} (h : ∀ c ∈ s, p c = false) :
    dropRightWhile p s = s := by
  have hlast : ∀ c ∈ s.getLast?, p c = false := fun c hc => h c (List.mem_of_getLast? hc)
  simpa [dropRightWhile] using dropRightWhile_append (b := []) hlast

theorem dropRightWhile_subset (p : Char → Bool) (s : List Char) : dropRightWhile p s ⊆ s :=
  fun _ hc => List.mem_reverse.mp (List.dropWhile_subset _ (List.mem_reverse.mp hc))

theorem dropRightWhile_idem (p : Char → Bool) (s : List Char) :
    dropRightWhile p (dropRightWhile p s) = dropRightWhile p s := List.rdropWhile_idempotent p s

theorem trim_eq_self {s : List Char} (h : ∀ c ∈ s, isSpace c = false) : trim s = s := by
  have hstart : s.dropWhile isSpace = s := by
    cases s with
    | nil => rfl
    | cons c rest => rw [List.dropWhile_cons_of_neg (by simp [h c])]
  rw [trim, trimWhile, hstart, dropRightWhile_eq_self h]

theorem trim_subset (s : List Char) : trim s ⊆ s := by
  intro c hc
  unfold trim trimWhile dropRightWhile at hc
  have hc := List.dropWhile_subset _ (List.mem_reverse.mp hc)
  exact List.dropWhile_subset _ (List.mem_reverse.mp hc)

/-- A text without its ends: the ends that are dropped are made of `p`, and what is left does not
start or end with it. -/
theorem trimWhile_eq_iff {p : Char → Bool} {s body : List Char} (hbody : body ≠ []) :
    trimWhile p s = body ↔
      (∀ c ∈ body.head?, p c = false) ∧ (∀ c ∈ body.getLast?, p c = false) ∧
        ∃ before after, s = before ++ body ++ after ∧ ∀ c ∈ before ++ after, p c := by
  have hhead (t : List Char) : ∀ c ∈ (t.dropWhile p).head?, p c = false := by
    intro c hc
    have hnot := List.head?_dropWhile_not p t
    rw [Option.mem_def.mp hc] at hnot
    simpa using hnot
  constructor
  · rintro rfl
    let kept := s.dropWhile p
    have hkept : kept = trimWhile p s ++ (kept.reverse.takeWhile p).reverse := by
      have hsplit := congrArg List.reverse (kept.reverse.takeWhile_append_dropWhile (p := p))
      rw [List.reverse_append, List.reverse_reverse] at hsplit
      exact hsplit.symm
    refine ⟨fun c hc => hhead s c ?_, fun c hc => hhead kept.reverse c ?_, s.takeWhile p,
      (kept.reverse.takeWhile p).reverse, ?_, fun c hc => ?_⟩
    · change c ∈ kept.head?
      rw [hkept, List.head?_append_of_ne_nil _ hbody]
      exact hc
    · rwa [trimWhile, dropRightWhile, List.getLast?_reverse] at hc
    · rw [List.append_assoc, ← hkept]
      exact List.takeWhile_append_dropWhile.symm
    · rcases List.mem_append.mp hc with hc | hc
      · exact List.mem_takeWhile_imp hc
      · exact List.mem_takeWhile_imp (List.mem_reverse.mp hc)
  · rintro ⟨hfirst, hlast, before, after, rfl, hends⟩
    obtain ⟨hbefore, hafter⟩ := List.forall_mem_append.mp hends
    have hstart : (before ++ body ++ after).dropWhile p = body ++ after := by
      rw [List.append_assoc, List.dropWhile_append_of_pos hbefore]
      cases body with
      | nil => exact absurd rfl hbody
      | cons c rest =>
        rw [List.cons_append, List.dropWhile_cons_of_neg]
        simpa using hfirst c rfl
    have hend : dropRightWhile p after = [] := by
      rw [dropRightWhile, List.dropWhile_eq_nil_iff.mpr, List.reverse_nil]
      exact fun c hc => hafter c (List.mem_reverse.mp hc)
    rw [trimWhile, hstart, dropRightWhile_append hlast, hend, List.append_nil]

theorem trim_eq_nil_iff {s : List Char} : trim s = [] ↔ isBlank s := by
  rw [trim, trimWhile, isBlank, List.all_eq_true]
  change List.rdropWhile isSpace (s.dropWhile isSpace) = [] ↔ _
  rw [List.rdropWhile_eq_nil_iff]
  constructor
  · intro h c hc
    rw [← s.takeWhile_append_dropWhile (p := isSpace)] at hc
    rcases List.mem_append.mp hc with hc | hc
    · exact List.mem_takeWhile_imp hc
    · exact h c hc
  · intro h c hc
    exact h c (List.dropWhile_subset _ hc)

theorem trim_append {before : List Char} (h : ∀ c ∈ before, isSpace c) (s : List Char) :
    trim (before ++ s) = trim s := by
  rw [trim, trimWhile, List.dropWhile_append_of_pos h]
  rfl

theorem trim_trim (s : List Char) : trim (trim s) = trim s := by
  by_cases hnil : trim s = []
  · rw [hnil]
    rfl
  · obtain ⟨hfirst, hlast, -⟩ := (trimWhile_eq_iff hnil).mp rfl
    apply (trimWhile_eq_iff hnil).mpr
    exact ⟨hfirst, hlast, [], [], by simp, by simp⟩

end ClientGen.Text
