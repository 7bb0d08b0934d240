import ClientGen.Proofs.Document.Segments
import ClientGen.Proofs.Naming.Comments

/-! Descriptions in block comments: every comment end is broken once and for all, the white space
around goes, and the description can be read back. -/

namespace ClientGen

namespace Text

/-- A text without white space at its ends. -/
structure Stripped (s : List Char) : Prop where
  first : ∀ c ∈ s.head?, isSpace c = false
  last : ∀ c ∈ s.getLast?, isSpace c = false

/-- What is left of a text without the white space around it. -/
structure IsCore (s core : List Char) : Prop where
  stripped : Stripped core
  around : ∃ before after, s = before ++ core ++ after ∧ ∀ c ∈ before ++ after, isSpace c

theorem stripped_nil : Stripped [] := ⟨nofun, nofun⟩

theorem Stripped.isCore {s : List Char} (h : Stripped s) : IsCore s s :=
  ⟨h, [], [], by simp, by simp⟩

theorem trim_eq_iff {s core : List Char} : trim s = core ↔ IsCore s core := by
  by_cases hnil : core = []
  · subst hnil
    rw [trim_eq_nil_iff, isBlank, List.all_eq_true]
    constructor
    · intro hblank
      exact ⟨stripped_nil, s, [], by simp, by simpa using hblank⟩
    · rintro ⟨-, before, after, rfl, hends⟩
      simpa using hends
  · rw [trim, trimWhile_eq_iff hnil]
    constructor
    · rintro ⟨hfirst, hlast, haround⟩
      exact ⟨⟨hfirst, hlast⟩, haround⟩
    · rintro ⟨⟨hfirst, hlast⟩, haround⟩
      exact ⟨hfirst, hlast, haround⟩

end Text

namespace Naming

open Text

theorem not_prefix_of_ne {c : Char} {rest : List Char}
    (h : ∀ others, c = '*' → rest = '/' :: others → False) : ¬ ['*', '/'] <+: c :: rest := by
  rintro ⟨others, hothers⟩
  obtain ⟨rfl, rfl⟩ := List.cons.inj hothers
  exact h others rfl rfl

theorem breakCommentEnds_cons {c : Char} {rest : List Char} (h : ¬ ['*', '/'] <+: c :: rest) :
    breakCommentEnds (c :: rest) = c :: breakCommentEnds rest := by
  rw [breakCommentEnds]
  rintro others rfl rfl
  exact h (List.prefix_append ['*', '/'] others)

/-- Comment ends are broken by one replacement. -/
theorem breakCommentEnds_eq_replaceAll (s : List Char) :
    breakCommentEnds s = replaceAll ['*', '/'] ['*', '\\', '/'] s := by
  induction s using breakCommentEnds.induct with
  | case1 => rw [breakCommentEnds, replaceAll_nil]
  | case2 rest ih =>
    have hreplaced := replaceAll_append ['*', '/'] ['*', '\\', '/'] rest (by simp)
    rw [List.cons_append, List.singleton_append] at hreplaced
    rw [breakCommentEnds, hreplaced, ih]
    rfl
  | case3 c rest hne ih =>
    have hplain := not_prefix_of_ne hne
    rw [breakCommentEnds_cons hplain, replaceAll_cons_of_ne hplain, ih]

theorem breakCommentEnds_eq_self {s : List Char} (h : ¬ ['*', '/'] <:+: s) :
    breakCommentEnds s = s := by
  induction s with
  | nil => rfl
  | cons c rest ih =>
    rw [List.infix_cons_iff, not_or] at h
    rw [breakCommentEnds_cons h.1, ih h.2]

/-- A comment end lies in one of two parts unless it lies across their seam. -/
theorem breakCommentEnds_append {a b : List Char}
    (h : a.getLast? = some '*' → b.head? ≠ some '/') :
    breakCommentEnds (a ++ b) = breakCommentEnds a ++ breakCommentEnds b := by
  induction a using breakCommentEnds.induct with
  | case1 => rfl
  | case2 rest ih =>
    have hrest : rest.getLast? = some '*' → b.head? ≠ some '/' := by
      intro hlast
      apply h
      rw [List.getLast?_cons, List.getLast?_cons, hlast]
      rfl
    rw [List.cons_append, List.cons_append, breakCommentEnds, ih hrest, breakCommentEnds]
    rfl
  | case3 c rest hne ih =>
    have hplain := not_prefix_of_ne hne
    have hrest : rest.getLast? = some '*' → b.head? ≠ some '/' := by
      intro hlast
      apply h
      rw [List.getLast?_cons, hlast]
      rfl
    have hseam : ¬ ['*', '/'] <+: c :: (rest ++ b) := by
      intro hprefix
      obtain ⟨rfl, hslash⟩ := List.cons_prefix_cons.mp hprefix
      obtain ⟨tail, htail⟩ := hslash
      cases rest with
      | nil =>
        refine h rfl ?_
        rw [← List.nil_append b, ← htail]
        rfl
      | cons d others =>
        obtain ⟨rfl, -⟩ := List.cons.inj htail
        exact hne others rfl rfl
    rw [List.cons_append, breakCommentEnds_cons hseam, breakCommentEnds_cons hplain, ih hrest]
    rfl

/-- White space takes no part in comment ends. -/
theorem breakCommentEnds_spaces {s : List Char} (h : ∀ c ∈ s, isSpace c) :
    breakCommentEnds s = s := by
  apply breakCommentEnds_eq_self
  intro hends
  have hstar := h '*' (hends.subset List.mem_cons_self)
  exact absurd hstar (by decide)

theorem breakCommentEnds_eq_nil_iff {s : List Char} : breakCommentEnds s = [] ↔ s = [] := by
  rw [← List.head?_eq_none_iff, head?_breakCommentEnds, List.head?_eq_none_iff]

theorem getLast?_breakCommentEnds (s : List Char) :
    (breakCommentEnds s).getLast? = s.getLast? := by
  induction s using breakCommentEnds.induct with
  | case1 => rfl
  | case2 rest ih =>
    rw [breakCommentEnds]
    simp only [List.getLast?_cons, ih, Option.getD_some]
  | case3 c rest hne ih =>
    rw [breakCommentEnds, List.getLast?_cons, List.getLast?_cons, ih]
    exact hne

theorem breakCommentEnds_stripped {s : List Char} (h : Stripped s) :
    Stripped (breakCommentEnds s) := by
  constructor
  · rw [head?_breakCommentEnds]
    exact h.first
  · rw [getLast?_breakCommentEnds]
    exact h.last

/-- White space may go before comment ends are broken or after that. -/
theorem breakCommentEnds_isCore {s core : List Char} (h : IsCore s core) :
    IsCore (breakCommentEnds s) (breakCommentEnds core) := by
  obtain ⟨hstripped, before, after, rfl, hends⟩ := h
  obtain ⟨hbefore, hafter⟩ := List.forall_mem_append.mp hends
  refine ⟨breakCommentEnds_stripped hstripped, before, after, ?_, hends⟩
  have hstart : before.getLast? ≠ some '*' := by
    intro hlast
    exact absurd (hbefore '*' (List.mem_of_getLast? hlast)) (by decide)
  have hend : after.head? ≠ some '/' := by
    intro hfirst
    exact absurd (hafter '/' (List.mem_of_head? hfirst)) (by decide)
  rw [List.append_assoc, breakCommentEnds_append fun hlast => absurd hlast hstart,
    breakCommentEnds_append fun _ => hend, breakCommentEnds_spaces hbefore,
    breakCommentEnds_spaces hafter, List.append_assoc]

/-- Broken comment ends are mended by the replacement the other way round, if no end was broken from
the start. -/
theorem replaceAll_breakCommentEnds {s : List Char} (h : ¬ ['*', '\\', '/'] <:+: s) :
    replaceAll ['*', '\\', '/'] ['*', '/'] (breakCommentEnds s) = s := by
  induction s using breakCommentEnds.induct with
  | case1 => rw [breakCommentEnds, replaceAll_nil]
  | case2 rest ih =>
    have hrest : ¬ ['*', '\\', '/'] <:+: rest := by
      intro hoccurs
      exact h (hoccurs.trans (List.suffix_append ['*', '/'] rest).isInfix)
    have hmended := replaceAll_append ['*', '\\', '/'] ['*', '/'] (breakCommentEnds rest) (by simp)
    rw [ih hrest] at hmended
    rw [breakCommentEnds]
    exact hmended
  | case3 c rest hne ih =>
    rw [List.infix_cons_iff, not_or] at h
    have hplain : ¬ ['*', '\\', '/'] <+: c :: breakCommentEnds rest := by
      intro hprefix
      obtain ⟨rfl, tail, htail⟩ := List.cons_prefix_cons.mp hprefix
      -- Neither the backslash nor the slash after it was put there.
      have hbackslash : rest.head? = some '\\' := by
        rw [← head?_breakCommentEnds, ← htail]
        rfl
      obtain ⟨others, rfl⟩ := List.head?_eq_some_iff.mp hbackslash
      have hothers : breakCommentEnds others = '/' :: tail := by
        rw [breakCommentEnds_cons (by simp [List.cons_prefix_cons])] at htail
        exact (List.cons.inj htail).2.symm
      have hslash : others.head? = some '/' := by
        rw [← head?_breakCommentEnds, hothers]
        rfl
      obtain ⟨after, rfl⟩ := List.head?_eq_some_iff.mp hslash
      exact h.1 (List.prefix_append ['*', '\\', '/'] after)
    rw [breakCommentEnds, replaceAll_cons_of_ne hplain, ih h.2]
    exact hne

theorem comment_eq {s : String} {core : List Char} (h : IsCore s.toList core) :
    comment s = if core = [] then none else some (String.ofList (breakCommentEnds core)) := by
  have htrim : trim (breakCommentEnds s.toList) = breakCommentEnds core :=
    trim_eq_iff.mpr (breakCommentEnds_isCore h)
  unfold comment
  rw [htrim]
  split_ifs with hnil
  · rw [hnil]
    rfl
  · split
    · next hbroken => exact absurd (breakCommentEnds_eq_nil_iff.mp hbroken) hnil
    · rfl

/-- A blank description leaves no comment. Any other leaves one that is not empty, has no white
space around it and no comment end in it, and is its own comment. It is the description without the
white space around, where each comment end is broken; and mending the ends gives this back, if the
description had no broken end. -/
theorem comment_neutral (s : String) :
    (comment s = none ∧ ∀ c ∈ s.toList, isSpace c) ∨
    ∃ text core, comment s = some text ∧ (¬ ∀ c ∈ s.toList, isSpace c) ∧
      text ≠ "" ∧ Stripped text.toList ∧ StaysInComment text ∧ comment text = some text ∧
      IsCore s.toList core ∧ text.toList = replaceAll ['*', '/'] ['*', '\\', '/'] core ∧
      (¬ ['*', '\\', '/'] <:+: s.toList →
        replaceAll ['*', '\\', '/'] ['*', '/'] text.toList = core) := by
  obtain ⟨core, hcore⟩ : ∃ core, IsCore s.toList core := ⟨_, trim_eq_iff.mp rfl⟩
  have hblank : core = [] ↔ ∀ c ∈ s.toList, isSpace c := by
    rw [← List.all_eq_true, ← isBlank, ← trim_eq_nil_iff, trim_eq_iff.mpr hcore]
  have hcomment := comment_eq hcore
  by_cases hnil : core = []
  · rw [if_pos hnil] at hcomment
    exact .inl ⟨hcomment, hblank.mp hnil⟩
  · rw [if_neg hnil] at hcomment
    have hstripped := breakCommentEnds_stripped hcore.stripped
    have hends := not_infix_breakCommentEnds core
    have hnonempty : breakCommentEnds core ≠ [] := mt breakCommentEnds_eq_nil_iff.mp hnil
    have hagain : comment (String.ofList (breakCommentEnds core)) =
        some (String.ofList (breakCommentEnds core)) := by
      have hself : IsCore (String.ofList (breakCommentEnds core)).toList
          (breakCommentEnds core) := by
        rw [String.toList_ofList]
        exact hstripped.isCore
      rw [comment_eq hself, if_neg hnonempty, breakCommentEnds_eq_self hends]
    refine .inr ⟨_, core, hcomment, mt hblank.mpr hnil, ?_, ?_, ?_, hagain, hcore, ?_, ?_⟩
    · exact fun hempty => hnonempty (String.ofList_eq_empty_iff.mp hempty)
    · rwa [String.toList_ofList]
    · rwa [StaysInComment, String.toList_ofList]
    · rw [String.toList_ofList, breakCommentEnds_eq_replaceAll]
    · intro hunbroken
      rw [String.toList_ofList]
      apply replaceAll_breakCommentEnds
      intro hoccurs
      obtain ⟨-, before, after, heq, -⟩ := hcore
      exact hunbroken (hoccurs.trans ⟨before, after, heq.symm⟩)

/-- Overlapping stars and slashes make no new comment end. -/
example : comment " **/ */*/\n" = some "**\\/ *\\/*\\/" := by decide

end Naming

end ClientGen
