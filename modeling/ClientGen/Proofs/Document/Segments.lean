import ClientGen.Document.Pointer
import ClientGen.Proofs.Text.Splitting

/-! The segments of references: the escapes in them, and the keys that they are read as. -/

namespace ClientGen

namespace Text

theorem replaceAll_nil (pattern replacement : List Char) :
    replaceAll pattern replacement [] = [] := by
  rw [replaceAll]

theorem replaceAll_append (pattern replacement rest : List Char) (hne : pattern ≠ []) :
    replaceAll pattern replacement (pattern ++ rest) =
      replacement ++ replaceAll pattern replacement rest := by
  cases pattern with
  | nil => exact absurd rfl hne
  | cons a others =>
    have hprefix : (a :: others).isPrefixOf (a :: (others ++ rest)) :=
      List.isPrefixOf_iff_prefix.mpr (List.prefix_append (a :: others) rest)
    rw [List.cons_append, replaceAll, if_pos ⟨hne, hprefix⟩]
    simp

theorem replaceAll_cons_of_ne {pattern : List Char} {c : Char} {rest : List Char}
    (h : ¬ pattern <+: c :: rest) (replacement : List Char) :
    replaceAll pattern replacement (c :: rest) = c :: replaceAll pattern replacement rest := by
  rw [replaceAll, if_neg]
  rintro ⟨-, hprefix⟩
  exact h (List.isPrefixOf_iff_prefix.mp hprefix)

/-- A single character is replaced wherever it stands. -/
theorem replaceAll_singleton (a : Char) (replacement s : List Char) :
    replaceAll [a] replacement s = s.flatMap fun c => if c = a then replacement else [c] := by
  induction s with
  | nil => exact replaceAll_nil _ _
  | cons c rest ih =>
    rw [List.flatMap_cons, ← ih]
    split_ifs with hc
    · subst hc
      exact replaceAll_append [c] replacement rest (List.cons_ne_nil _ _)
    · rw [replaceAll_cons_of_ne fun h => hc (List.cons_prefix_cons.mp h).1.symm]
      rfl

end Text

namespace Pointer

open Text

theorem unescapeChars_cons {c : Char} (h : c ≠ '~') (rest : List Char) :
    unescapeChars (c :: rest) = c :: unescapeChars rest := by
  rw [unescapeChars]
  · exact fun _ heq _ => absurd heq h
  · exact fun _ heq _ => absurd heq h

theorem unescapeChars_eq_self {s : List Char} (h : '~' ∉ s) : unescapeChars s = s := by
  induction s with
  | nil => rfl
  | cons c s ih =>
    obtain ⟨hc, hrest⟩ := not_or.mp (mt List.mem_cons.mpr h)
    rw [unescapeChars_cons (Ne.symm hc), ih hrest]

/-- A segment is read as the key that it was written for. -/
theorem unescapeChars_escapeChars (s : List Char) : unescapeChars (escapeChars s) = s := by
  induction s with
  | nil => rfl
  | cons c s ih =>
    unfold escapeChars at *
    by_cases htilde : c = '~'
    · subst htilde
      simp [unescapeChars, ih]
    · by_cases hslash : c = '/'
      · subst hslash
        simp [unescapeChars, ih]
      · rw [List.flatMap_cons, if_neg htilde, if_neg hslash, List.singleton_append,
          unescapeChars_cons htilde, ih]

theorem slash_not_mem_escapeChars (s : List Char) : '/' ∉ escapeChars s := by
  intro h
  obtain ⟨c, -, hc⟩ := List.mem_flatMap.mp h
  split_ifs at hc with htilde hslash
  · simp at hc
  · simp at hc
  · exact hslash (List.mem_singleton.mp hc).symm

/-- A segment without escapes is its key. -/
theorem eq_of_unescapeChars {s k : List Char} (h : unescapeChars s = k) (htilde : '~' ∉ k)
    (hslash : '/' ∉ k) : s = k := by
  induction s using unescapeChars.induct generalizing k with
  | case1 => exact h
  | case2 rest ih =>
    rw [unescapeChars] at h
    exact absurd (h ▸ List.mem_cons_self) hslash
  | case3 rest ih =>
    rw [unescapeChars] at h
    exact absurd (h ▸ List.mem_cons_self) htilde
  | case4 c rest h1 h2 ih =>
    rw [unescapeChars] at h
    · subst h
      have htilde : '~' ∉ unescapeChars rest := fun h => htilde (List.mem_cons_of_mem _ h)
      have hslash : '/' ∉ unescapeChars rest := fun h => hslash (List.mem_cons_of_mem _ h)
      rw [← ih rfl htilde hslash]
    · exact h1
    · exact h2

/-- Keys are escaped by two replacements, tildes first. -/
theorem escapeChars_eq_replaceAll (s : List Char) :
    escapeChars s = replaceAll ['/'] ['~', '1'] (replaceAll ['~'] ['~', '0'] s) := by
  rw [replaceAll_singleton, replaceAll_singleton, List.flatMap_assoc, escapeChars]
  refine List.flatMap_congr fun c _ => ?_
  by_cases htilde : c = '~'
  · simp [htilde]
  · simp [htilde]

private theorem head?_readSlashes (s : List Char) (h : s.head? ≠ some '0') :
    (replaceAll ['~', '1'] ['/'] s).head? ≠ some '0' := by
  cases s with
  | nil => simp [replaceAll_nil]
  | cons c rest =>
    by_cases hprefix : ['~', '1'] <+: c :: rest
    · obtain ⟨tail, htail⟩ := hprefix
      rw [← htail, replaceAll_append _ _ _ (by simp)]
      simp
    · rw [replaceAll_cons_of_ne hprefix]
      exact h

/-- Segments are read by two replacements, slashes first: a tilde that an escape brings in opens no
other escape. -/
theorem unescapeChars_eq_replaceAll (s : List Char) :
    unescapeChars s = replaceAll ['~', '0'] ['~'] (replaceAll ['~', '1'] ['/'] s) := by
  induction s using unescapeChars.induct with
  | case1 => simp [unescapeChars, replaceAll_nil]
  | case2 rest ih =>
    have hslash := replaceAll_append ['~', '1'] ['/'] rest (by simp)
    have hother : ¬ ['~', '0'] <+: '/' :: replaceAll ['~', '1'] ['/'] rest := by
      simp [List.cons_prefix_cons]
    have hkept := replaceAll_cons_of_ne hother ['~']
    simp only [List.cons_append, List.nil_append] at hslash
    rw [unescapeChars, hslash, hkept, ih]
  | case3 rest ih =>
    have hkept : replaceAll ['~', '1'] ['/'] ('~' :: '0' :: rest) =
        '~' :: '0' :: replaceAll ['~', '1'] ['/'] rest := by
      rw [replaceAll_cons_of_ne (by simp [List.cons_prefix_cons]),
        replaceAll_cons_of_ne (by simp [List.cons_prefix_cons])]
    have htilde := replaceAll_append ['~', '0'] ['~'] (replaceAll ['~', '1'] ['/'] rest) (by simp)
    simp only [List.cons_append, List.nil_append] at htilde
    rw [unescapeChars, hkept, htilde, ih]
  | case4 c rest h1 h2 ih =>
    have hfirst : ¬ ['~', '1'] <+: c :: rest := by
      intro h
      obtain ⟨rfl, hrest⟩ := List.cons_prefix_cons.mp h
      obtain ⟨tail, rfl⟩ := hrest
      exact h1 tail rfl rfl
    have hsecond : ¬ ['~', '0'] <+: c :: replaceAll ['~', '1'] ['/'] rest := by
      intro h
      obtain ⟨rfl, tail, htail⟩ := List.cons_prefix_cons.mp h
      refine head?_readSlashes rest (fun hzero => ?_) (by rw [← htail]; rfl)
      obtain ⟨others, rfl⟩ := List.head?_eq_some_iff.mp hzero
      exact h2 others rfl rfl
    rw [replaceAll_cons_of_ne hfirst, replaceAll_cons_of_ne hsecond, ← ih,
      unescapeChars]
    · exact h1
    · exact h2

end Pointer

end ClientGen
