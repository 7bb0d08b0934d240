import ClientGen.Proofs.Document.Segments
import Mathlib.Data.List.Infix

/-! Texts in the bodies of template literals: they neither end the literal nor open a placeholder,
and they are read back. -/

namespace ClientGen.Naming

/-- A character in the body of a template literal, as it is or behind a backslash. -/
inductive TemplateChar where
  | bare (c : Char)
  | escaped (c : Char)
deriving DecidableEq, Repr

/-- The character that is meant: a backslash stands for what follows it. -/
def TemplateChar.char : TemplateChar → Char
  | bare c => c
  | escaped c => c

open TemplateChar

/-- Reads the body of a template literal. A backslash at its end escapes nothing. -/
def readTemplate? : List Char → Option (List TemplateChar)
  | [] => some []
  | ['\\'] => none
  | '\\' :: c :: rest => (readTemplate? rest).map (escaped c :: ·)
  | c :: rest => (readTemplate? rest).map (bare c :: ·)

/-- What the body of a whole literal denotes: no backtick ends the literal early, no placeholder is
opened, and the characters are those of the text. -/
structure Denotes (chars : List TemplateChar) (s : List Char) : Prop where
  noEnd : bare '\x60' ∉ chars
  noPlaceholder : ¬ [bare '$', bare '\x7b'] <:+: chars
  text : chars.map char = s

theorem readTemplate?_escaped (c : Char) (rest : List Char) :
    readTemplate? ('\\' :: c :: rest) = (readTemplate? rest).map (escaped c :: ·) := rfl

theorem readTemplate?_bare {c : Char} (hc : c ≠ '\\') (rest : List Char) :
    readTemplate? (c :: rest) = (readTemplate? rest).map (bare c :: ·) := by
  rw [readTemplate?]
  · exact fun h => absurd h hc
  · exact fun _ _ h => absurd h hc

theorem Denotes.nil : Denotes [] [] := by
  constructor
  · exact List.not_mem_nil
  · simp
  · rfl

theorem Denotes.escaped {chars : List TemplateChar} {s : List Char} (h : Denotes chars s)
    (c : Char) : Denotes (escaped c :: chars) (c :: s) := by
  constructor
  · simpa using h.noEnd
  · rw [List.infix_cons_iff, not_or]
    refine ⟨?_, h.noPlaceholder⟩
    simp [List.cons_prefix_cons]
  · rw [List.map_cons, h.text]
    rfl

/-- A dollar may stand as it is unless a brace follows it. -/
theorem Denotes.bare {chars : List TemplateChar} {c : Char} {s : List Char} (h : Denotes chars s)
    (hend : c ≠ '\x60') (hbrace : c = '$' → s.head? ≠ some '\x7b') :
    Denotes (bare c :: chars) (c :: s) := by
  constructor
  · simpa [hend.symm] using h.noEnd
  · rw [List.infix_cons_iff, not_or]
    refine ⟨?_, h.noPlaceholder⟩
    intro hprefix
    obtain ⟨hdollar, tail, rfl⟩ := List.cons_prefix_cons.mp hprefix
    have hhead : s.head? = some '\x7b' := by
      rw [← h.text]
      rfl
    injection hdollar with hdollar
    exact hbrace hdollar.symm hhead
  · rw [List.map_cons, h.text]
    rfl

theorem denotes_templateBody (s : List Char) :
    ∃ chars, readTemplate? (templateBody s) = some chars ∧ Denotes chars s := by
  induction s using templateBody.induct with
  | case1 => exact ⟨[], rfl, .nil⟩
  | case2 rest ih =>
    obtain ⟨chars, hread, hdenotes⟩ := ih
    refine ⟨.escaped '$' :: .bare '\x7b' :: chars, ?_, ?_⟩
    · rw [templateBody, readTemplate?_escaped, readTemplate?_bare (by decide), hread]
      rfl
    · exact (hdenotes.bare (by decide) fun h => absurd h (by decide)).escaped '$'
  | case3 c rest hne hc ih =>
    obtain ⟨chars, hread, hdenotes⟩ := ih
    refine ⟨.escaped c :: chars, ?_, hdenotes.escaped c⟩
    rw [templateBody, if_pos hc, readTemplate?_escaped, hread]
    · rfl
    · exact hne
  | case4 c rest hne hc ih =>
    obtain ⟨hbackslash, hend⟩ := not_or.mp hc
    obtain ⟨chars, hread, hdenotes⟩ := ih
    refine ⟨.bare c :: chars, ?_, hdenotes.bare hend ?_⟩
    · rw [templateBody, if_neg hc, readTemplate?_bare hbackslash, hread]
      · rfl
      · exact hne
    · intro hdollar hbrace
      obtain ⟨others, rfl⟩ := List.head?_eq_some_iff.mp hbrace
      exact hne others hdollar rfl

open Text

/-- Backslashes before backslashes and backticks. -/
def escapeMarks (s : List Char) : List Char :=
  replaceAll ['\x60'] ['\\', '\x60'] (replaceAll ['\\'] ['\\', '\\'] s)

theorem escapeMarks_cons (c : Char) (s : List Char) :
    escapeMarks (c :: s) =
      (if c = '\\' ∨ c = '\x60' then ['\\', c] else [c]) ++ escapeMarks s := by
  unfold escapeMarks
  simp only [replaceAll_singleton, List.flatMap_cons, List.flatMap_append]
  congr 1
  by_cases hbackslash : c = '\\'
  · subst hbackslash
    rfl
  · by_cases hend : c = '\x60'
    · subst hend
      rfl
    · simp [hbackslash, hend]

theorem head?_escapeMarks (s : List Char) (h : (escapeMarks s).head? = some '\x7b') :
    s.head? = some '\x7b' := by
  cases s with
  | nil => simp [escapeMarks, replaceAll_nil] at h
  | cons c s =>
    rw [escapeMarks_cons] at h
    split_ifs at h with hc
    · simp at h
    · exact h

/-- The body of a template literal is made by three replacements, one after the other: placeholders
come last, and no replacement before brings one in. -/
theorem templateBody_eq_replaceAll (s : List Char) :
    templateBody s = replaceAll ['$', '\x7b'] ['\\', '$', '\x7b'] (escapeMarks s) := by
  have hkeep {c : Char} (hc : c ≠ '$') (t : List Char) :
      replaceAll ['$', '\x7b'] ['\\', '$', '\x7b'] (c :: t) =
        c :: replaceAll ['$', '\x7b'] ['\\', '$', '\x7b'] t := by
    apply replaceAll_cons_of_ne
    intro hprefix
    exact hc (List.cons_prefix_cons.mp hprefix).1.symm
  induction s using templateBody.induct with
  | case1 => simp [templateBody, escapeMarks, replaceAll_nil]
  | case2 rest ih =>
    have hmarks : escapeMarks ('$' :: '\x7b' :: rest) = ['$', '\x7b'] ++ escapeMarks rest := by
      rw [escapeMarks_cons, escapeMarks_cons]
      rfl
    rw [templateBody, hmarks, replaceAll_append _ _ _ (by simp), ih]
    rfl
  | case3 c rest hne hc ih =>
    have hdollar : c ≠ '$' := by rcases hc with rfl | rfl <;> decide
    rw [templateBody, if_pos hc, escapeMarks_cons, if_pos hc, List.cons_append,
      List.singleton_append, hkeep (by decide), hkeep hdollar, ih]
    exact hne
  | case4 c rest hne hc ih =>
    have hplain : ¬ ['$', '\x7b'] <+: c :: escapeMarks rest := by
      intro hprefix
      obtain ⟨hdollar, tail, htail⟩ := List.cons_prefix_cons.mp hprefix
      have hbrace := head?_escapeMarks rest (by rw [← htail]; rfl)
      obtain ⟨others, rfl⟩ := List.head?_eq_some_iff.mp hbrace
      exact hne others hdollar.symm rfl
    rw [templateBody, if_neg hc, escapeMarks_cons, if_neg hc, List.singleton_append,
      replaceAll_cons_of_ne hplain, ih]
    exact hne

/-- The body that is written for a text is read to its end, denotes the text, and is what the three
replacements give. -/
theorem templateText_denotes (s : String) :
    (∃ chars, readTemplate? (templateText s).toList = some chars ∧ Denotes chars s.toList) ∧
    templateText s = String.ofList
      (replaceAll ['$', '\x7b'] ['\\', '$', '\x7b']
        (replaceAll ['\x60'] ['\\', '\x60'] (replaceAll ['\\'] ['\\', '\\'] s.toList))) := by
  constructor
  · rw [templateText, String.toList_ofList]
    exact denotes_templateBody s.toList
  · rw [templateText, templateBody_eq_replaceAll]
    rfl

end ClientGen.Naming
