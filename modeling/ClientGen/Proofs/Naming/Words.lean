import ClientGen.Naming
import ClientGen.Proofs.Text.Ascii
import ClientGen.Proofs.Text.Splitting
import Mathlib.Data.List.Basic
import Mathlib.Data.List.TakeWhile
import Mathlib.Tactic.SplitIfs

/-! The words of a text, whatever stands between them, and the characters of names that are made of
them. -/

namespace ClientGen.Naming

theorem isNameChar_of_mem_wordsFrom (current s : List Char)
    (hcurrent : ∀ c ∈ current, isNameChar c) :
    ∀ word ∈ wordsFrom current s, ∀ c ∈ word, isNameChar c := by
  induction s generalizing current with
  | nil =>
    unfold wordsFrom
    split_ifs
    · simp
    · simpa using hcurrent
  | cons d s ih =>
    unfold wordsFrom
    split_ifs with hd hempty
    · exact ih (d :: current) (by simpa using ⟨hd, hcurrent⟩)
    · exact ih [] (by simp)
    · intro word hword
      rcases List.mem_cons.mp hword with rfl | hword
      · simpa using hcurrent
      · exact ih [] (by simp) word hword

theorem isNameChar_of_mem_words {s word : List Char} (h : word ∈ words s) :
    ∀ c ∈ word, isNameChar c :=
  isNameChar_of_mem_wordsFrom [] s (fun _ hc => absurd hc List.not_mem_nil) word h

/-- The words hold the ASCII letters and digits of a text in order. -/
theorem flatten_wordsFrom (current s : List Char) :
    (wordsFrom current s).flatten = current.reverse ++ s.filter isNameChar := by
  induction s generalizing current with
  | nil =>
    unfold wordsFrom
    split_ifs with h
    · simp [List.isEmpty_iff.mp h]
    · simp
  | cons c s ih =>
    unfold wordsFrom
    split_ifs with hc hempty
    · simp [ih, hc]
    · simp [ih, hc, List.isEmpty_iff.mp hempty]
    · simp [ih, hc]

theorem flatten_words (s : List Char) : (words s).flatten = s.filter isNameChar :=
  flatten_wordsFrom [] s

variable {gap : List Char}

/-- Characters outside words, before a text, are no part of a word. -/
theorem words_append_left (h : ∀ c ∈ gap, ¬ isNameChar c) (s : List Char) :
    words (gap ++ s) = words s := by
  induction gap with
  | nil => rfl
  | cons c gap ih =>
    obtain ⟨hc, hgap⟩ := List.forall_mem_cons.mp h
    rw [List.cons_append, ← ih hgap, words, wordsFrom, if_neg hc]
    rfl

/-- Characters outside words, after a text, end its last word. -/
theorem wordsFrom_append_right (h : ∀ c ∈ gap, ¬ isNameChar c) (current s : List Char) :
    wordsFrom current (s ++ gap) = wordsFrom current s := by
  induction s generalizing current with
  | nil =>
    cases gap with
    | nil => rfl
    | cons c gap =>
      obtain ⟨hc, hgap⟩ := List.forall_mem_cons.mp h
      have hrest : wordsFrom [] gap = [] := by
        have hgap := words_append_left hgap []
        rwa [List.append_nil] at hgap
      conv_lhs => rw [List.nil_append, wordsFrom, if_neg hc, hrest]
      rfl
  | cons d s ih =>
    rw [List.cons_append, wordsFrom, wordsFrom, ih, ih]

/-- The three ranges of letters and digits. -/
theorem isNameChar_iff {c : Char} : isNameChar c ↔
    ((65 ≤ c.toNat ∧ c.toNat ≤ 90) ∨ (97 ≤ c.toNat ∧ c.toNat ≤ 122)) ∨
      (48 ≤ c.toNat ∧ c.toNat ≤ 57) := by
  rw [isNameChar, Text.isAlphanum_iff, Text.isAlpha_iff, Text.isUpper_iff, Text.isLower_iff,
    Text.isDigit_iff]

theorem ascii_of_isNameChar {c : Char} (h : isNameChar c) : c.toNat < 0x80 := by
  have hrange := isNameChar_iff.mp h
  omega

theorem not_isNameChar_of_isSpace {c : Char} (h : Text.isSpace c) : ¬ isNameChar c := by
  simp only [Text.isSpace, Bool.or_eq_true, Bool.and_eq_true, decide_eq_true_eq, beq_iff_eq] at h
  rw [isNameChar_iff]
  omega

/-- White space around a text is outside its words. -/
theorem words_trim (s : List Char) : words (Text.trim s) = words s := by
  by_cases hnil : Text.trim s = []
  · have hblank : ∀ c ∈ s, Text.isSpace c := List.all_eq_true.mp (Text.trim_eq_nil_iff.mp hnil)
    have hgap := words_append_left (fun c hc => not_isNameChar_of_isSpace (hblank c hc)) []
    rw [hnil, ← hgap, List.append_nil]
  · obtain ⟨-, -, before, after, hs, hends⟩ := (Text.trimWhile_eq_iff hnil).mp rfl
    obtain ⟨hbefore, hafter⟩ := List.forall_mem_append.mp fun c hc =>
      not_isNameChar_of_isSpace (hends c hc)
    calc words (Text.trim s)
      _ = words (Text.trim s ++ after) := (wordsFrom_append_right hafter [] _).symm
      _ = words (before ++ (Text.trim s ++ after)) := (words_append_left hbefore _).symm
      _ = words s := by rw [← List.append_assoc, ← hs]

section Gaps

variable {p : Char → Bool} {mark : Char} (hkeep : ∀ c, isNameChar c → p c)
  (hmark : ¬ isNameChar mark)
include hkeep hmark

/-- A mark for each gap ends a word where the gap did. No word is begun inside a gap. -/
theorem wordsFrom_markGaps (s : List Char) : ∀ (inGap : Bool) (current : List Char),
    (inGap → current = []) → wordsFrom current (Text.markGaps p mark inGap s) =
      wordsFrom current s := by
  induction s with
  | nil => exact fun _ _ _ => rfl
  | cons c s ih =>
    intro inGap current hbegun
    have hafter : wordsFrom [] (Text.markGaps p mark false s) = wordsFrom [] s :=
      ih false [] (by simp)
    have hinside : wordsFrom [] (Text.markGaps p mark true s) = wordsFrom [] s :=
      ih true [] fun _ => rfl
    have hword : wordsFrom (c :: current) (Text.markGaps p mark false s) =
        wordsFrom (c :: current) s := ih false _ (by simp)
    rw [Text.markGaps]
    split_ifs with hc hgap
    · rw [wordsFrom, wordsFrom, hword, hafter]
    · have hname : ¬ isNameChar c := fun h => hc (hkeep c h)
      rw [hbegun hgap, hinside, wordsFrom, if_neg hname]
      rfl
    · have hname : ¬ isNameChar c := fun h => hc (hkeep c h)
      rw [wordsFrom, wordsFrom, if_neg hmark, if_neg hname, hinside]

theorem words_markGaps (s : List Char) : words (Text.markGaps p mark false s) = words s :=
  wordsFrom_markGaps hkeep hmark s false [] (by simp)

end Gaps

theorem isWordChar_of_isNameChar {c : Char} (h : isNameChar c) : Text.isWordChar c := by
  rw [Text.isWordChar, if_pos (ascii_of_isNameChar h)]
  exact Bool.or_eq_true_iff.mpr (.inl h)

/-- What stands between the words of a member's text is of no account. -/
theorem memberName_eq (s : String) :
    memberName s = String.ofList (camelChars (s.toList.dropWhile fun c => !c.isAlpha)) := by
  have hkeep (c : Char) (h : isNameChar c) : isMemberPart c :=
    Bool.or_eq_true_iff.mpr (.inl (isWordChar_of_isNameChar h))
  unfold memberName camelChars
  dsimp only
  rw [words_trim, words_markGaps hkeep (by decide)]

/-- What stands between the words of a tag is of no account. -/
theorem serviceClassName_eq (s : String) :
    serviceClassName s =
      if pascalChars s.toList ≠ [] ∧ ¬ "Service".toList.isSuffixOf (pascalChars s.toList) then
        String.ofList (pascalChars s.toList) ++ "Service"
      else String.ofList (pascalChars s.toList) := by
  have hkeep (c : Char) (h : isNameChar c) : isTagPart c :=
    Bool.or_eq_true_iff.mpr (.inl (Bool.or_eq_true_iff.mpr (.inl (isWordChar_of_isNameChar h))))
  unfold serviceClassName pascalChars
  dsimp only
  rw [words_trim, words_markGaps hkeep (by decide)]

theorem isDigit_toUpper (c : Char) : c.toUpper.isDigit = c.isDigit := by
  by_cases hlower : c.isLower
  · have hrange := Text.isLower_iff.mp hlower
    have hupper := Text.toNat_toUpper hlower
    rw [Bool.eq_iff_iff, Text.isDigit_iff, Text.isDigit_iff]
    omega
  · rw [Text.toUpper_of_not_isLower hlower]

/-- Pascal case keeps the digits of a text. -/
theorem digits_pascalChars (s : List Char) :
    (pascalChars s).countP Char.isDigit = s.countP Char.isDigit := by
  have hfirst (word : List Char) :
      (upperFirst word).countP Char.isDigit = word.countP Char.isDigit := by
    cases word with
    | nil => rfl
    | cons c rest => simp [upperFirst, List.countP_cons, isDigit_toUpper]
  have hname (c : Char) (hc : c.isDigit) : isNameChar c := by
    simp [isNameChar, Char.isAlphanum, hc]
  calc (pascalChars s).countP Char.isDigit
    _ = (words s).flatten.countP Char.isDigit := by
      rw [pascalChars, List.countP_flatMap, List.countP_flatten]
      simp only [Function.comp_def, hfirst]
    _ = (s.filter isNameChar).countP Char.isDigit := by rw [flatten_words]
    _ = s.countP Char.isDigit := by
      rw [List.countP_filter]
      refine List.countP_congr fun c _ => ?_
      simpa using hname c

theorem isAlphanum_toUpper {c : Char} (h : c.isAlphanum) : c.toUpper.isAlphanum := by
  by_cases hlower : c.isLower
  · have hrange := Text.isLower_iff.mp hlower
    have hupper := Text.toNat_toUpper hlower
    refine isNameChar_iff.mpr (.inl (.inl ?_))
    omega
  · rwa [Text.toUpper_of_not_isLower hlower]

theorem isLower_toLower {c : Char} (h : c.isAlpha) : c.toLower.isLower := by
  by_cases hupper : c.isUpper
  · have hrange := Text.isUpper_iff.mp hupper
    have hlower := Text.toNat_toLower hupper
    refine Text.isLower_iff.mpr ?_
    omega
  · rw [Text.toLower_of_not_isUpper hupper]
    exact (Text.isAlpha_iff.mp h).resolve_left hupper

theorem isNameChar_of_isAlpha {c : Char} (h : c.isAlpha) : isNameChar c :=
  Bool.or_eq_true_iff.mpr (.inl h)

theorem isNameChar_of_isLower {c : Char} (h : c.isLower) : isNameChar c :=
  isNameChar_of_isAlpha (Bool.or_eq_true_iff.mpr (.inr h))

theorem isNameChar_toLower {c : Char} (h : isNameChar c) : isNameChar c.toLower := by
  by_cases halpha : c.isAlpha
  · exact isNameChar_of_isLower (isLower_toLower halpha)
  · have hupper : ¬ c.isUpper := fun hu => halpha (Bool.or_eq_true_iff.mpr (.inl hu))
    rwa [Text.toLower_of_not_isUpper hupper]

theorem isAlpha_or_isDigit {c : Char} (h : isNameChar c) : c.isAlpha ∨ c.isDigit :=
  Bool.or_eq_true_iff.mp h

theorem not_isDigit_of_isAlpha {c : Char} (h : c.isAlpha) : ¬ c.isDigit := by
  rw [Text.isAlpha_iff, Text.isUpper_iff, Text.isLower_iff] at h
  rw [Text.isDigit_iff]
  omega

theorem isAlpha_toUpper {c : Char} (h : isNameChar c) : c.toUpper.isAlpha = c.isAlpha := by
  have hupper : isNameChar c.toUpper := isAlphanum_toUpper h
  have hdigit := isDigit_toUpper c
  by_cases halpha : c.isAlpha
  · have hnot : ¬ c.toUpper.isDigit := hdigit ▸ not_isDigit_of_isAlpha halpha
    rw [halpha]
    exact (isAlpha_or_isDigit hupper).resolve_right hnot
  · have hd : c.toUpper.isDigit := hdigit ▸ (isAlpha_or_isDigit h).resolve_left halpha
    have hnot : ¬ c.toUpper.isAlpha := fun ha => not_isDigit_of_isAlpha ha hd
    rw [Bool.eq_false_iff.mpr halpha, Bool.eq_false_iff.mpr hnot]

/-- Pascal case leaves ASCII letters and digits only. -/
theorem isNameChar_of_mem_pascalChars {s : List Char} : ∀ c ∈ pascalChars s, isNameChar c := by
  intro c hc
  obtain ⟨word, hword, hc⟩ := List.mem_flatMap.mp hc
  have hall := isNameChar_of_mem_words hword
  cases word with
  | nil => exact absurd hc List.not_mem_nil
  | cons d rest =>
    rcases List.mem_cons.mp hc with rfl | hc
    · exact isAlphanum_toUpper (hall d List.mem_cons_self)
    · exact hall c (List.mem_cons_of_mem d hc)

theorem isNameChar_of_mem_serviceClassName (s : String) :
    ∀ c ∈ (serviceClassName s).toList, isNameChar c := by
  have hpascal : ∀ c ∈ pascalChars s.toList, isNameChar c := isNameChar_of_mem_pascalChars
  have hending : ∀ c ∈ "Service".toList, isNameChar c := List.all_eq_true.mp (by decide)
  intro c hc
  rw [serviceClassName_eq] at hc
  split at hc
  · rw [String.toList_append, String.toList_ofList] at hc
    rcases List.mem_append.mp hc with hc | hc
    · exact hpascal c hc
    · exact hending c hc
  · rw [String.toList_ofList] at hc
    exact hpascal c hc

theorem ne_nil_of_mem_wordsFrom (current s : List Char) :
    ∀ word ∈ wordsFrom current s, word ≠ [] := by
  induction s generalizing current with
  | nil =>
    unfold wordsFrom
    split_ifs with hempty
    · simp
    · simpa using hempty
  | cons c s ih =>
    unfold wordsFrom
    split_ifs with hc hempty
    · exact ih (c :: current)
    · exact ih []
    · refine List.forall_mem_cons.mpr ⟨?_, ih []⟩
      simpa using hempty

/-- Pascal case starts with the first letter or digit of a text. -/
theorem head?_pascalChars (s : List Char) :
    (pascalChars s).head? = (s.find? isNameChar).map Char.toUpper := by
  have hwords : ∀ word ∈ words s, word ≠ [] := ne_nil_of_mem_wordsFrom [] s
  have hfirst : ((words s).flatMap upperFirst).head? =
      (words s).flatten.head?.map Char.toUpper := by
    cases hw : words s with
    | nil => rfl
    | cons word more =>
      cases word with
      | nil => exact absurd rfl (hwords [] (hw ▸ List.mem_cons_self))
      | cons c rest => rfl
  rw [pascalChars, hfirst, flatten_words, List.head?_filter]

theorem head?_serviceClassName (s : String) :
    (serviceClassName s).toList.head? = (s.toList.find? isNameChar).map Char.toUpper := by
  rw [← head?_pascalChars, serviceClassName_eq]
  split_ifs with h
  · rw [String.toList_append, String.toList_ofList, List.head?_append_of_ne_nil _ h.1]
  · rw [String.toList_ofList]

theorem suffix_serviceClassName {s : String} (h : serviceClassName s ≠ "") :
    "Service".toList <:+ (serviceClassName s).toList := by
  rw [serviceClassName_eq] at h ⊢
  split_ifs at h ⊢ with hends
  · rw [String.toList_append]
    exact List.suffix_append _ _
  · have hne : pascalChars s.toList ≠ [] := fun hnil => h (by rw [hnil])
    rw [← List.isSuffixOf_iff_suffix, @String.toList_ofList (pascalChars s.toList)]
    by_contra hno
    exact hends ⟨hne, hno⟩

/-- An identifier in camel case: a small ASCII letter, then ASCII letters and digits. -/
def IsCamel (name : List Char) : Prop :=
  ∃ c rest, name = c :: rest ∧ c.isLower ∧ ∀ d ∈ rest, isNameChar d

theorem isCamel_camelHead {c : Char} {rest : List Char} (hc : c.isAlpha)
    (hrest : ∀ d ∈ rest, isNameChar d) : IsCamel (camelHead (c :: rest)) := by
  unfold camelHead
  split
  · refine ⟨c.toLower, rest.map Char.toLower, rfl, isLower_toLower hc, ?_⟩
    exact List.forall_mem_map.mpr fun d hd => isNameChar_toLower (hrest d hd)
  · exact ⟨c.toLower, rest, rfl, isLower_toLower hc, hrest⟩

theorem isNameChar_of_mem_camelTail {word : List Char} (h : ∀ c ∈ word, isNameChar c) :
    ∀ c ∈ camelTail word, isNameChar c := by
  cases word with
  | nil => simp [camelTail, isShouted, upperFirst]
  | cons c rest =>
    obtain ⟨hc, hrest⟩ := List.forall_mem_cons.mp h
    unfold camelTail
    split
    · exact List.forall_mem_cons.mpr ⟨isAlphanum_toUpper hc,
        List.forall_mem_map.mpr fun d hd => isNameChar_toLower (hrest d hd)⟩
    · exact List.forall_mem_cons.mpr ⟨isAlphanum_toUpper hc, hrest⟩

/-- A word that is begun goes on as the first of the words. -/
theorem wordsFrom_eq_cons {current : List Char} (h : current ≠ []) (s : List Char) :
    ∃ rest more, wordsFrom current s = (current.reverse ++ rest) :: more := by
  induction s generalizing current with
  | nil =>
    refine ⟨[], [], ?_⟩
    rw [wordsFrom, if_neg (by simpa using h), List.append_nil]
  | cons c s ih =>
    unfold wordsFrom
    split_ifs with hc hempty
    · obtain ⟨rest, more, heq⟩ := ih (List.cons_ne_nil c current)
      refine ⟨c :: rest, more, ?_⟩
      rw [heq, List.reverse_cons, List.append_assoc, List.singleton_append]
    · exact absurd (List.isEmpty_iff.mp hempty) h
    · exact ⟨[], _, by rw [List.append_nil]⟩

theorem isCamel_camelChars {c : Char} (hc : c.isAlpha) (s : List Char) :
    IsCamel (camelChars (c :: s)) := by
  have hname := isNameChar_of_isAlpha hc
  obtain ⟨rest, more, heq⟩ : ∃ rest more, words (c :: s) = (c :: rest) :: more := by
    unfold words
    rw [wordsFrom, if_pos hname]
    exact wordsFrom_eq_cons (List.cons_ne_nil c []) s
  have hwords : ∀ word ∈ (c :: rest) :: more, ∀ d ∈ word, isNameChar d :=
    fun word hword => isNameChar_of_mem_words (heq ▸ hword)
  obtain ⟨hfirst, hmore⟩ := List.forall_mem_cons.mp hwords
  obtain ⟨d, tail, hhead, hd, htail⟩ := isCamel_camelHead hc (List.forall_mem_cons.mp hfirst).2
  refine ⟨d, tail ++ more.flatMap camelTail, ?_, hd, ?_⟩
  · rw [camelChars, heq]
    dsimp only
    rw [hhead, List.cons_append]
  · intro e he
    rcases List.mem_append.mp he with he | he
    · exact htail e he
    · obtain ⟨word, hword, he⟩ := List.mem_flatMap.mp he
      exact isNameChar_of_mem_camelTail (hmore word hword) e he

/-- The name of a member is an identifier if a letter is in what it is made of, else it is empty. -/
theorem memberName_cases (s : String) :
    (∃ c ∈ s.toList, c.isAlpha) ∧ IsCamel (memberName s).toList ∨
      (∀ c ∈ s.toList, ¬ c.isAlpha) ∧ memberName s = "" := by
  rw [memberName_eq]
  cases h : s.toList.dropWhile fun c => !c.isAlpha with
  | nil =>
    refine .inr ⟨fun c hc => ?_, rfl⟩
    simpa using List.dropWhile_eq_nil_iff.mp h c hc
  | cons c rest =>
    have hc : c.isAlpha := by
      have hhead := List.head?_dropWhile_not (fun c => !c.isAlpha) s.toList
      rw [h] at hhead
      simpa using hhead
    refine .inl ⟨⟨c, ?_, hc⟩, ?_⟩
    · exact (List.dropWhile_suffix _).subset (h ▸ List.mem_cons_self)
    · rw [String.toList_ofList]
      exact isCamel_camelChars hc rest

end ClientGen.Naming
