import ClientGen.Proofs.Naming.Words

/-! Names keep the ASCII letters and digits of the texts that they are made of, in order and up to
capitals. The name of a method, an argument or a class is its own name. -/

namespace ClientGen.Naming

theorem isUpper_toUpper {c : Char} (h : c.isAlpha) : c.toUpper.isUpper := by
  by_cases hlower : c.isLower
  · have hrange := Text.isLower_iff.mp hlower
    have hupper := Text.toNat_toUpper hlower
    refine Text.isUpper_iff.mpr ?_
    omega
  · rw [Text.toUpper_of_not_isLower hlower]
    exact (Text.isAlpha_iff.mp h).resolve_right hlower

/-- Letters and digits are one word. -/
theorem words_eq_singleton {s : List Char} (hne : s ≠ []) (hs : ∀ c ∈ s, isNameChar c) :
    words s = [s] := by
  have hfrom (current : List Char) : wordsFrom current s =
      if (s.reverse ++ current).isEmpty then [] else [(s.reverse ++ current).reverse] := by
    clear hne
    induction s generalizing current with
    | nil => rfl
    | cons c s ih =>
      obtain ⟨hc, hs⟩ := List.forall_mem_cons.mp hs
      rw [wordsFrom, if_pos hc, ih hs, List.reverse_cons, List.append_assoc]
      rfl
  rw [words, hfrom, List.append_nil, if_neg (by simpa using hne), List.reverse_reverse]

/-- A word that starts with a capital or a digit is in Pascal case. -/
theorem pascalChars_eq_self {c : Char} {rest : List Char} (hc : c.isUpper ∨ c.isDigit)
    (h : ∀ d ∈ c :: rest, isNameChar d) : pascalChars (c :: rest) = c :: rest := by
  rw [pascalChars, words_eq_singleton (List.cons_ne_nil c rest) h, List.flatMap_singleton,
    upperFirst, Text.toUpper_eq_self hc]

/-- Pascal case starts with a capital or a digit, if there is a letter or digit at all. -/
theorem pascalChars_cases (s : List Char) :
    (pascalChars s = [] ∧ ∀ c ∈ s, ¬ isNameChar c) ∨
      ∃ c rest, pascalChars s = c :: rest ∧ (c.isUpper ∨ c.isDigit) ∧ ∃ d ∈ s, isNameChar d := by
  have hhead := head?_pascalChars s
  cases hfound : s.find? isNameChar with
  | none =>
    rw [hfound] at hhead
    exact .inl ⟨List.head?_eq_none_iff.mp hhead, List.find?_eq_none.mp hfound⟩
  | some d =>
    have hd : isNameChar d := List.find?_some hfound
    rw [hfound] at hhead
    obtain ⟨rest, hrest⟩ := List.head?_eq_some_iff.mp hhead
    refine .inr ⟨d.toUpper, rest, hrest, ?_, d, List.mem_of_find?_eq_some hfound, hd⟩
    rcases isAlpha_or_isDigit hd with halpha | hdigit
    · exact .inl (isUpper_toUpper halpha)
    · exact .inr (by rwa [isDigit_toUpper])

@[simp] theorem toLower_toUpper (c : Char) : c.toUpper.toLower = c.toLower := by
  by_cases hlower : c.isLower
  · have hrange := Text.isLower_iff.mp hlower
    have hnat := Text.toNat_toUpper hlower
    have hupper : c.toUpper.isUpper := isUpper_toUpper (Text.isAlpha_iff.mpr (.inr hlower))
    have hback := Text.toNat_toLower hupper
    rw [Text.toLower_eq_self (.inl hlower)]
    exact Char.toNat_inj.mp (by omega)
  · rw [Text.toUpper_of_not_isLower hlower]

@[simp] theorem toLower_toLower (c : Char) : c.toLower.toLower = c.toLower := by
  by_cases hupper : c.isUpper
  · exact Text.toLower_eq_self (.inl (isLower_toLower (Text.isAlpha_iff.mpr (.inl hupper))))
  · rw [Text.toLower_of_not_isUpper hupper, Text.toLower_of_not_isUpper hupper]

theorem isDigit_toLower {c : Char} (h : isNameChar c) : c.toLower.isDigit = c.isDigit := by
  rcases isAlpha_or_isDigit h with halpha | hdigit
  · have hlower : c.toLower.isAlpha := Bool.or_eq_true_iff.mpr (.inr (isLower_toLower halpha))
    rw [Bool.eq_false_iff.mpr (not_isDigit_of_isAlpha halpha),
      Bool.eq_false_iff.mpr (not_isDigit_of_isAlpha hlower)]
  · rw [Text.toLower_eq_self (.inr hdigit)]

/-- The characters of a text without capitals. -/
def smallLetters (s : List Char) : List Char := s.map Char.toLower

@[simp] theorem smallLetters_append (a b : List Char) :
    smallLetters (a ++ b) = smallLetters a ++ smallLetters b := List.map_append

section Word

variable (word : List Char)

@[simp] theorem smallLetters_upperFirst : smallLetters (upperFirst word) = smallLetters word := by
  cases word <;> simp [upperFirst, smallLetters]

@[simp] theorem smallLetters_lowerFirst : smallLetters (lowerFirst word) = smallLetters word := by
  cases word <;> simp [lowerFirst, smallLetters]

@[simp] theorem smallLetters_capitalize : smallLetters (capitalize word) = smallLetters word := by
  cases word <;> simp [capitalize, smallLetters]

@[simp] theorem smallLetters_smallLetters :
    smallLetters (smallLetters word) = smallLetters word := by simp [smallLetters]

theorem smallLetters_camelHead : smallLetters (camelHead word) = smallLetters word := by
  unfold camelHead
  split
  · exact smallLetters_smallLetters word
  · exact smallLetters_lowerFirst word

theorem smallLetters_camelTail : smallLetters (camelTail word) = smallLetters word := by
  unfold camelTail
  split
  · exact smallLetters_capitalize word
  · exact smallLetters_upperFirst word

end Word

/-- Words that keep their letters keep them in a row. -/
theorem smallLetters_flatMap {f : List Char → List Char}
    (hf : ∀ word, smallLetters (f word) = smallLetters word) (ws : List (List Char)) :
    smallLetters (ws.flatMap f) = smallLetters ws.flatten := by
  induction ws with
  | nil => rfl
  | cons word ws ih =>
    rw [List.flatMap_cons, List.flatten_cons, smallLetters_append, smallLetters_append, hf, ih]

theorem smallLetters_pascalChars (s : List Char) :
    smallLetters (pascalChars s) = smallLetters (s.filter isNameChar) := by
  rw [pascalChars, smallLetters_flatMap smallLetters_upperFirst, flatten_words]

theorem smallLetters_camelChars (s : List Char) :
    smallLetters (camelChars s) = smallLetters (s.filter isNameChar) := by
  rw [← flatten_words, camelChars]
  cases words s with
  | nil => rfl
  | cons first rest =>
    rw [smallLetters_append, smallLetters_camelHead, smallLetters_flatMap smallLetters_camelTail,
      List.flatten_cons, smallLetters_append]

theorem isNameChar_of_mem_camelHead {word : List Char} (h : ∀ c ∈ word, isNameChar c) :
    ∀ c ∈ camelHead word, isNameChar c := by
  cases word with
  | nil => simp [camelHead, isShouted, lowerFirst]
  | cons c rest =>
    obtain ⟨hc, hrest⟩ := List.forall_mem_cons.mp h
    unfold camelHead
    split
    · exact List.forall_mem_map.mpr fun d hd => isNameChar_toLower (h d hd)
    · exact List.forall_mem_cons.mpr ⟨isNameChar_toLower hc, hrest⟩

/-- Camel case leaves ASCII letters and digits only. -/
theorem isNameChar_of_mem_camelChars {s : List Char} : ∀ c ∈ camelChars s, isNameChar c := by
  have hwords : ∀ word ∈ words s, ∀ c ∈ word, isNameChar c :=
    fun _ hword => isNameChar_of_mem_words hword
  unfold camelChars
  split
  · exact fun c hc => absurd hc List.not_mem_nil
  · next first rest heq =>
    obtain ⟨hfirst, hrest⟩ := List.forall_mem_cons.mp (heq ▸ hwords)
    intro c hc
    rcases List.mem_append.mp hc with hc | hc
    · exact isNameChar_of_mem_camelHead hfirst c hc
    · obtain ⟨word, hword, hc⟩ := List.mem_flatMap.mp hc
      exact isNameChar_of_mem_camelTail (hrest word hword) c hc

/-- Camel case starts with the first letter or digit of a text. -/
theorem head?_camelChars (s : List Char) :
    (camelChars s).head? = (s.find? isNameChar).map Char.toLower := by
  have hwords : ∀ word ∈ words s, word ≠ [] := ne_nil_of_mem_wordsFrom [] s
  rw [← List.head?_filter, ← flatten_words]
  unfold camelChars
  split
  · next heq =>
    rw [heq]
    rfl
  · next first rest heq =>
    rw [heq] at hwords ⊢
    cases first with
    | nil => exact absurd rfl (hwords [] List.mem_cons_self)
    | cons c tail =>
      unfold camelHead
      split <;> rfl

/-- A name in camel case is one word that starts with a small letter, and stays as it is. -/
theorem IsCamel.camelChars_eq_self {name : List Char} (h : IsCamel name) :
    camelChars name = name := by
  obtain ⟨c, rest, rfl, hc, hrest⟩ := h
  have hall : ∀ d ∈ c :: rest, isNameChar d :=
    List.forall_mem_cons.mpr ⟨isNameChar_of_isLower hc, hrest⟩
  have hquiet : ¬ isShouted (c :: rest) := by simp [isShouted, hc]
  rw [camelChars, words_eq_singleton (List.cons_ne_nil c rest) hall]
  dsimp only
  rw [camelHead, if_neg hquiet, lowerFirst, Text.toLower_eq_self (.inl hc)]
  exact List.append_nil _

/-- A name that starts with a digit may change: here it has become one word of capitals. -/
example : camelCase "1-A" = "1A" ∧ camelCase "1A" = "1a" := by decide +kernel

/-- The ASCII letters and digits of a text from its first letter on. -/
def lettersOf (s : List Char) : List Char :=
  (s.dropWhile fun c => !c.isAlpha).filter Char.isAlphanum

/-- Names of members lose no letters: a text without a letter has the empty name; every other one
has a name in camel case, which holds its letters and digits from the first letter on and is its own
name. -/
structure KeepsLetters (name : String → String) : Prop where
  eq_empty_iff : ∀ s, name s = "" ↔ ∀ c ∈ s.toList, ¬ c.isAlpha
  isCamel : ∀ s, name s ≠ "" → IsCamel (name s).toList
  letters : ∀ s, smallLetters (name s).toList = smallLetters (lettersOf s.toList)
  stable : ∀ s, name (name s) = name s

theorem keepsLetters_memberName : KeepsLetters memberName where
  eq_empty_iff s := by
    rcases memberName_cases s with ⟨⟨c, hc, hletter⟩, hcamel⟩ | ⟨hnone, hempty⟩
    · refine iff_of_false (fun h => ?_) fun hnone => hnone c hc hletter
      obtain ⟨d, rest, hcons, -⟩ := hcamel
      simp [h] at hcons
    · exact iff_of_true hempty hnone
  isCamel s hne := by
    rcases memberName_cases s with ⟨-, hcamel⟩ | ⟨-, hempty⟩
    · exact hcamel
    · exact absurd hempty hne
  letters s := by
    rw [memberName_eq, String.toList_ofList]
    exact smallLetters_camelChars _
  stable s := by
    rcases memberName_cases s with ⟨-, hcamel⟩ | ⟨-, hempty⟩
    · obtain ⟨c, rest, hcons, hc, -⟩ := id hcamel
      have hstart : (memberName s).toList.dropWhile (fun c => !c.isAlpha) =
          (memberName s).toList := by
        have halpha : c.isAlpha := Bool.or_eq_true_iff.mpr (.inr hc)
        rw [hcons, List.dropWhile_cons_of_neg (by simp [halpha])]
      rw [memberName_eq (memberName s), hstart, hcamel.camelChars_eq_self, String.ofList_toList]
    · rw [hempty]
      decide +kernel

/-- Methods and arguments are named by all the letters of their texts. -/
theorem members_keep_letters : KeepsLetters operationName ∧ KeepsLetters parameterName :=
  ⟨keepsLetters_memberName, keepsLetters_memberName⟩

/-- The ending is put to a name in Pascal case that does not have it. -/
theorem toList_serviceClassName (s : String) (hne : pascalChars s.toList ≠ []) :
    (serviceClassName s).toList = pascalChars s.toList ++
      if "Service".toList <:+ pascalChars s.toList then [] else "Service".toList := by
  rw [serviceClassName_eq]
  by_cases hends : "Service".toList <:+ pascalChars s.toList
  · have hsuffix := List.isSuffixOf_iff_suffix.mpr hends
    rw [if_pos hends, if_neg (fun h => h.2 hsuffix), String.toList_ofList, List.append_nil]
  · have hsuffix := mt List.isSuffixOf_iff_suffix.mp hends
    rw [if_neg hends, if_pos ⟨hne, hsuffix⟩, String.toList_append, String.toList_ofList]

/-- The class of a tag without letters and digits has no name. The class of every other tag is named
by these, ends in `Service` and has its own name as that of its class. -/
theorem class_keeps_letters (s : String) :
    (serviceClassName s = "" ↔ ∀ c ∈ s.toList, ¬ c.isAlphanum) ∧
    (serviceClassName s ≠ "" →
      (∀ c ∈ (serviceClassName s).toList, c.isAlphanum) ∧
      "Service".toList <:+ (serviceClassName s).toList ∧
      smallLetters (serviceClassName s).toList = smallLetters (s.toList.filter Char.isAlphanum) ++
        if "Service".toList <:+ (pascalCase s).toList then [] else "service".toList) ∧
    serviceClassName (serviceClassName s) = serviceClassName s := by
  have hpascal : (pascalCase s).toList = pascalChars s.toList := String.toList_ofList
  rcases pascalChars_cases s.toList with ⟨hnil, hnone⟩ | ⟨c, rest, hcons, hc, d, hd, hname⟩
  · have hempty : serviceClassName s = "" := by
      rw [serviceClassName_eq, hnil]
      rfl
    refine ⟨iff_of_true hempty hnone, fun hne => absurd hempty hne, ?_⟩
    rw [hempty]
    decide +kernel
  have hne : pascalChars s.toList ≠ [] := by simp [hcons]
  have htoList := toList_serviceClassName s hne
  have hfilled : serviceClassName s ≠ "" := by
    intro h
    rw [h, hcons, List.cons_append] at htoList
    exact List.cons_ne_nil _ _ htoList.symm
  refine ⟨iff_of_false hfilled fun hnone => hnone d hd hname, fun _ => ⟨?_, ?_, ?_⟩, ?_⟩
  · exact fun e he => isNameChar_of_mem_serviceClassName s e he
  · exact suffix_serviceClassName hfilled
  · have hending (p : Prop) [Decidable p] : smallLetters (if p then [] else "Service".toList) =
        if p then [] else "service".toList := by split_ifs <;> decide
    rw [htoList, hpascal, smallLetters_append, smallLetters_pascalChars, hending]
    rfl
  · -- The class name is one word in Pascal case that has the ending.
    have hstable : pascalChars (serviceClassName s).toList = (serviceClassName s).toList := by
      have hall := isNameChar_of_mem_serviceClassName s
      rw [htoList, hcons, List.cons_append] at hall ⊢
      exact pascalChars_eq_self hc hall
    have hends := List.isSuffixOf_iff_suffix.mpr (suffix_serviceClassName hfilled)
    rw [serviceClassName_eq (serviceClassName s), hstable, if_neg (fun h => h.2 hends),
      String.ofList_toList]

end ClientGen.Naming
