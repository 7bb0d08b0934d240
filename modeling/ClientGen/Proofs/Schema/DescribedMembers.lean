import ClientGen.Proofs.Number.Integers
import ClientGen.Proofs.Schema.MemberNames

/-! Descriptions that list the members of an enumeration: which texts they are, the members that are
read from them, and their values as a union. -/

namespace ClientGen.EnumEntry

/-- An item `word=digits` of a description. -/
structure Item where
  word : List Char
  digits : List Char
  word_ne_nil : word ≠ []
  isWordChar : ∀ c ∈ word, Text.isWordChar c
  digits_ne_nil : digits ≠ []
  isDigit : ∀ c ∈ digits, c.isDigit

namespace Item

def text (item : Item) : List Char := item.word ++ '=' :: item.digits

def number (item : Item) : Nat := Nat.ofDigitChars 10 item.digits 0

def pair (item : Item) : List Char × List Char := (item.word, item.digits)

/-- The word of an item and its number. -/
def valued (item : Item) : List Char × Nat := (item.word, item.number)

/-- An item whose digits are not too many for a numeral. -/
def Short (item : Item) : Prop := item.digits.length ≤ Numeral.digitLimit

variable (item : Item)

theorem comma_not_mem_text : ',' ∉ item.text := by
  intro h
  rcases List.mem_append.mp h with h | h
  · exact absurd (item.isWordChar _ h) (by decide)
  · rcases List.mem_cons.mp h with h | h
    · exact absurd h (by decide)
    · exact absurd (item.isDigit _ h) (by decide)

theorem pair?_text : pair? item.text = some item.pair := by
  have hmark : Text.isWordChar '=' = false := by decide
  have hdrop : item.text.dropWhile Text.isWordChar = '=' :: item.digits := by
    rw [text, List.dropWhile_append_of_pos item.isWordChar,
      List.dropWhile_cons_of_neg (by simp [hmark])]
  have htake : item.text.takeWhile Text.isWordChar = item.word := by
    rw [text, List.takeWhile_append_of_pos item.isWordChar,
      List.takeWhile_cons_of_neg (by simp [hmark]), List.append_nil]
  unfold pair?
  rw [hdrop, htake]
  exact if_pos ⟨item.word_ne_nil, item.digits_ne_nil, List.all_eq_true.mpr item.isDigit⟩

theorem numbered_pair {item : Item} (h : item.Short) : numbered item.pair = .ok item.valued :=
  if_pos h

theorem numbered_pair_of_long {item : Item} (h : ¬ item.Short) :
    numbered item.pair = .error (.malformed .tooLong) :=
  if_neg h

end Item

/-- Items have numbers exactly if none of them has too many digits. -/
theorem mapM_numbered_eq_ok {items : List Item} {pairs : List (List Char × Nat)} :
    (items.map Item.pair).mapM numbered = .ok pairs ↔
      (∀ item ∈ items, item.Short) ∧ pairs = items.map Item.valued := by
  have hone {item : Item} {pair : List Char × Nat} :
      numbered item.pair = .ok pair ↔ item.Short ∧ pair = item.valued := by
    by_cases h : item.Short
    · simp [Item.numbered_pair h, h, eq_comm]
    · simp [Item.numbered_pair_of_long h, h]
  rw [mapM_eq_ok, List.forall₂_map_left_iff]
  constructor
  · intro h
    induction h with
    | nil => simp
    | cons hpair _ ih =>
      obtain ⟨hshort, rfl⟩ := hone.mp hpair
      exact ⟨List.forall_mem_cons.mpr ⟨hshort, ih.1⟩, congrArg _ ih.2⟩
  · rintro ⟨hshort, rfl⟩
    rw [List.forall₂_map_right_iff, List.forall₂_same]
    exact fun item hitem => Item.numbered_pair (hshort item hitem)

theorem mapM_numbered_eq_error {items : List Item} (h : ∃ item ∈ items, ¬ item.Short) :
    (items.map Item.pair).mapM numbered = .error (.malformed .tooLong) := by
  obtain ⟨item, hitem, hlong⟩ := h
  induction items with
  | nil => cases hitem
  | cons first rest ih =>
    rw [List.map_cons, List.mapM_cons]
    by_cases hfirst : first.Short
    · have hrest : item ∈ rest := (List.mem_cons.mp hitem).resolve_left fun heq =>
        hlong (heq ▸ hfirst)
      rw [Item.numbered_pair hfirst, ok_bind, ih hrest]
      rfl
    · rw [Item.numbered_pair_of_long hfirst]
      rfl

theorem pair?_eq_some_iff {s : List Char} {pair : List Char × List Char} :
    pair? s = some pair ↔ ∃ item : Item, s = item.text ∧ pair = item.pair := by
  constructor
  · intro h
    unfold pair? at h
    dsimp only at h
    split at h
    · next digits hrest =>
      split_ifs at h with hitem
      obtain ⟨hword, hdigits, hall⟩ := hitem
      refine ⟨⟨s.takeWhile Text.isWordChar, digits, hword, fun _ => List.mem_takeWhile_imp, hdigits,
        List.all_eq_true.mp hall⟩, ?_, (Option.some.inj h).symm⟩
      rw [Item.text, ← hrest, List.takeWhile_append_dropWhile]
    · cases h
  · rintro ⟨item, rfl, rfl⟩
    exact item.pair?_text

/-- A list of items with commas between them, and with or without a comma at the end. -/
structure Lists (s : List Char) (items : List Item) : Prop where
  ne_nil : items ≠ []
  text : s = [','].intercalate (items.map Item.text) ∨
    s = [','].intercalate (items.map Item.text) ++ [',']

theorem dropFinalComma_concat (s : List Char) : dropFinalComma (s ++ [',']) = s := by
  rw [dropFinalComma, if_pos List.getLast?_concat, List.dropLast_concat]

theorem eq_dropFinalComma (s : List Char) :
    s = dropFinalComma s ∨ s = dropFinalComma s ++ [','] := by
  unfold dropFinalComma
  split_ifs with h
  · exact .inr (List.dropLast_append_getLast? ',' h).symm
  · exact .inl rfl

/-- The items of a list end with a digit. -/
theorem exists_items_eq_concat {items : List Item} (hne : items ≠ []) :
    ∃ start d, [','].intercalate (items.map Item.text) = start ++ [d] ∧ d.isDigit := by
  induction items with
  | nil => exact absurd rfl hne
  | cons item rest ih =>
    cases rest with
    | nil =>
      refine ⟨item.word ++ '=' :: item.digits.dropLast, item.digits.getLast item.digits_ne_nil, ?_,
        item.isDigit _ (List.getLast_mem _)⟩
      rw [List.map_singleton, List.intercalate_singleton, Item.text, List.append_assoc,
        List.cons_append, List.dropLast_append_getLast]
    | cons next others =>
      obtain ⟨start, d, heq, hd⟩ := ih (List.cons_ne_nil _ _)
      refine ⟨item.text ++ [','] ++ start, d, ?_, hd⟩
      rw [List.map_cons, List.map_cons, List.intercalate_cons_cons, ← List.map_cons, heq,
        List.append_assoc _ start]

theorem dropFinalComma_items {items : List Item} (hne : items ≠ []) :
    dropFinalComma ([','].intercalate (items.map Item.text)) =
      [','].intercalate (items.map Item.text) := by
  obtain ⟨start, d, heq, hd⟩ := exists_items_eq_concat hne
  rw [heq, dropFinalComma, List.getLast?_concat, if_neg]
  rintro ⟨⟩
  exact absurd hd (by decide)

theorem lists_iff {s : List Char} {items : List Item} : Lists s items ↔
    items ≠ [] ∧ dropFinalComma s = [','].intercalate (items.map Item.text) := by
  constructor
  · rintro ⟨hne, rfl | rfl⟩
    · exact ⟨hne, dropFinalComma_items hne⟩
    · exact ⟨hne, dropFinalComma_concat _⟩
  · rintro ⟨hne, hdrop⟩
    exact ⟨hne, hdrop ▸ eq_dropFinalComma s⟩

theorem mapM_pair?_eq_some_iff {pieces : List (List Char)}
    {pairs : List (List Char × List Char)} :
    pieces.mapM pair? = some pairs ↔
      ∃ items : List Item, pieces = items.map Item.text ∧ pairs = items.map Item.pair := by
  rw [mapM_eq_some]
  constructor
  · intro h
    induction h with
    | nil => exact ⟨[], rfl, rfl⟩
    | cons hpair _ ih =>
      obtain ⟨item, rfl, rfl⟩ := pair?_eq_some_iff.mp hpair
      obtain ⟨items, rfl, rfl⟩ := ih
      exact ⟨item :: items, rfl, rfl⟩
  · rintro ⟨items, rfl, rfl⟩
    rw [List.forall₂_map_left_iff, List.forall₂_map_right_iff, List.forall₂_same]
    exact fun item _ => item.pair?_text

/-- The pairs of a description are those of the items that it lists. -/
theorem pairs?_eq_some_iff {s : List Char} {pairs : List (List Char × List Char)} :
    pairs? s = some pairs ↔ ∃ items, Lists (Text.trim s) items ∧ pairs = items.map Item.pair := by
  rw [pairs?, mapM_pair?_eq_some_iff]
  refine exists_congr fun items => and_congr_left fun _ => ?_
  rw [Text.splitOn_eq_iff, lists_iff, ne_eq, List.map_eq_nil_iff]
  refine and_congr_right fun _ => and_iff_right ?_
  exact List.forall_mem_map.mpr fun item _ => item.comma_not_mem_text

/-- A search for items from the left. An item that starts at a character takes all digits that are
there; where none starts, the search goes on behind the character. -/
inductive Finds : List Char → List Item → Prop
  | done : Finds [] []
  | item (item : Item) {rest : List Char} {items : List Item}
      (hend : ∀ c ∈ rest.head?, ¬ c.isDigit) (h : Finds rest items) :
      Finds (item.text ++ rest) (item :: items)
  | skip {c : Char} {rest : List Char} {items : List Item}
      (hnone : ∀ item : Item, ¬ item.text <+: c :: rest) (h : Finds rest items) :
      Finds (c :: rest) items

theorem Finds.comma {rest : List Char} {items : List Item} (h : Finds rest items) :
    Finds (',' :: rest) items := by
  refine .skip (fun item hstart => ?_) h
  have hhead := item.isWordChar
  cases hword : item.word with
  | nil => exact item.word_ne_nil hword
  | cons c word =>
    rw [Item.text, hword, List.cons_append, List.cons_prefix_cons] at hstart
    rw [hword] at hhead
    exact absurd (hstart.1 ▸ hhead c List.mem_cons_self) (by decide)

/-- A search in a list of items finds these and nothing else. -/
theorem finds_of_lists {s : List Char} {items : List Item} (h : Lists s items) : Finds s items := by
  have hall {tail : List Char} (htail : Finds tail []) (hend : ∀ c ∈ tail.head?, ¬ c.isDigit) :
      ∀ items : List Item, items ≠ [] →
        Finds ([','].intercalate (items.map Item.text) ++ tail) items := by
    intro items
    induction items with
    | nil => exact fun hne => absurd rfl hne
    | cons item rest ih =>
      intro _
      cases rest with
      | nil =>
        rw [List.map_singleton, List.intercalate_singleton]
        exact .item item hend htail
      | cons next others =>
        have hrest := (ih (List.cons_ne_nil _ _)).comma
        rw [List.map_cons, List.map_cons, List.intercalate_cons_cons, List.append_assoc,
          List.append_assoc]
        refine .item item ?_ hrest
        rintro _ ⟨⟩
        decide
  obtain ⟨hne, rfl | rfl⟩ := h
  · have hitems := hall .done (by simp) items hne
    rwa [List.append_nil] at hitems
  · exact hall (.comma .done) (by simp) items hne

/-- The members for items: one for each number, by increasing number, with the name of the first
word of its number. -/
structure Describes (items : List Item) (numbers : List Nat) (entries : List EnumEntry) : Prop where
  increasing : numbers.Pairwise (· < ·)
  complete (n : Nat) : n ∈ numbers ↔ ∃ item ∈ items, item.number = n
  members : List.Forall₂ (fun n entry => ∃ item, items.find? (·.number == n) = some item ∧
    entry = { name := memberName (String.ofList item.word), value := toString n,
              type := "number" }) numbers entries

theorem find?_valued {items : List Item} {a : List Char × Nat} :
    IsFirst (items.map Item.valued) a ↔
      ∃ item, items.find? (·.number == a.2) = some item ∧ item.valued = a := by
  rw [IsFirst, List.find?_map, Option.map_eq_some_iff]
  rfl

section Description

variable {d : String} {items : List Item}

theorem describes_of_lists (h : Lists (Text.trim d.toList) items)
    (hshort : ∀ item ∈ items, item.Short) :
    ∃ numbers entries, ofDescription d = .ok entries ∧ Describes items numbers entries := by
  have hpairs : pairs? d.toList = some (items.map Item.pair) :=
    pairs?_eq_some_iff.mpr ⟨items, h, rfl⟩
  obtain ⟨hincreasing, hmem⟩ := foldl_insertPair (items.map Item.valued) List.Pairwise.nil
  simp only [List.not_mem_nil, false_or, IsEmpty.forall_iff, implies_true, and_true,
    find?_valued] at hmem
  have hentries := ofDescription_eq_ok.mpr
    (.inr ⟨_, _, hpairs, mapM_numbered_eq_ok.mpr ⟨hshort, rfl⟩, rfl⟩)
  generalize (items.map Item.valued).foldl _ [] = sorted at hincreasing hmem hentries
  refine ⟨sorted.map Prod.snd, _, hentries, List.pairwise_map.mpr hincreasing, fun n => ?_, ?_⟩
  · constructor
    · intro hn
      obtain ⟨a, ha, rfl⟩ := List.mem_map.mp hn
      obtain ⟨item, hfind, rfl⟩ := (hmem a).mp ha
      exact ⟨item, List.mem_of_find?_eq_some hfind, rfl⟩
    · rintro ⟨item, hitem, rfl⟩
      have hsome : (items.find? (·.number == item.number)).isSome :=
        List.find?_isSome.mpr ⟨item, hitem, beq_self_eq_true _⟩
      obtain ⟨first, hfirst⟩ := Option.isSome_iff_exists.mp hsome
      have hnumber := List.find?_some hfirst
      rw [beq_iff_eq] at hnumber
      refine List.mem_map.mpr ⟨first.valued, (hmem _).mpr ⟨first, ?_, rfl⟩, hnumber⟩
      rwa [Item.valued, hnumber]
  · rw [List.forall₂_map_left_iff, List.forall₂_map_right_iff, List.forall₂_same]
    intro a ha
    obtain ⟨item, hfind, rfl⟩ := (hmem a).mp ha
    exact ⟨item, hfind, rfl⟩

/-- There is a member for the number of each item. -/
theorem Describes.ne_nil {numbers : List Nat} {entries : List EnumEntry}
    (h : Describes items numbers entries) (hne : items ≠ []) : entries ≠ [] := by
  rintro rfl
  obtain ⟨item, rest, rfl⟩ := List.exists_cons_of_ne_nil hne
  have hmem := (h.complete item.number).mpr ⟨item, List.mem_cons_self, rfl⟩
  rw [List.forall₂_nil_right_iff.mp h.members] at hmem
  exact absurd hmem List.not_mem_nil

theorem ofDescription_of_long (h : Lists (Text.trim d.toList) items)
    (hlong : ∃ item ∈ items, ¬ item.Short) : ofDescription d = .error (.malformed .tooLong) := by
  rw [ofDescription, pairs?_eq_some_iff.mpr ⟨items, h, rfl⟩]
  exact map_eq_error.mpr (mapM_numbered_eq_error hlong)

theorem ofDescription_of_not_lists (h : ¬ ∃ items, Lists (Text.trim d.toList) items) :
    ofDescription d = .ok [] := by
  refine ofDescription_eq_ok.mpr (.inl ⟨?_, rfl⟩)
  cases hpairs : pairs? d.toList with
  | none => rfl
  | some pairs =>
    obtain ⟨items, hitems, -⟩ := pairs?_eq_some_iff.mp hpairs
    exact absurd ⟨items, hitems⟩ h

end Description

/-- Numbers as alternatives. -/
def alternatives (numbers : List Nat) : String := " | ".intercalate (numbers.map toString)

theorem Describes.values {items : List Item} {numbers : List Nat} {entries : List EnumEntry}
    (h : Describes items numbers entries) : entries.map (·.value) = numbers.map toString := by
  have hmembers := h.members
  clear h
  induction hmembers with
  | nil => rfl
  | cons hentry _ ih =>
    obtain ⟨item, -, rfl⟩ := hentry
    rw [List.map_cons, List.map_cons, ih]

theorem Describes.union {items : List Item} {numbers : List Nat} {entries : List EnumEntry}
    {d : String} (h : Describes items numbers entries) (hentries : ofDescription d = .ok entries)
    (hne : entries ≠ []) (parenthesize : Bool) : unionOfDescription? d parenthesize =
      .ok (some (if parenthesize ∧ 2 ≤ numbers.length then "(" ++ alternatives numbers ++ ")"
        else alternatives numbers)) := by
  rw [unionOfDescription?, hentries]
  refine map_eq_ok.mpr ⟨entries, rfl, ?_⟩
  rw [if_neg hne, alternatives, h.values, h.members.length_eq]
  rfl

/-- A description makes members exactly if it lists items, a comma at the end and the space around
it apart, none of which has too many digits. A search finds the same items. There is one member for
each number, by increasing number, with the name of the first word of its number; the union lists
these numbers, and stands in parentheses if that is asked for and there are several. An item of too
many digits is an error, for members and union alike, and a description of another form has none. -/
theorem members_of_description (d : String) :
    ((∃ entries, ofDescription d = .ok entries ∧ entries ≠ []) ↔
      ∃ items, Lists (Text.trim d.toList) items ∧ ∀ item ∈ items, item.Short) ∧
    (∀ items, Lists (Text.trim d.toList) items → Finds (Text.trim d.toList) items ∧
      ((∀ item ∈ items, item.Short) → ∃ numbers entries, ofDescription d = .ok entries ∧
        Describes items numbers entries ∧ ∀ parenthesize, unionOfDescription? d parenthesize =
          .ok (some (if parenthesize ∧ 2 ≤ numbers.length then "(" ++ alternatives numbers ++ ")"
            else alternatives numbers))) ∧
      ((∃ item ∈ items, ¬ item.Short) → ofDescription d = .error (.malformed .tooLong) ∧
        ∀ parenthesize, unionOfDescription? d parenthesize = .error (.malformed .tooLong))) ∧
    ((¬ ∃ items, Lists (Text.trim d.toList) items) → ofDescription d = .ok [] ∧
      ∀ parenthesize, unionOfDescription? d parenthesize = .ok none) := by
  refine ⟨⟨?_, ?_⟩, fun items hitems => ⟨finds_of_lists hitems, fun hshort => ?_, fun hlong => ?_⟩,
    fun hnone => ?_⟩
  · rintro ⟨entries, hentries, hne⟩
    by_cases hlists : ∃ items, Lists (Text.trim d.toList) items
    · obtain ⟨items, hitems⟩ := hlists
      refine ⟨items, hitems, not_not.mp fun hlong => ?_⟩
      rw [ofDescription_of_long hitems (by simpa using hlong)] at hentries
      cases hentries
    · rw [ofDescription_of_not_lists hlists] at hentries
      exact absurd (Except.ok.inj hentries).symm hne
  · rintro ⟨items, hitems, hshort⟩
    obtain ⟨numbers, entries, hentries, hdescribes⟩ := describes_of_lists hitems hshort
    exact ⟨entries, hentries, hdescribes.ne_nil hitems.ne_nil⟩
  · obtain ⟨numbers, entries, hentries, hdescribes⟩ := describes_of_lists hitems hshort
    have hne := hdescribes.ne_nil hitems.ne_nil
    exact ⟨numbers, entries, hentries, hdescribes, hdescribes.union hentries hne⟩
  · have herror := ofDescription_of_long hitems hlong
    refine ⟨herror, fun parenthesize => ?_⟩
    rw [unionOfDescription?, herror]
    rfl
  · have hempty := ofDescription_of_not_lists hnone
    refine ⟨hempty, fun parenthesize => ?_⟩
    rw [unionOfDescription?, hempty]
    rfl

namespace PetSizes

/-- Words of digits, numbers with zeros before them, and two words of one number. -/
def description : String := " big=10,7=007,tiny=1,small=1, "

def items : List Item :=
  [⟨"big".toList, "10".toList, by decide, List.all_eq_true.mp (by decide), by decide,
      List.all_eq_true.mp (by decide)⟩,
    ⟨"7".toList, "007".toList, by decide, List.all_eq_true.mp (by decide), by decide,
      List.all_eq_true.mp (by decide)⟩,
    ⟨"tiny".toList, "1".toList, by decide, List.all_eq_true.mp (by decide), by decide,
      List.all_eq_true.mp (by decide)⟩,
    ⟨"small".toList, "1".toList, by decide, List.all_eq_true.mp (by decide), by decide,
      List.all_eq_true.mp (by decide)⟩]

theorem members_of_sizes : Lists (Text.trim description.toList) items ∧
    (∀ item ∈ items, item.Short) ∧ Finds (Text.trim description.toList) items ∧
    ∃ numbers entries, ofDescription description = .ok entries ∧
      Describes items numbers entries ∧ ∀ parenthesize,
        unionOfDescription? description parenthesize =
          .ok (some (if parenthesize ∧ 2 ≤ numbers.length then "(" ++ alternatives numbers ++ ")"
            else alternatives numbers)) := by
  have hlists : Lists (Text.trim description.toList) items :=
    ⟨List.cons_ne_nil _ _, .inr (by decide +kernel)⟩
  have hshort : ∀ item ∈ items, item.Short := by
    simp only [items, Item.Short, List.forall_mem_cons]
    decide
  obtain ⟨hfinds, hmembers, -⟩ := (members_of_description description).2.1 items hlists
  exact ⟨hlists, hshort, hfinds, hmembers hshort⟩

/-- One digit more than a numeral may have. -/
def endless : Item where
  word := ['A']
  digits := List.replicate (Numeral.digitLimit + 1) '1'
  word_ne_nil := List.cons_ne_nil _ _
  isWordChar := List.all_eq_true.mp (by decide)
  digits_ne_nil := List.cons_ne_nil _ _
  isDigit c hc := by
    rw [List.eq_of_mem_replicate hc]
    decide

/-- A description that lists one item is refused for the number of its digits. -/
theorem endless_refused : Lists (Text.trim (String.ofList endless.text).toList) [endless] ∧
    ofDescription (String.ofList endless.text) = .error (.malformed .tooLong) ∧
    unionOfDescription? (String.ofList endless.text) false = .error (.malformed .tooLong) := by
  have hspaceless : ∀ c ∈ endless.text, Text.isSpace c = false := by
    have htext : endless.text =
        'A' :: '=' :: List.replicate (Numeral.digitLimit + 1) '1' := rfl
    rw [htext]
    refine List.forall_mem_cons.mpr ⟨by decide, List.forall_mem_cons.mpr ⟨by decide, ?_⟩⟩
    intro c hc
    rw [List.eq_of_mem_replicate hc]
    decide
  have hlists : Lists (Text.trim (String.ofList endless.text).toList) [endless] := by
    rw [String.toList_ofList, Text.trim_eq_self hspaceless]
    exact ⟨List.cons_ne_nil _ _, .inl List.intercalate_singleton.symm⟩
  have hlong : ¬ endless.Short := by
    rw [Item.Short, endless, List.length_replicate]
    exact Nat.not_succ_le_self _
  have herror := ofDescription_of_long hlists ⟨endless, List.mem_cons_self, hlong⟩
  refine ⟨hlists, herror, ?_⟩
  rw [unionOfDescription?, herror]
  rfl

end PetSizes

end ClientGen.EnumEntry
