import ClientGen.Proofs.Document.Keyed
import ClientGen.Proofs.Document.Segments
import ClientGen.Proofs.Number.Integers

/-! The places of a document and references: every place has a reference that leads to it, and a
reference that leads to a value names a key or a position in each of its segments. -/

namespace ClientGen

/-- Where no key stands twice, a key holds the value that stands with it. -/
theorem Entries.Distinct.get? {es : Entries} (h : es.Distinct) {key : String} {value : Node}
    (hentry : (.str key, value) ∈ es) : es.get? key = some value := by
  induction es with
  | nil => cases hentry
  | cons first rest ih =>
    obtain ⟨hfirst, hrest⟩ := List.pairwise_cons.mp h
    rcases List.mem_cons.mp hentry with rfl | hentry
    · rw [Entries.get?, find?, List.find?_cons_of_pos (by exact Scalar.sameKey_str.mpr rfl)]
      rfl
    · rw [Entries.get?, find?, List.find?_cons_of_neg (by simp [hfirst _ hentry])]
      exact ih hrest hentry

namespace Pointer

open Text

/-- A step from a value to a part of it: the value of a key, or the item at a position. -/
inductive Step where
  | key (name : String)
  | index (position : Nat)
deriving DecidableEq

/-- The value that some steps lead to. -/
inductive At : Node → List Step → Node → Prop
  | here (node : Node) : At node [] node
  | key {es : Entries} {name : String} {value target : Node} {steps : List Step}
      (hentry : (.str name, value) ∈ es) (hrest : At value steps target) :
      At (.map es) (.key name :: steps) target
  | index {items : List Node} {position : Nat} {item target : Node} {steps : List Step}
      (hitem : items[position]? = some item) (hrest : At item steps target) :
      At (.list items) (.index position :: steps) target

/-- A key as a segment: its tildes are escaped, and then its slashes. -/
def segmentOf (key : String) : List Char :=
  replaceAll ['/'] ['~', '1'] (replaceAll ['~'] ['~', '0'] key.toList)

def Step.segment : Step → List Char
  | .key name => segmentOf name
  | .index position => (toString position).toList

/-- The key that a segment is read as: its slashes are read, and then its tildes. -/
def keyOf (segment : List Char) : String :=
  String.ofList (replaceAll ['~', '0'] ['~'] (replaceAll ['~', '1'] ['/'] segment))

/-- The reference that has these segments. -/
def ofSegments (segments : List (List Char)) : String :=
  String.ofList ('#' :: '/' :: ['/'].intercalate segments)

/-- A local reference and its segments. -/
structure IsReference (ref : String) (segments : List (List Char)) : Prop where
  ne_nil : segments ≠ []
  slashless : ∀ segment ∈ segments, '/' ∉ segment
  eq_ofSegments : ref = ofSegments segments

/-- The value that segments lead to: each segment is read as a key of a map, or is a numeral for a
position in a list, which is counted from the end if it is negative. -/
inductive Leads (numeral : List Char → Int → Prop) : Node → List (List Char) → Node → Prop
  | here (node : Node) : Leads numeral node [] node
  | key {es : Entries} {segment : List Char} {value target : Node} {rest : List (List Char)}
      (hentry : Entries.get? es (keyOf segment) = some value)
      (hrest : Leads numeral value rest target) :
      Leads numeral (.map es) (segment :: rest) target
  | item {items : List Node} {segment : List Char} {position : Nat} {item target : Node}
      {rest : List (List Char)} (hnumeral : numeral (keyOf segment).toList position)
      (hitem : items[position]? = some item) (hrest : Leads numeral item rest target) :
      Leads numeral (.list items) (segment :: rest) target
  | itemFromEnd {items : List Node} {segment : List Char} {position : Nat} {item target : Node}
      {rest : List (List Char)} (hnumeral : numeral (keyOf segment).toList (Int.negSucc position))
      (hitem : items.reverse[position]? = some item) (hrest : Leads numeral item rest target) :
      Leads numeral (.list items) (segment :: rest) target

theorem toList_keyOf (segment : List Char) : (keyOf segment).toList = unescapeChars segment := by
  rw [keyOf, String.toList_ofList, unescapeChars_eq_replaceAll]

theorem segmentOf_eq (key : String) : segmentOf key = escapeChars key.toList :=
  (escapeChars_eq_replaceAll _).symm

theorem keyOf_segmentOf (key : String) : keyOf (segmentOf key) = key := by
  rw [← String.toList_inj, toList_keyOf, segmentOf_eq, unescapeChars_escapeChars]

/-- Digits stand for themselves in segments. -/
theorem keyOf_of_isDigit {s : List Char} (h : ∀ c ∈ s, c.isDigit) : keyOf s = String.ofList s := by
  have htilde : '~' ∉ s := fun hmem => absurd (h _ hmem) (by decide)
  rw [← String.toList_inj, toList_keyOf, String.toList_ofList, unescapeChars_eq_self htilde]

/-- The segments of a local reference are the pieces between its slashes. -/
theorem IsReference.splitOn_eq {ref : String} {segments : List (List Char)}
    (h : IsReference ref segments) : splitOn '/' (ref.toList.drop 2) = segments := by
  obtain ⟨hne, hslash, rfl⟩ := h
  rw [ofSegments, String.toList_ofList]
  exact splitOn_eq_iff.mpr ⟨hne, hslash, rfl⟩

/-- The segments of a local reference are found by cutting at its slashes. -/
theorem segments?_eq_some_iff {ref : String} {keys : List String} :
    segments? ref = some keys ↔
      ∃ segments, IsReference ref segments ∧ keys = segments.map keyOf := by
  have hkeys : (fun s => String.ofList (unescapeChars s)) = keyOf := by
    funext s
    rw [keyOf, unescapeChars_eq_replaceAll]
  unfold segments?
  rw [hkeys]
  constructor
  · intro h
    split at h
    · next rest hchars =>
      obtain ⟨hne, hslash, hrest⟩ := splitOn_eq_iff.mp (rfl : splitOn '/' rest = splitOn '/' rest)
      refine ⟨splitOn '/' rest, ⟨hne, hslash, ?_⟩, (Option.some.inj h).symm⟩
      rw [ofSegments, ← hrest, ← hchars, String.ofList_toList]
    · cases h
  · rintro ⟨segments, href, rfl⟩
    rw [← href.splitOn_eq, href.eq_ofSegments, ofSegments, String.toList_ofList]
    rfl

theorem itemAt?_natCast (items : List Node) (position : Nat) :
    itemAt? items position = items[position]? := by
  rw [itemAt?, if_pos (Int.natCast_nonneg position), Int.toNat_natCast]

theorem itemAt?_negSucc (items : List Node) (position : Nat) :
    itemAt? items (Int.negSucc position) = items.reverse[position]? := by
  rw [itemAt?, if_neg (by omega), Int.natAbs_negSucc]
  split_ifs with h
  · rw [List.getElem?_reverse (by omega)]
    congr 1
    omega
  · exact (List.getElem?_eq_none (by rw [List.length_reverse]; omega)).symm

/-- A walk along the keys of segments ends where the segments lead to. -/
theorem walk_eq_ok_iff {node value : Node} {segments : List (List Char)} :
    walk node (segments.map keyOf) = .ok value ↔ Leads Numeral.Spells node segments value := by
  constructor
  · intro h
    induction segments generalizing node with
    | nil =>
      obtain rfl := Except.ok.inj h
      exact .here node
    | cons segment rest ih =>
      obtain ⟨next, hstep, hrest⟩ := bind_eq_ok.mp h
      have hrest := ih hrest
      unfold step at hstep
      split at hstep
      · split at hstep
        · next hentry =>
          obtain rfl := Except.ok.inj hstep
          exact .key hentry hrest
        · cases hstep
      · split at hstep
        · next hfound =>
          obtain rfl := Except.ok.inj hstep
          obtain ⟨position, hread, hitem⟩ := Option.bind_eq_some_iff.mp hfound
          have hnumeral := Numeral.int?_eq_some_iff.mp hread
          cases position with
          | ofNat position => exact .item hnumeral (itemAt?_natCast _ _ ▸ hitem) hrest
          | negSucc position => exact .itemFromEnd hnumeral (itemAt?_negSucc _ _ ▸ hitem) hrest
        · cases hstep
      · cases hstep
  · intro h
    induction h with
    | here node => rfl
    | key hentry _ ih =>
      refine bind_eq_ok.mpr ⟨_, ?_, ih⟩
      rw [step, hentry]
    | @item items segment position item _ _ hnumeral hitem _ ih =>
      refine bind_eq_ok.mpr ⟨_, ?_, ih⟩
      have hfound : (Numeral.int? (keyOf segment).toList).bind (itemAt? items) = some item := by
        rw [Numeral.int?_eq_some_iff.mpr hnumeral, Option.bind_some, itemAt?_natCast, hitem]
      rw [step, hfound]
    | @itemFromEnd items segment position item _ _ hnumeral hitem _ ih =>
      refine bind_eq_ok.mpr ⟨_, ?_, ih⟩
      have hfound : (Numeral.int? (keyOf segment).toList).bind (itemAt? items) = some item := by
        rw [Numeral.int?_eq_some_iff.mpr hnumeral, Option.bind_some, itemAt?_negSucc, hitem]
      rw [step, hfound]

/-- A reference leads to a value if its segments do. -/
theorem resolve_eq_ok_iff {root value : Node} {ref : String} :
    resolve root ref = .ok value ↔
      ∃ segments, IsReference ref segments ∧ Leads Numeral.Spells root segments value := by
  have hresolve : resolve root ref = .ok value ↔
      ∃ keys, segments? ref = some keys ∧ walk root keys = .ok value := by
    unfold resolve
    cases segments? ref with
    | none => simp
    | some keys => cases hwalk : walk root keys <;> simp [hwalk]
  rw [hresolve]
  constructor
  · rintro ⟨keys, hkeys, hwalk⟩
    obtain ⟨segments, href, rfl⟩ := segments?_eq_some_iff.mp hkeys
    exact ⟨segments, href, walk_eq_ok_iff.mp hwalk⟩
  · rintro ⟨segments, href, hleads⟩
    exact ⟨_, segments?_eq_some_iff.mpr ⟨segments, href, rfl⟩, walk_eq_ok_iff.mpr hleads⟩

theorem slash_not_mem_segment (s : Step) : '/' ∉ s.segment := by
  cases s with
  | key name =>
    rw [Step.segment, segmentOf_eq]
    exact slash_not_mem_escapeChars _
  | index position =>
    intro h
    exact absurd (Numeral.isDigit_of_mem_toString position _ h) (by decide)

/-- A position has no more digits than a numeral may have. -/
def Step.HasNumeral : Step → Prop
  | .key _ => True
  | .index position => Numeral.hasText position

/-- The positions of a list have numerals, as far as a machine can address its items. -/
theorem Step.hasNumeral_of_lt {position : Nat} (h : position < 2 ^ 64) :
    (Step.index position).HasNumeral := by
  refine Numeral.hasText_iff.mpr (h.trans ?_)
  calc 2 ^ 64 < 10 ^ 20 := by decide
    _ ≤ 10 ^ Numeral.digitLimit := Nat.pow_le_pow_right (by decide) (by decide)

/-- The segments of a place lead to it. -/
theorem At.leads {root value : Node} {steps : List Step} (h : At root steps value)
    (hkeyed : root.Keyed) (hnumerals : ∀ step ∈ steps, step.HasNumeral) :
    Leads Numeral.Spells root (steps.map Step.segment) value := by
  induction h with
  | here node => exact .here node
  | @key es name value _ _ hentry _ ih =>
    refine .key ?_ (ih (hkeyed.value hentry) (List.forall_mem_cons.mp hnumerals).2)
    rw [Step.segment, keyOf_segmentOf]
    exact hkeyed.distinct.get? hentry
  | @index items position item _ _ hitem _ ih =>
    obtain ⟨hposition, hrest⟩ := List.forall_mem_cons.mp hnumerals
    refine .item ?_ hitem (ih (hkeyed.item (List.mem_of_getElem? hitem)) hrest)
    rw [Step.segment, keyOf_of_isDigit (Numeral.isDigit_of_mem_toString position),
      String.ofList_toList]
    exact Numeral.spells_toString hposition

/-- Every place of a document has a reference: the steps to it, escaped, between slashes. Positions
are written as numerals, which all positions of lists in a memory have. -/
theorem resolve_of_at {root value : Node} {steps : List Step} (hkeyed : root.Keyed)
    (h : At root steps value) (hne : steps ≠ []) (hnumerals : ∀ step ∈ steps, step.HasNumeral) :
    resolve root (ofSegments (steps.map Step.segment)) = .ok value := by
  have hreference : IsReference (ofSegments (steps.map Step.segment)) (steps.map Step.segment) :=
    ⟨by simpa using hne, List.forall_mem_map.mpr fun s _ => slash_not_mem_segment s, rfl⟩
  exact resolve_eq_ok_iff.mpr ⟨_, hreference, h.leads hkeyed hnumerals⟩

namespace PetNest

def nest : Node := .map [(.str "a/b", .str "kitten")]

def nests : List Node := [.str "~1", .map [(.str "", nest)]]

def document : Node := .map [(.str "~01", .list nests)]

def steps : List Step := [.key "~01", .index 1, .key "", .key "a/b"]

theorem keyed_document : document.Keyed := by
  have hnest : nest.Keyed := .map (List.pairwise_singleton _ _) (by simp [Node.Keyed.scalar])
  have hitem : (Node.map [(.str "", nest)]).Keyed :=
    .map (List.pairwise_singleton _ _) (by simpa using hnest)
  have hnests : (Node.list nests).Keyed :=
    .list (List.forall_mem_cons.mpr ⟨.scalar _, by simpa using hitem⟩)
  exact .map (List.pairwise_singleton _ _) (by simpa using hnests)

theorem at_steps : At document steps (.str "kitten") :=
  .key List.mem_cons_self (.index rfl (.key List.mem_cons_self
    (.key List.mem_cons_self (.here _))))

theorem resolve_kitten :
    (document.Keyed ∧ At document steps (.str "kitten") ∧ steps ≠ [] ∧
      ∀ step ∈ steps, step.HasNumeral) ∧
    ofSegments (steps.map Step.segment) = "#/~001/1//a~1b" ∧
    resolve document "#/~001/1//a~1b" = .ok (.str "kitten") := by
  have hne : steps ≠ [] := by simp [steps]
  have hreference : ofSegments (steps.map Step.segment) = "#/~001/1//a~1b" := by
    simp only [steps, List.map_cons, List.map_nil, Step.segment, segmentOf_eq]
    decide
  have hnumerals : ∀ step ∈ steps, step.HasNumeral := by
    have hone : (Step.index 1).HasNumeral := Step.hasNumeral_of_lt (by decide)
    simpa [steps, Step.HasNumeral] using hone
  refine ⟨⟨keyed_document, at_steps, hne, hnumerals⟩, hreference, ?_⟩
  rw [← hreference]
  exact resolve_of_at keyed_document at_steps hne hnumerals

end PetNest

namespace Leads

variable {numeral : List Char → Int → Prop} {node value : Node} {segments : List (List Char)}

theorem imp {other : List Char → Int → Prop} (h : Leads numeral node segments value)
    (himp : ∀ s i, numeral s i → other s i) : Leads other node segments value := by
  induction h with
  | here node => exact .here node
  | key hentry _ ih => exact .key hentry ih
  | item hnumeral hitem _ ih => exact .item (himp _ _ hnumeral) hitem ih
  | itemFromEnd hnumeral hitem _ ih => exact .itemFromEnd (himp _ _ hnumeral) hitem ih

theorem exists_middle {before after : List (List Char)}
    (h : Leads numeral node (before ++ after) value) :
    ∃ middle, Leads numeral node before middle ∧ Leads numeral middle after value := by
  induction before generalizing node with
  | nil => exact ⟨node, .here node, h⟩
  | cons segment rest ih =>
    cases h with
    | key hentry hrest =>
      obtain ⟨middle, hbefore, hafter⟩ := ih hrest
      exact ⟨middle, .key hentry hbefore, hafter⟩
    | item hnumeral hitem hrest =>
      obtain ⟨middle, hbefore, hafter⟩ := ih hrest
      exact ⟨middle, .item hnumeral hitem hbefore, hafter⟩
    | itemFromEnd hnumeral hitem hrest =>
      obtain ⟨middle, hbefore, hafter⟩ := ih hrest
      exact ⟨middle, .itemFromEnd hnumeral hitem hbefore, hafter⟩

/-- Segments lead to one value at most. -/
theorem unique {other : Node} (h : Leads Numeral.Spells node segments value)
    (hother : Leads Numeral.Spells node segments other) : value = other :=
  Except.ok.inj ((walk_eq_ok_iff.mpr h).symm.trans (walk_eq_ok_iff.mpr hother))

end Leads

theorem isIndex_keyOf_iff {segment : List Char} :
    Numeral.IsIndex (keyOf segment).toList ↔ Numeral.IsIndex segment := by
  constructor
  · intro h
    have hsame : segment = (keyOf segment).toList := by
      refine eq_of_unescapeChars (toList_keyOf segment).symm (fun hmem => ?_) fun hmem => ?_
      · exact absurd (h.2.1 _ hmem) (by decide)
      · exact absurd (h.2.1 _ hmem) (by decide)
    exact hsame ▸ h
  · intro h
    rwa [keyOf_of_isDigit h.2.1, String.toList_ofList]

/-- Segments name keys and count positions, if they lead to a value and each segment that is applied
to a list is a canonical index. -/
theorem leads_counts_iff {root value : Node} {segments : List (List Char)} :
    Leads Numeral.Counts root segments value ↔
      Leads Numeral.Spells root segments value ∧ ∀ before segment after items,
        segments = before ++ segment :: after → Leads Numeral.Spells root before (.list items) →
        Numeral.IsIndex segment := by
  constructor
  · intro h
    refine ⟨h.imp fun _ _ => Numeral.Counts.spells, ?_⟩
    rintro before segment after items rfl hlist
    obtain ⟨middle, hbefore, hafter⟩ := h.exists_middle
    obtain rfl := hlist.unique (hbefore.imp fun _ _ => Numeral.Counts.spells)
    cases hafter with
    | item hnumeral => exact isIndex_keyOf_iff.mp hnumeral.1
    | itemFromEnd hnumeral => exact isIndex_keyOf_iff.mp hnumeral.1
  · rintro ⟨h, hindex⟩
    induction h with
    | here node => exact .here node
    | key hentry _ ih =>
      refine .key hentry (ih fun before segment after items heq hlist => ?_)
      exact hindex (_ :: before) segment after items (congrArg _ heq) (.key hentry hlist)
    | item hnumeral hitem _ ih =>
      have hsegment := isIndex_keyOf_iff.mpr (hindex [] _ _ _ rfl (.here _))
      refine .item (Numeral.counts_of_spells hnumeral hsegment) hitem
        (ih fun before segment after items heq hlist => ?_)
      exact hindex (_ :: before) segment after items (congrArg _ heq) (.item hnumeral hitem hlist)
    | itemFromEnd hnumeral hitem _ ih =>
      have hsegment := isIndex_keyOf_iff.mpr (hindex [] _ _ _ rfl (.here _))
      exact absurd (Numeral.counts_of_spells hnumeral hsegment) Numeral.not_counts_negSucc

/-- A reference leads to a value exactly if each of its segments is a key of a map or a numeral for
a position in a list; any other reference is refused as dangling. The segments name keys and count
positions only if those that are applied to lists are canonical indices. -/
theorem resolve_segments (root : Node) (ref : String) :
    (∀ value, resolve root ref = .ok value ↔
      ∃ segments, IsReference ref segments ∧ Leads Numeral.Spells root segments value) ∧
    ((∀ value, resolve root ref ≠ .ok value) →
      ∃ fault, resolve root ref = .error (.unresolved ref fault) ∧ Dangling fault) ∧
    ∀ segments value, Leads Numeral.Counts root segments value ↔
      Leads Numeral.Spells root segments value ∧ ∀ before segment after items,
        segments = before ++ segment :: after → Leads Numeral.Spells root before (.list items) →
        Numeral.IsIndex segment := by
  refine ⟨fun value => resolve_eq_ok_iff, fun hnone => ?_, fun segments value => leads_counts_iff⟩
  cases hresolve : resolve root ref with
  | ok value => exact absurd hresolve (hnone value)
  | error e =>
    obtain ⟨fault, rfl, hdangling⟩ := dangling_of_resolve hresolve
    exact ⟨fault, rfl, hdangling⟩

namespace PetList

def pets : List Node := [.str "cat", .str "dog"]

def document : Node := .map [(.str "pets", .list pets)]

/-- The last item of a list is found at its position from the end, which is no canonical index. -/
theorem resolve_from_end : resolve document "#/pets/-1" = .ok (.str "dog") ∧
    ¬ ∃ segments value, IsReference "#/pets/-1" segments ∧
      Leads Numeral.Counts document segments value := by
  refine ⟨rfl, ?_⟩
  rintro ⟨segments, value, href, hleads⟩
  have hsegments : segments = ["pets".toList, ['-', '1']] := href.splitOn_eq.symm
  have hpets : Leads Numeral.Spells document ["pets".toList] (.list pets) := by
    have hkey : keyOf "pets".toList = "pets" := by
      rw [← String.toList_inj, toList_keyOf]
      rfl
    have hentry : Entries.get? [(.str "pets", .list pets)] (keyOf "pets".toList) =
        some (.list pets) := by
      rw [hkey]
      rfl
    exact .key hentry (.here _)
  have hindex := (leads_counts_iff.mp hleads).2 ["pets".toList] ['-', '1'] [] pets hsegments hpets
  exact absurd (hindex.2.1 '-' List.mem_cons_self) (by decide)

end PetList

end Pointer

end ClientGen
