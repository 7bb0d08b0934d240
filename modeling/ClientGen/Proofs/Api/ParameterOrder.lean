import ClientGen.Proofs.StableSort
import ClientGen.Proofs.Api.Arguments
import ClientGen.Proofs.Api.SchemaPlaces

/-! The parameters of an operation: which objects they are made of, and their order. -/

namespace ClientGen

/-- A pattern stands where it is found. -/
theorem Text.prefix_of_position? {pattern s : List Char} {i : Nat}
    (h : position? pattern s = some i) : pattern <+: s.drop i := by
  induction s generalizing i with
  | nil =>
    unfold position? at h
    split_ifs at h with hempty
    rw [List.isEmpty_iff.mp hempty]
    exact List.nil_prefix
  | cons c rest ih =>
    unfold position? at h
    split_ifs at h with hprefix
    · obtain rfl := Option.some.inj h
      exact List.isPrefixOf_iff_prefix.mp hprefix
    · obtain ⟨j, hj, rfl⟩ := Option.map_eq_some_iff.mp h
      exact ih hj

namespace Location

theorem rank_inj {a b : Location} (h : a.rank = b.rank) : a = b :=
  (List.idxOf_inj (l := all) (by cases a <;> decide)).mp h

theorem name_inj {a b : Location} (h : a.name = b.name) : a = b := by
  cases a <;> cases b <;> first | rfl | exact absurd h (by decide)

theorem ofNode?_eq_some {node : Node} {location : Location} :
    ofNode? node = some location ↔ node = .str location.name := by
  constructor
  · intro h
    obtain ⟨text, htext, hlookup⟩ := Option.bind_eq_some_iff.mp h
    rw [Node.text?_eq_some.mp htext, eq_name_of_lookup hlookup]
  · rintro rfl
    cases location <;> decide

end Location

/-- The wire name of a parameter and its location, which tell it apart from others. -/
def Parameter.pair (p : Parameter) : String × Location := (p.wireName, p.location)

namespace ApiDocument

variable {doc : ApiDocument}

/-- The pair of a parameter object, if it has a name and a location that is known. -/
def pair? (node : Node) : Option (String × Location) :=
  (node.get? "name").bind fun name => (node.get? "in").bind fun location =>
    name.text?.bind fun wireName => (Location.ofNode? location).map fun l => (wireName, l)

/-- The place of the first object with a pair. -/
def firstWith (objects : List Node) (pair : String × Location) : Nat :=
  objects.findIdx fun node => pair? node = some pair

/-- The place of a path parameter in a path template. -/
def place? (path : String) (p : Parameter) : Option Nat :=
  if p.location = .path then
    Text.position? ('\x7b' :: (p.wireName.toList ++ ['\x7d'])) path.toList
  else none

/-- Why one parameter stands before another: by location, in the path by the place in the template,
where those that are in no place come last, and then by the first objects with the pairs. -/
inductive Before (path : String) (objects : List Node) (a b : Parameter) : Prop
  | location (h : a.location.rank < b.location.rank)
  | place {i j : Nat} (same : a.location = b.location) (ha : place? path a = some i)
      (hb : place? path b = some j) (h : i < j)
  | noPlace {i : Nat} (same : a.location = b.location) (ha : place? path a = some i)
      (hb : place? path b = none)
  | tie (same : a.location = b.location) (place : place? path a = place? path b)
      (h : firstWith objects a.pair < firstWith objects b.pair)

/-- The parameters that parameter objects give: one for each pair, made of the last object with this
pair. -/
structure Merged (doc : ApiDocument) (path : String) (objects : List Node) (ps : List Parameter) :
    Prop where
  unique : (ps.map Parameter.pair).Nodup
  last : ∀ p ∈ ps, ∃ before node after, objects = before ++ node :: after ∧
    pair? node = some p.pair ∧ (∀ other ∈ after, pair? other ≠ some p.pair) ∧
    doc.parameter node = .ok p
  complete : ∀ node ∈ objects, ∀ name location, node.get? "name" = some name →
    (node.get? "in").bind Location.ofNode? = some location →
    ∃ p ∈ ps, name = .str p.wireName ∧ p.location = location
  ordered : ps.Pairwise (Before path objects)

/-- The key that objects with a pair are merged by. -/
def keyWith (pair : String × Location) : ParameterKey := (.str pair.1, .str pair.2.name)

theorem sameKey_keyWith {key : ParameterKey} {pair : String × Location} :
    sameKey key (keyWith pair) ↔ key = keyWith pair := by
  rw [sameKey, Bool.and_eq_true_iff, keyWith, Scalar.sameKey_str, Scalar.sameKey_str, Prod.ext_iff]

theorem keyWith_sameKey {key : ParameterKey} {pair : String × Location} :
    sameKey (keyWith pair) key ↔ key = keyWith pair := by
  rw [sameKey, Bool.and_eq_true_iff, keyWith, Scalar.str_sameKey, Scalar.str_sameKey, Prod.ext_iff]

/-- The parts of the key of a parameter object are its name and its location. -/
theorem get?_of_parameterKey? {node : Node} {key : ParameterKey}
    (h : parameterKey? node = .ok (some key)) :
    node.get? "name" = some (.scalar key.1) ∧ node.get? "in" = some (.scalar key.2) := by
  obtain ⟨_, -, h⟩ := bind_eq_ok.mp h
  split at h
  · cases h
  obtain ⟨_, -, h⟩ := bind_eq_ok.mp h
  split at h
  · cases h
  obtain ⟨name, hname, h⟩ := bind_eq_ok.mp h
  obtain ⟨location, hlocation, h⟩ := bind_eq_ok.mp h
  obtain ⟨first, hfirst, h⟩ := bind_eq_ok.mp h
  obtain ⟨second, hsecond, h⟩ := bind_eq_ok.mp h
  obtain rfl := Option.some.inj (pure_eq_ok.mp h)
  have hpart {value : Node} {s : Scalar} (hs : keyPart value = .ok s) : value = .scalar s := by
    unfold keyPart at hs
    split at hs
    · exact congrArg Node.scalar (Except.ok.inj hs)
    · cases hs
  rw [← hpart hfirst, ← hpart hsecond]
  exact ⟨Node.get?_of_required hname, Node.get?_of_required hlocation⟩

/-- An object without key lacks a name or a location. -/
theorem get?_eq_none_of_parameterKey? {node : Node} (h : parameterKey? node = .ok none) :
    node.get? "name" = none ∨ node.get? "in" = none := by
  cases node with
  | scalar s => exact .inl rfl
  | list items => exact .inl rfl
  | map es =>
    obtain ⟨_, hmentions, h⟩ := bind_eq_ok.mp h
    obtain rfl := Except.ok.inj hmentions
    split at h
    · next hname => exact .inl (by simpa using hname : Entries.get? es "name" = none)
    obtain ⟨_, hmentions, h⟩ := bind_eq_ok.mp h
    obtain rfl := Except.ok.inj hmentions
    split at h
    · next hlocation => exact .inr (by simpa using hlocation : Entries.get? es "in" = none)
    obtain ⟨_, -, h⟩ := bind_eq_ok.mp h
    obtain ⟨_, -, h⟩ := bind_eq_ok.mp h
    obtain ⟨_, -, h⟩ := bind_eq_ok.mp h
    obtain ⟨_, -, h⟩ := bind_eq_ok.mp h
    cases h

/-- The pair of an object is in its members. -/
theorem pair?_eq_some {node : Node} {pair : String × Location} :
    pair? node = some pair ↔
      node.get? "name" = some (.str pair.1) ∧ node.get? "in" = some (.str pair.2.name) := by
  unfold pair?
  simp only [Option.bind_eq_some_iff, Option.map_eq_some_iff, Prod.ext_iff, Node.text?_eq_some,
    Location.ofNode?_eq_some]
  constructor
  · rintro ⟨name, hname, location, hlocation, text, htext, l, hl, rfl, rfl⟩
    exact ⟨htext ▸ hname, hl ▸ hlocation⟩
  · rintro ⟨hname, hlocation⟩
    exact ⟨_, hname, _, hlocation, _, rfl, _, rfl, rfl, rfl⟩

/-- Objects with a pair are merged by the pair. -/
theorem pair?_of_parameterKey? {node : Node} {key : ParameterKey} {pair : String × Location}
    (h : parameterKey? node = .ok (some key)) : pair? node = some pair ↔ key = keyWith pair := by
  obtain ⟨hname, hlocation⟩ := get?_of_parameterKey? h
  rw [pair?_eq_some, hname, hlocation, keyWith, Prod.ext_iff]
  simp only [Option.some.injEq, Node.scalar.injEq]

theorem pair?_ne_some {node : Node} (h : node.get? "name" = none ∨ node.get? "in" = none)
    (pair : String × Location) : pair? node ≠ some pair := by
  intro hpair
  obtain ⟨hname, hlocation⟩ := pair?_eq_some.mp hpair
  rw [hname, hlocation] at h
  rcases h with h | h <;> cases h

theorem firstWith_append {objects : List Node} {pair : String × Location} {node : Node}
    (hmem : node ∈ objects) (hpair : pair? node = some pair) (more : List Node) :
    firstWith objects pair < objects.length ∧
      firstWith (objects ++ more) pair = firstWith objects pair := by
  have hlt : firstWith objects pair < objects.length :=
    List.findIdx_lt_length_of_exists ⟨node, hmem, decide_eq_true hpair⟩
  refine ⟨hlt, ?_⟩
  unfold firstWith at hlt ⊢
  rw [List.findIdx_append, if_pos hlt]

theorem length_le_firstWith {objects : List Node} {pair : String × Location}
    (h : ∀ node ∈ objects, pair? node ≠ some pair) (more : List Node) :
    objects.length ≤ firstWith (objects ++ more) pair := by
  unfold firstWith
  rw [List.findIdx_append, if_neg]
  · exact Nat.le_add_left _ _
  · intro hlt
    obtain ⟨node, hnode, hpair⟩ := List.findIdx_lt_length.mp hlt
    exact h node hnode (of_decide_eq_true hpair)

/-- What a list of objects is merged to. -/
structure Gathered (objects : List Node) (merged : List (ParameterKey × Node)) : Prop where
  keyed : Keyed merged
  last : ∀ entry ∈ merged, ∀ pair, entry.1 = keyWith pair →
    ∃ before after, objects = before ++ entry.2 :: after ∧ pair? entry.2 = some pair ∧
      ∀ other ∈ after, pair? other ≠ some pair
  complete : ∀ node ∈ objects, ∀ name location, node.get? "name" = some name →
    node.get? "in" = some location →
    ∃ key, name = .scalar key.1 ∧ location = .scalar key.2 ∧
      ∃ k ∈ merged.map Prod.fst, k = key ∨ sameKey k key
  ordered : (merged.map Prod.fst).Pairwise fun a b => ∀ p q, a = keyWith p → b = keyWith q →
    firstWith objects p < firstWith objects q

namespace Gathered

variable {objects : List Node} {merged : List (ParameterKey × Node)} {node : Node}

theorem empty : Gathered [] [] :=
  ⟨⟨by simp, .nil⟩, by simp, by simp, .nil⟩

/-- More objects do not change the order of the pairs that are there. -/
theorem ordered_append (h : Gathered objects merged) (more : List Node) :
    (merged.map Prod.fst).Pairwise fun a b => ∀ p q, a = keyWith p → b = keyWith q →
      firstWith (objects ++ more) p < firstWith (objects ++ more) q := by
  have hfirst {k : ParameterKey} (hk : k ∈ merged.map Prod.fst) {p : String × Location}
      (hp : k = keyWith p) : firstWith (objects ++ more) p = firstWith objects p := by
    obtain ⟨entry, hentry, rfl⟩ := List.mem_map.mp hk
    obtain ⟨before, after, heq, hpair, -⟩ := h.last entry hentry p hp
    exact (firstWith_append (heq ▸ List.mem_append_right _ List.mem_cons_self) hpair more).2
  refine h.ordered.imp_of_mem fun {a b} ha hb hab p q hp hq => ?_
  rw [hfirst ha hp, hfirst hb hq]
  exact hab p q hp hq

theorem skip (h : Gathered objects merged)
    (hnode : node.get? "name" = none ∨ node.get? "in" = none) :
    Gathered (objects ++ [node]) merged where
  keyed := h.keyed
  last := fun entry hentry pair hpair => by
    obtain ⟨before, after, heq, hown, hafter⟩ := h.last entry hentry pair hpair
    refine ⟨before, after ++ [node], by rw [heq, List.append_assoc, List.cons_append], hown, ?_⟩
    intro other hother
    rcases List.mem_append.mp hother with hother | hother
    · exact hafter other hother
    · obtain rfl := List.mem_singleton.mp hother
      exact pair?_ne_some hnode pair
  complete := fun other hother name location hname hlocation => by
    rcases List.mem_append.mp hother with hother | hother
    · exact h.complete other hother name location hname hlocation
    · obtain rfl := List.mem_singleton.mp hother
      rw [hname, hlocation] at hnode
      rcases hnode with hnode | hnode <;> cases hnode
  ordered := h.ordered_append [node]

/-- What there is after a pair is added: the new object, and those of other pairs. -/
theorem mem_mergeInto (hdistinct : (merged.map Prod.fst).Pairwise fun a b => ¬ sameKey a b)
    {key : ParameterKey} {entry : ParameterKey × Node} {pair : String × Location}
    (hentry : entry ∈ mergeInto key node merged) (hpair : entry.1 = keyWith pair) :
    entry.2 = node ∧ key = keyWith pair ∨ entry ∈ merged ∧ key ≠ keyWith pair := by
  induction merged with
  | nil =>
    obtain rfl := List.mem_singleton.mp hentry
    exact .inl ⟨rfl, hpair⟩
  | cons first rest ih =>
    obtain ⟨k, n⟩ := first
    obtain ⟨hfirst, hrest⟩ := List.pairwise_cons.mp hdistinct
    unfold mergeInto at hentry
    split at hentry
    · next hsame =>
      rcases List.mem_cons.mp hentry with rfl | hentry
      · exact .inl ⟨rfl, keyWith_sameKey.mp (hpair ▸ hsame)⟩
      · refine .inr ⟨List.mem_cons_of_mem _ hentry, fun hkey => ?_⟩
        have hother := hfirst entry.1 (List.mem_map_of_mem hentry)
        rw [hpair, ← hkey] at hother
        exact hother hsame
    · next hsame =>
      rcases List.mem_cons.mp hentry with rfl | hentry
      · refine .inr ⟨List.mem_cons_self, fun hkey => hsame ?_⟩
        rw [hkey]
        exact sameKey_keyWith.mpr hpair
      · exact (ih hrest hentry).imp_right fun hold => ⟨List.mem_cons_of_mem _ hold.1, hold.2⟩

theorem add (h : Gathered objects merged) {key : ParameterKey}
    (hkey : parameterKey? node = .ok (some key)) :
    Gathered (objects ++ [node]) (mergeInto key node merged) where
  keyed := h.keyed.mergeInto hkey
  last := fun entry hentry pair hpair => by
    rcases mem_mergeInto h.keyed.distinct hentry hpair with ⟨rfl, hnew⟩ | ⟨hold, hnew⟩
    · exact ⟨objects, [], rfl, (pair?_of_parameterKey? hkey).mpr hnew, by simp⟩
    · obtain ⟨before, after, heq, hown, hafter⟩ := h.last entry hold pair hpair
      refine ⟨before, after ++ [node], by rw [heq, List.append_assoc, List.cons_append], hown, ?_⟩
      intro other hother
      rcases List.mem_append.mp hother with hother | hother
      · exact hafter other hother
      · obtain rfl := List.mem_singleton.mp hother
        exact mt (pair?_of_parameterKey? hkey).mp hnew
  complete := fun other hother name location hname hlocation => by
    rw [keys_mergeInto]
    rcases List.mem_append.mp hother with hother | hother
    · obtain ⟨k, hk, hl, found, hfound, hrel⟩ :=
        h.complete other hother name location hname hlocation
      refine ⟨k, hk, hl, found, ?_, hrel⟩
      split
      · exact hfound
      · exact List.mem_append_left _ hfound
    · obtain rfl := List.mem_singleton.mp hother
      obtain ⟨hfirst, hsecond⟩ := get?_of_parameterKey? hkey
      refine ⟨key, Option.some.inj (hname.symm.trans hfirst),
        Option.some.inj (hlocation.symm.trans hsecond), ?_⟩
      split
      · next hany =>
        obtain ⟨entry, hentry, hsame⟩ := List.any_eq_true.mp hany
        exact ⟨entry.1, List.mem_map_of_mem hentry, .inr hsame⟩
      · exact ⟨key, List.mem_append_right _ (List.mem_singleton_self key), .inl rfl⟩
  ordered := by
    rw [keys_mergeInto]
    split
    · exact h.ordered_append [node]
    next hnone =>
    refine List.pairwise_append.mpr ⟨h.ordered_append [node], List.pairwise_singleton _ _, ?_⟩
    intro k hk other hother p q hp hq
    obtain rfl := List.mem_singleton.mp hother
    -- No object before has the new pair, and the others are found before it.
    have hnew : ∀ old ∈ objects, pair? old ≠ some q := by
      intro old hold hpair
      obtain ⟨hname, hlocation⟩ := pair?_eq_some.mp hpair
      obtain ⟨found, hn, hl, k, hk, hrel⟩ := h.complete old hold _ _ hname hlocation
      have hfound : found = keyWith q :=
        Prod.ext (Node.scalar.inj hn).symm (Node.scalar.inj hl).symm
      rw [hfound, sameKey_keyWith, or_self] at hrel
      obtain ⟨entry, hentry, rfl⟩ := List.mem_map.mp hk
      refine hnone (List.any_eq_true.mpr ⟨entry, hentry, ?_⟩)
      rw [hq, sameKey_keyWith]
      exact hrel
    obtain ⟨entry, hentry, rfl⟩ := List.mem_map.mp hk
    obtain ⟨before, after, heq, hpair, -⟩ := h.last entry hentry p hp
    have hold := firstWith_append (heq ▸ List.mem_append_right _ List.mem_cons_self) hpair [node]
    rw [hold.2]
    exact hold.1.trans_le (length_le_firstWith hnew [node])

theorem mergeParameters (h : Gathered objects merged) {items : List Node}
    {result : List (ParameterKey × Node)} (hitems : doc.mergeParameters merged items = .ok result) :
    ∃ more, List.Forall₂ doc.StandsFor items more ∧ Gathered (objects ++ more) result := by
  induction items generalizing objects merged with
  | nil =>
    obtain rfl := pure_eq_ok.mp hitems
    exact ⟨[], .nil, (List.append_nil objects).symm ▸ h⟩
  | cons raw rest ih =>
    obtain ⟨node, key, hnode, hkey, hrest⟩ := mergeParameters_cons hitems
    have hnext : Gathered (objects ++ [node])
        (key.elim merged fun key => mergeInto key node merged) := by
      cases key with
      | none => exact h.skip (get?_eq_none_of_parameterKey? hkey)
      | some key => exact h.add hkey
    obtain ⟨more, hmore, hresult⟩ := ih hnext hrest
    exact ⟨node :: more, .cons hnode hmore, by simpa using hresult⟩

end Gathered

theorem precedes_iff {path : String} {a b : Parameter} :
    precedes path a b ↔ a.location.rank < b.location.rank ∨
      a.location.rank = b.location.rank ∧ templatePosition path a ≤ templatePosition path b := by
  unfold precedes
  simp only [Bool.or_eq_true, Bool.and_eq_true, decide_eq_true_eq, beq_iff_eq]

theorem templatePosition_eq (path : String) (p : Parameter) :
    templatePosition path p = (place? path p).getD path.length := rfl

/-- A place in a template is not its end, where the parameters in no place are put. -/
theorem lt_length_of_place? {path : String} {p : Parameter} {i : Nat}
    (h : place? path p = some i) : i < path.length := by
  unfold place? at h
  split_ifs at h
  have hprefix := Text.prefix_of_position? h
  have hlength := hprefix.length_le
  rw [List.length_cons, List.length_drop, String.length_toList] at hlength
  omega

theorem before_of_precedes {path : String} {objects : List Node} {a b : Parameter}
    (h : precedes path a b)
    (hties : precedes path b a → firstWith objects a.pair < firstWith objects b.pair) :
    Before path objects a b := by
  rw [precedes_iff, templatePosition_eq, templatePosition_eq] at h hties
  rcases h with hrank | ⟨hrank, hplace⟩
  · exact .location hrank
  have hlocation := Location.rank_inj hrank
  cases ha : place? path a with
  | none =>
    cases hb : place? path b with
    | none =>
      refine .tie hlocation (ha.trans hb.symm) (hties (.inr ⟨hrank.symm, ?_⟩))
      rw [ha, hb]
    | some j =>
      rw [ha, hb] at hplace
      exact absurd (lt_length_of_place? hb) (Nat.not_lt.mpr hplace)
  | some i =>
    cases hb : place? path b with
    | none => exact .noPlace hlocation ha hb
    | some j =>
      rw [ha, hb] at hplace
      rcases Nat.lt_or_eq_of_le hplace with hlt | heq
      · exact .place hlocation ha hb hlt
      · refine .tie hlocation (by rw [ha, hb]; exact congrArg some heq)
          (hties (.inr ⟨hrank.symm, ?_⟩))
        rw [ha, hb]
        exact heq.ge

theorem rank_le_of_before {path : String} {objects : List Node} {a b : Parameter}
    (h : Before path objects a b) : a.location.rank ≤ b.location.rank := by
  cases h with
  | location h => exact h.le
  | place same => exact (congrArg Location.rank same).le
  | noPlace same => exact (congrArg Location.rank same).le
  | tie same => exact (congrArg Location.rank same).le

/-- Sorted by their order in a signature, parameters with one place keep their order. -/
theorem pairwise_before {path : String} {objects : List Node} {ps : List Parameter}
    (h : ps.Pairwise fun a b => firstWith objects a.pair < firstWith objects b.pair) :
    (ps.mergeSort (precedes path)).Pairwise (Before path objects) := by
  have htrans (a b c : Parameter) (hab : precedes path a b) (hbc : precedes path b c) :
      precedes path a c := by
    rw [precedes_iff] at *
    omega
  have htotal (a b : Parameter) : precedes path a b || precedes path b a := by
    rw [Bool.or_eq_true, precedes_iff, precedes_iff]
    omega
  exact (pairwise_mergeSort_ties htrans htotal h).imp fun hab => before_of_precedes hab.1 hab.2

theorem merged_of_parameters {path : String} {shared own : Node} {ps : List Parameter}
    (h : doc.parameters path shared own = .ok ps) :
    ∃ s o objects, shared.walk = .ok s ∧ own.walk = .ok o ∧
      List.Forall₂ doc.StandsFor (s ++ o) objects ∧ Merged doc path objects ps := by
  have hunique := (nodup_keys_parameters h).1
  obtain ⟨s, hs, h⟩ := bind_eq_ok.mp h
  obtain ⟨o, ho, h⟩ := bind_eq_ok.mp h
  obtain ⟨merged, hmerged, h⟩ := bind_eq_ok.mp h
  obtain ⟨resolved, hresolved, h⟩ := bind_eq_ok.mp h
  obtain rfl := pure_eq_ok.mp h
  obtain ⟨objects, hobjects, hgathered⟩ := Gathered.empty.mergeParameters hmerged
  rw [List.nil_append] at hgathered
  have hmade := mapM_eq_ok.mp hresolved
  generalize hknown : List.filter _ merged = known at hmade
  have hsub : known.Sublist merged := hknown ▸ List.filter_sublist
  have hkeys := fun entry hentry => hgathered.keyed.keys entry (hsub.subset hentry)
  have hpairs : known.map Prod.fst = resolved.map (keyWith ∘ Parameter.pair) :=
    map_keyOf hkeys hmade
  refine ⟨s, o, objects, hs, ho, hobjects, ⟨hunique, ?_, ?_, pairwise_before ?_⟩⟩
  · intro p hp
    obtain ⟨entry, hentry, hparameter⟩ :=
      (exists_mem_of_forall₂ hmade).2 p (List.mem_mergeSort.mp hp)
    obtain ⟨before, after, heq, hpair, hafter⟩ :=
      hgathered.last entry (hsub.subset hentry) p.pair (eq_keyOf (hkeys entry hentry) hparameter)
    exact ⟨before, entry.2, after, heq, hpair, hafter, hparameter⟩
  · intro node hnode name location hname hlocation
    obtain ⟨value, hvalue, hl⟩ := Option.bind_eq_some_iff.mp hlocation
    rw [Location.ofNode?_eq_some.mp hl] at hvalue
    obtain ⟨key, rfl, hsecond, k, hk, hrel⟩ := hgathered.complete node hnode name _ hname hvalue
    obtain ⟨entry, hentry, rfl⟩ := List.mem_map.mp hk
    have hsecond : key.2 = .str location.name := (Node.scalar.inj hsecond).symm
    have hplace : entry.1.2 = .str location.name := by
      rcases hrel with heq | hsame
      · rw [heq, hsecond]
      · have hsame := (Bool.and_eq_true_iff.mp hsame).2
        rw [hsecond] at hsame
        exact Scalar.sameKey_str.mp hsame
    have hmem : entry ∈ known := by
      rw [← hknown]
      have hlocated : Location.ofNode? (.scalar entry.1.2) = some location := by
        rw [hplace]
        exact Location.ofNode?_eq_some.mpr rfl
      exact List.mem_filter.mpr ⟨hentry, Option.isSome_of_eq_some hlocated⟩
    obtain ⟨p, hp, hparameter⟩ := (exists_mem_of_forall₂ hmade).1 entry hmem
    have hkey : entry.1 = keyWith p.pair := eq_keyOf (hkeys entry hmem) hparameter
    have hkey : key = keyWith p.pair := by
      rcases hrel with heq | hsame
      · exact heq.symm.trans hkey
      · exact keyWith_sameKey.mp (hkey ▸ hsame)
    rw [hkey] at hsecond ⊢
    exact ⟨p, List.mem_mergeSort.mpr hp, rfl, Location.name_inj (Scalar.str.inj hsecond)⟩
  · have hordered := hgathered.ordered.sublist (hsub.map Prod.fst)
    rw [hpairs] at hordered
    exact (List.pairwise_map.mp hordered).imp fun hab => hab _ _ rfl rfl

/-- The parameters of an operation are made of the objects of its path and of its own: one for each
pair of a name and a known location, of the last object with this pair, in the order of a signature.
A body comes after those whose location is not after its own, and the others stay as they are. -/
theorem parameters_ordered {path : String} :
    (∀ shared own ps, doc.parameters path shared own = .ok ps →
      ∃ s o objects, shared.walk = .ok s ∧ own.walk = .ok o ∧
        List.Forall₂ doc.StandsFor (s ++ o) objects ∧ Merged doc path objects ps) ∧
    ∀ method node shared op, doc.operation path method node shared = .ok op →
      ∃ own declared body before after, node.member "parameters" = .ok own ∧
        doc.parameters path shared (orEmptyList own) = .ok declared ∧
        doc.bodyParameter? node = .ok body ∧ declared = before ++ after ∧
        op.parameters = before ++ body.toList ++ after ∧
        ∀ b ∈ body, (∀ p ∈ before, p.location.rank ≤ b.location.rank) ∧
          ∀ p ∈ after, b.location.rank < p.location.rank := by
  refine ⟨fun shared own ps h => merged_of_parameters h, fun method node shared op h => ?_⟩
  obtain ⟨declared, body, hcomposed⟩ := operation_eq_ok.mp h
  obtain ⟨own, hown, hdeclared⟩ := hcomposed.parameters
  have hbody := hcomposed.requestBody
  cases body with
  | none =>
    exact ⟨own, declared, none, declared, [], hown, hdeclared, hbody, (List.append_nil _).symm,
      by simpa [withBody] using hcomposed.signature, by simp⟩
  | some b =>
    obtain ⟨_, _, _, -, -, -, hmerged⟩ := merged_of_parameters hdeclared
    obtain ⟨before, after, hsplit, hsorted, hbefore, hafter⟩ :=
      mergeSort_append_singleton b (hmerged.ordered.imp rank_le_of_before)
    refine ⟨own, declared, some b, before, after, hown, hdeclared, hbody, hsplit, ?_, ?_⟩
    · rw [hcomposed.signature, withBody, hsorted]
      simp
    · rintro _ ⟨⟩
      exact ⟨hbefore, hafter⟩

namespace PetRoute

def document : ApiDocument where
  dialect := .openApi3
  root := .map []
  schemas := []

def path : String := "/owners/\x7bowner\x7d/pets/\x7bpet\x7d"

def entries (wireName location text : String) : Entries :=
  [(.str "name", .str wireName), (.str "in", .str location), (.str "description", .str text)]

def shared : List Node :=
  [.map (entries "pet" "path" "A pet"), .map (entries "full" "query" "Old text"),
    .map [(.str "name", .str "pet")], .map (entries "pet" "nowhere" "Lost")]

def own : List Node :=
  [.map (entries "owner" "path" "An owner"), .map (entries "token" "header" "A token"),
    .map (entries "full" "query" "New text")]

def get : Node := .map [(.str "parameters", .list own), (.str "requestBody", .map [])]

def argument (wireName : String) (location : Location) (description : Option String) :
    Parameter where
  model :=
    { name := Naming.parameterName wireName, shape := .generic, description,
      isRequired := location == .path }
  location
  wireName

def declared : List Parameter :=
  [argument "owner" .path "An owner", argument "pet" .path "A pet",
    argument "full" .query "New text", argument "token" .header "A token"]

def operation : Operation where
  service := "OwnersService"
  name := "getOwnersOwnerPetsPet"
  method := .get
  path
  parameters := declared ++ [argument "requestBody" .body none]
  results := [Response.void none none]

theorem mergeParameters_map {es : Entries} (href : es.get? "$ref" = none)
    (merged : List (ParameterKey × Node)) (rest : List Node) :
    document.mergeParameters merged (.map es :: rest) =
      parameterKey? (.map es) >>= fun key =>
        match key with
        | none => document.mergeParameters merged rest
        | some key => document.mergeParameters (mergeInto key (.map es) merged) rest := by
  have hreference : Pointer.reference? (.map es) = none := by
    simp [Pointer.reference?, Node.get?, Node.entries, href]
  have hschema : document.isSchemaParameter (.map es) = false := by
    rw [isSchemaParameter, hreference]
    rfl
  rw [mergeParameters, hschema, if_neg Bool.false_ne_true, dereference_eq_self href]
  rfl

theorem mergeParameters_entries (merged : List (ParameterKey × Node))
    (wireName location text : String) (rest : List Node) :
    document.mergeParameters merged (.map (entries wireName location text) :: rest) =
      document.mergeParameters (mergeInto (.str wireName, .str location)
        (.map (entries wireName location text)) merged) rest := by
  rw [mergeParameters_map rfl]
  rfl

theorem parameters_get : document.parameters path (.list shared) (.list own) = .ok declared := by
  have hmerged : document.mergeParameters [] (shared ++ own) =
      .ok [((.str "pet", .str "path"), .map (entries "pet" "path" "A pet")),
        ((.str "full", .str "query"), .map (entries "full" "query" "New text")),
        ((.str "pet", .str "nowhere"), .map (entries "pet" "nowhere" "Lost")),
        ((.str "owner", .str "path"), .map (entries "owner" "path" "An owner")),
        ((.str "token", .str "header"), .map (entries "token" "header" "A token"))] := by
    simp only [shared, own, List.cons_append, List.nil_append]
    rw [mergeParameters_entries, mergeParameters_entries, mergeParameters_map rfl]
    change document.mergeParameters _ (.map (entries "pet" "nowhere" "Lost") :: _) = _
    iterate 4 rw [mergeParameters_entries]
    rfl
  let resolved : List Parameter :=
    [argument "pet" .path "A pet", argument "full" .query "New text",
      argument "owner" .path "An owner", argument "token" .header "A token"]
  have hsorted : resolved.mergeSort (precedes path) = declared := by
    have hfull : precedes path (argument "pet" .path "A pet")
        (argument "full" .query "New text") := by decide +kernel
    have howner : precedes path (argument "pet" .path "A pet")
        (argument "owner" .path "An owner") = false := by decide +kernel
    have htoken : ∀ p ∈ declared.take 3,
        precedes path p (argument "token" .header "A token") := by decide +kernel
    obtain ⟨hfirst, hsecond, hthird⟩ := by simpa [declared] using htoken
    simp [resolved, declared, List.mergeSort, hfull, howner, hfirst, hsecond, hthird]
  exact bind_eq_ok.mpr ⟨shared, rfl, bind_eq_ok.mpr ⟨own, rfl, bind_eq_ok.mpr ⟨_, hmerged,
    bind_eq_ok.mpr ⟨resolved, mapM_eq_ok.mpr (.cons rfl (.cons rfl (.cons rfl (.cons rfl .nil)))),
      pure_eq_ok.mpr hsorted⟩⟩⟩⟩

theorem operation_get : document.operation path .get get (.list shared) = .ok operation := by
  have hservice : serviceName get path = .ok "OwnersService" := by
    have hclass : Naming.serviceClassName
        (((firstSegment? path).map String.ofList).getD defaultService) = "OwnersService" := by
      decide +kernel
    exact bind_eq_ok.mpr ⟨.null, rfl, pure_eq_ok.mpr hclass⟩
  have hname : operationName get .get path = .ok "getOwnersOwnerPetsPet" := by
    have hmember : Naming.operationName ("get" ++ "-" ++ path) = "getOwnersOwnerPetsPet" := by
      decide +kernel
    exact bind_eq_ok.mpr ⟨.null, rfl, pure_eq_ok.mpr hmember⟩
  have hbody : document.bodyParameter? get = .ok (some (argument "requestBody" .body none)) :=
    bind_eq_ok.mpr ⟨.map [], rfl, bind_eq_ok.mpr ⟨_, dereference_eq_self rfl, rfl⟩⟩
  have hsorted : withBody declared (argument "requestBody" .body none) = operation.parameters := by
    have hpairwise : operation.parameters.Pairwise fun a b =>
        decide (a.location.rank ≤ b.location.rank) := by decide +kernel
    exact List.mergeSort_of_pairwise hpairwise
  refine bind_eq_ok.mpr ⟨_, rfl, bind_eq_ok.mpr ⟨_, parameters_get, bind_eq_ok.mpr ⟨_, hbody,
    bind_eq_ok.mpr ⟨.null, rfl, bind_eq_ok.mpr ⟨_, results_nil, bind_eq_ok.mpr ⟨_, hservice,
      bind_eq_ok.mpr ⟨_, hname, ?_⟩⟩⟩⟩⟩⟩⟩
  rw [hsorted]
  rfl

/-- The parameter of the path that comes first in the template comes first, and the text of the
operation replaces that of the path. -/
theorem ordered_get :
    document.parameters path (.list shared) (.list own) = .ok declared ∧
    document.operation path .get get (.list shared) = .ok operation ∧
    (∃ s o objects, (Node.list shared).walk = .ok s ∧ (Node.list own).walk = .ok o ∧
      List.Forall₂ document.StandsFor (s ++ o) objects ∧
      Merged document path objects declared) ∧
    ∃ own declared body before after, get.member "parameters" = .ok own ∧
      document.parameters path (.list shared) (orEmptyList own) = .ok declared ∧
      document.bodyParameter? get = .ok body ∧ declared = before ++ after ∧
      operation.parameters = before ++ body.toList ++ after ∧
      ∀ b ∈ body, (∀ p ∈ before, p.location.rank ≤ b.location.rank) ∧
        ∀ p ∈ after, b.location.rank < p.location.rank :=
  ⟨parameters_get, operation_get, parameters_ordered.1 _ _ _ parameters_get,
    parameters_ordered.2 _ _ _ _ operation_get⟩

end PetRoute

end ApiDocument

end ClientGen
