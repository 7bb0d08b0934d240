import ClientGen.Proofs.Document.Texts
import ClientGen.Proofs.Naming.Comments
import ClientGen.Proofs.Naming.Fresh
import ClientGen.Proofs.Outcome
import ClientGen.Schema.Builder

/-! The members of an enumeration: where a schema has them from, when their names differ, and when
their descriptions stay in comments. -/

namespace ClientGen

namespace EnumEntry

/-- The member for a scalar with a text. -/
def memberOf? : Scalar → Option EnumEntry
  | .bool b =>
    some { name := if b then "TRUE" else "FALSE", value := if b then "true" else "false",
           type := "boolean" }
  | .int i => some { name := numberName (toString i), value := toString i, type := "number" }
  | .float x => some { name := numberName x.text, value := x.text, type := "number" }
  | .str s => some { name := if s = "" then "EMPTY" else memberName s, value := s }
  | _ => none

theorem ofScalar?_eq {s : Scalar} :
    ofScalar? s = if s.hasText then .ok (memberOf? s) else .error (.malformed .tooLong) := by
  cases s with
  | int i => by_cases h : Numeral.hasText i <;> simp [ofScalar?, memberOf?, Scalar.hasText, h,
      Node.shown_int, Node.shown_int_of_long, Except.map]
  | _ => rfl

theorem ofScalar?_eq_ok {s : Scalar} {own : Option EnumEntry} :
    ofScalar? s = .ok own ↔ s.hasText ∧ memberOf? s = own := by
  rw [ofScalar?_eq]
  split_ifs with h <;> simp [h]

theorem ofScalar?_eq_error {s : Scalar} {fault : Fault} :
    ofScalar? s = .error fault ↔ ¬ s.hasText ∧ fault = .malformed .tooLong := by
  rw [ofScalar?_eq]
  split_ifs with h <;> simp [h, eq_comm]

/-- A run through values that makes members of them: a value that was there before makes none, nor
does one that is no scalar or a scalar without a member. -/
inductive Collects : List Scalar → List String → List Node → List EnumEntry → Prop
  | nil {seen : List Scalar} {taken : List String} : Collects seen taken [] []
  | again {seen : List Scalar} {taken : List String} {s : Scalar} {rest : List Node}
      {entries : List EnumEntry} (hsame : seen.any (sameValue s))
      (hrest : Collects seen taken rest entries) : Collects seen taken (.scalar s :: rest) entries
  | none {seen : List Scalar} {taken : List String} {s : Scalar} {rest : List Node}
      {entries : List EnumEntry} (hown : ofScalar? s = .ok none)
      (hrest : Collects seen taken rest entries) : Collects seen taken (.scalar s :: rest) entries
  | new {seen : List Scalar} {taken : List String} {s : Scalar} {rest : List Node}
      {own : EnumEntry} {entries : List EnumEntry} (hnew : ¬ seen.any (sameValue s))
      (hown : ofScalar? s = .ok (some own))
      (hrest : Collects (s :: seen) (Naming.fresh taken own.name "_" :: taken) rest entries) :
      Collects seen taken (.scalar s :: rest)
        ({ own with name := Naming.fresh taken own.name "_" } :: entries)
  | other {seen : List Scalar} {taken : List String} {value : Node} {rest : List Node}
      {entries : List EnumEntry} (hvalue : ∀ s, value ≠ .scalar s)
      (hrest : Collects seen taken rest entries) : Collects seen taken (value :: rest) entries

theorem collects_of_collect {seen : List Scalar} {taken : List String} {values : List Node}
    {entries : List EnumEntry} (h : collect seen taken values = .ok entries) :
    Collects seen taken values entries := by
  induction values generalizing seen taken entries with
  | nil =>
    obtain rfl := Except.ok.inj h
    exact .nil
  | cons value rest ih =>
    cases value with
    | scalar s =>
      rw [collect] at h
      split at h
      · next hsame => exact .again hsame (ih h)
      · next hnew =>
        split at h
        · cases h
        · next hown => exact .none hown (ih h)
        · next hown =>
          obtain ⟨others, hothers, rfl⟩ := map_eq_ok.mp h
          exact .new hnew hown (ih hothers)
    | list items => exact .other (fun _ => Node.noConfusion) (ih h)
    | map es => exact .other (fun _ => Node.noConfusion) (ih h)

namespace Collects

variable {seen : List Scalar} {taken : List String} {values : List Node} {entries : List EnumEntry}

/-- Collected members have names of their own, none of which was taken. -/
theorem names (h : Collects seen taken values entries) :
    (entries.map (·.name)).Nodup ∧ ∀ entry ∈ entries, entry.name ∉ taken := by
  induction h with
  | nil => simp
  | again _ _ ih => exact ih
  | none _ _ ih => exact ih
  | @new _ taken _ _ own _ _ _ _ ih =>
    obtain ⟨hnodup, hfree⟩ := ih
    constructor
    · refine List.nodup_cons.mpr ⟨fun h => ?_, hnodup⟩
      obtain ⟨later, hlater, heq⟩ := List.mem_map.mp h
      exact hfree later hlater (heq ▸ List.mem_cons_self)
    · refine List.forall_mem_cons.mpr ⟨Naming.fresh_not_mem taken own.name "_", ?_⟩
      exact fun later hlater h => hfree later hlater (List.mem_cons_of_mem _ h)
  | other _ _ ih => exact ih

/-- What holds of the members for scalars under any name holds of collected members. -/
theorem forall_mem (h : Collects seen taken values entries) {P : EnumEntry → Prop}
    (hscalar : ∀ s own name, memberOf? s = some own → P { own with name := name }) :
    ∀ entry ∈ entries, P entry := by
  induction h with
  | nil => simp
  | again _ _ ih => exact ih
  | none _ _ ih => exact ih
  | new _ hown _ ih =>
    exact List.forall_mem_cons.mpr ⟨hscalar _ _ _ (ofScalar?_eq_ok.mp hown).2, ih⟩
  | other _ _ ih => exact ih

/-- Members of values have no descriptions. -/
theorem description (h : Collects seen taken values entries) :
    ∀ entry ∈ entries, entry.description = .none := by
  refine h.forall_mem fun s own name hown => ?_
  unfold memberOf? at hown
  split at hown
  case h_5 => cases hown
  all_goals exact Option.some.inj hown ▸ rfl

end Collects

theorem nodup_ofValues {values : List Node} {entries : List EnumEntry}
    (h : ofValues values = .ok entries) : (entries.map (·.name)).Nodup :=
  (collects_of_collect h).names.1

/-- The names that an extension gives to members; an absent item leaves a member its own. -/
def givenNames (entries : List EnumEntry) (items : List Node) : List String :=
  (entries.zip items).map fun (entry, item) =>
    if item.isPresent then item.display else entry.name

theorem length_of_extension? {count : Nat} {node : Node} {items : List Node}
    (h : extension? count node = some items) : items.length = count := by
  unfold extension? at h
  split at h
  · split_ifs at h with hlength
    exact Option.some.inj h ▸ hlength
  · cases h

/-- One text for each member, if there is one at all. -/
private def texts (entries : List EnumEntry) : Option (List Node) → List (Option String)
  | none => entries.map fun _ => none
  | some items => items.map fun item => if item.isPresent then some item.display else none

private theorem length_texts (entries : List EnumEntry) (node : Node) :
    (texts entries (extension? entries.length node)).length = entries.length := by
  cases h : extension? entries.length node with
  | none => exact List.length_map _
  | some items => exact (List.length_map _).trans (length_of_extension? h)

theorem itemText?_eq_ok {item : Node} {text : Option String} (h : itemText? item = .ok text) :
    text = if item.isPresent then some item.display else none := by
  unfold itemText? at h
  split_ifs at h ⊢ with hpresent
  · obtain ⟨shown, hshown, rfl⟩ := map_eq_ok.mp h
    rw [(Node.shown_eq_ok.mp hshown).2]
  · exact (Except.ok.inj h).symm

private theorem extensionTexts_eq_ok {entries : List EnumEntry} {extension : Node}
    {given : List (Option String)} (h : extensionTexts entries extension = .ok given) :
    given = texts entries (extension? entries.length extension) := by
  unfold extensionTexts at h
  cases hitems : extension? entries.length extension with
  | none =>
    rw [hitems] at h
    exact (Except.ok.inj h).symm
  | some items =>
    rw [hitems] at h
    have hall := (mapM_eq_ok.mp h).imp fun _ _ => itemText?_eq_ok
    rw [texts, ← List.forall₂_eq_eq_eq, List.forall₂_map_right_iff]
    exact hall.flip

section Extended

variable {entries extended : List EnumEntry} {names descriptions : Node}

/-- The extensions give members the texts that they hold. -/
private theorem extend_eq_ok (h : extend entries names descriptions = .ok extended) :
    extended = rename entries (texts entries (extension? entries.length names))
      (texts entries (extension? entries.length descriptions)) := by
  obtain ⟨ns, hns, h⟩ := bind_eq_ok.mp h
  obtain ⟨ds, hds, h⟩ := bind_eq_ok.mp h
  rw [← extensionTexts_eq_ok hns, ← extensionTexts_eq_ok hds, pure_eq_ok.mp h]

/-- Members are named by the extension for names if it lists as many as there are; descriptions have
no say in it. -/
theorem names_extend (h : extend entries names descriptions = .ok extended) :
    extended.map (·.name) =
      match extension? entries.length names with
      | some items => givenNames entries items
      | none => entries.map (·.name) := by
  have hlength := (length_texts entries names).trans (length_texts entries descriptions).symm
  have hfst := List.map_fst_zip (Nat.le_of_eq hlength)
  calc extended.map (·.name)
    _ = (entries.zip ((texts entries (extension? entries.length names)).zip
          (texts entries (extension? entries.length descriptions)))).map
          fun x => x.2.1.getD x.1.name := by
      rw [extend_eq_ok h, rename, List.map_map]
      rfl
    _ = (entries.zip (texts entries (extension? entries.length names))).map
          fun x => x.2.getD x.1.name := by
      conv_rhs => rw [← hfst, List.zip_map_right, List.map_map]
      rfl
    _ = _ := by
      cases extension? entries.length names with
      | none =>
        rw [texts, List.zip_map_right, List.map_map, List.zip_eq_zipWith]
        simp [List.zipWith_self]
      | some items =>
        rw [texts, List.zip_map_right, List.map_map]
        refine List.map_congr_left fun x _ => ?_
        by_cases hpresent : x.2.isPresent <;> simp [hpresent]

/-- Neither the values of members nor their types are up to the extensions. -/
theorem values_extend (h : extend entries names descriptions = .ok extended) :
    extended.map (fun e => (e.value, e.type)) = entries.map fun e => (e.value, e.type) := by
  have hnames := length_texts entries names
  have hdescriptions := length_texts entries descriptions
  have hpairs : entries.length ≤ ((texts entries (extension? entries.length names)).zip
      (texts entries (extension? entries.length descriptions))).length := by
    rw [List.length_zip, hnames, hdescriptions, Nat.min_self]
  calc extended.map (fun e => (e.value, e.type))
    _ = ((entries.zip ((texts entries (extension? entries.length names)).zip
          (texts entries (extension? entries.length descriptions)))).map Prod.fst).map
          fun e => (e.value, e.type) := by
      rw [extend_eq_ok h, rename, List.map_map, List.map_map]
      rfl
    _ = entries.map fun e => (e.value, e.type) := by rw [List.map_fst_zip hpairs]

/-- An extension for no members gives no texts. -/
theorem extend_nil (names descriptions : Node) : extend [] names descriptions = .ok [] := by
  have htexts (extension : Node) : extensionTexts [] extension = .ok [] := by
    cases extension with
    | scalar s => rfl
    | map es => rfl
    | list items => cases items <;> rfl
  unfold extend
  rw [htexts, htexts]
  rfl

theorem extend_eq_nil (h : extend entries names descriptions = .ok extended) :
    extended = [] ↔ entries = [] := by
  have hvalues := values_extend h
  constructor
  · rintro rfl
    exact List.map_eq_nil_iff.mp hvalues.symm
  · rintro rfl
    exact List.map_eq_nil_iff.mp hvalues

/-- Members without descriptions of their own have those of the extension for them. -/
private theorem descriptions_extend (hnone : ∀ entry ∈ entries, entry.description = none)
    (h : extend entries names descriptions = .ok extended) :
    extended.map (·.description) = texts entries (extension? entries.length descriptions) := by
  have hnames := length_texts entries names
  have hdescriptions := length_texts entries descriptions
  have hpairs : ((texts entries (extension? entries.length names)).zip
      (texts entries (extension? entries.length descriptions))).length = entries.length := by
    rw [List.length_zip, hnames, hdescriptions, Nat.min_self]
  calc extended.map (·.description)
    _ = (entries.zip ((texts entries (extension? entries.length names)).zip
          (texts entries (extension? entries.length descriptions)))).map
          fun x => x.2.2 <|> x.1.description := by
      rw [extend_eq_ok h, rename, List.map_map]
      rfl
    _ = (entries.zip ((texts entries (extension? entries.length names)).zip
          (texts entries (extension? entries.length descriptions)))).map (·.2.2) := by
      refine List.map_congr_left fun x hx => ?_
      rw [hnone x.1 (List.of_mem_zip hx).1]
      cases x.2.2 <;> rfl
    _ = ((texts entries (extension? entries.length names)).zip
          (texts entries (extension? entries.length descriptions))).map Prod.snd := by
      conv_rhs => rw [← List.map_snd_zip (Nat.le_of_eq hpairs), List.map_map]
      rfl
    _ = _ := List.map_snd_zip (Nat.le_of_eq (hdescriptions.trans hnames.symm))

/-- The members of listed values have descriptions that stay in comments if the items of the
extension for them do. -/
theorem harmless_extend {values : List Node} (hvalues : ofValues values = .ok entries)
    (h : extend entries names descriptions = .ok extended) :
    (∀ entry ∈ extended, Harmless entry.description) ↔
    ∀ items, extension? entries.length descriptions = some items →
      ∀ item ∈ items, item.isPresent → StaysInComment item.display := by
  rw [← List.forall_mem_map (f := EnumEntry.description) (P := Harmless),
    descriptions_extend (collects_of_collect hvalues).description h]
  cases extension? entries.length descriptions with
  | none => simp [texts, Harmless.none]
  | some items =>
    simp only [texts, List.forall_mem_map, Option.some.injEq, forall_eq', Harmless]
    refine forall₂_congr fun item _ => ?_
    by_cases hpresent : item.isPresent <;> simp [hpresent]

end Extended

/-- The numbers of pairs increase. -/
def Increasing (pairs : List (List Char × Nat)) : Prop := pairs.Pairwise fun a b => a.2 < b.2

/-- A pair that is the first one of its number. -/
def IsFirst (pairs : List (List Char × Nat)) (a : List Char × Nat) : Prop :=
  pairs.find? (fun b => b.2 == a.2) = some a

variable {a pair : List Char × Nat} {sorted : List (List Char × Nat)}

/-- A pair is put in unless its number is there. -/
theorem mem_insertPair (h : Increasing sorted) :
    a ∈ insertPair pair sorted ↔ a ∈ sorted ∨ a = pair ∧ ∀ b ∈ sorted, b.2 ≠ pair.2 := by
  induction sorted with
  | nil => simp [insertPair]
  | cons first rest ih =>
    obtain ⟨hfirst, hrest⟩ := List.pairwise_cons.mp h
    unfold insertPair
    split_ifs with hlt heq
    · have hother : ∀ b ∈ first :: rest, b.2 ≠ pair.2 := by
        refine List.forall_mem_cons.mpr ⟨by omega, fun b hb => ?_⟩
        have := hfirst b hb
        omega
      simp only [List.mem_cons (b := pair)]
      tauto
    · have hthere : ¬ ∀ b ∈ first :: rest, b.2 ≠ pair.2 :=
        fun h => h first List.mem_cons_self heq.symm
      tauto
    · have hne : first.2 ≠ pair.2 := fun h => heq h.symm
      rw [List.mem_cons, List.mem_cons, ih hrest, List.forall_mem_cons]
      tauto

theorem increasing_insertPair (h : Increasing sorted) : Increasing (insertPair pair sorted) := by
  induction sorted with
  | nil => simp [insertPair, Increasing]
  | cons first rest ih =>
    obtain ⟨hfirst, hrest⟩ := List.pairwise_cons.mp h
    unfold insertPair
    split_ifs with hlt heq
    · refine List.pairwise_cons.mpr ⟨List.forall_mem_cons.mpr ⟨hlt, fun b hb => ?_⟩, h⟩
      exact Nat.lt_trans hlt (hfirst b hb)
    · exact h
    · refine List.pairwise_cons.mpr ⟨fun b hb => ?_, ih hrest⟩
      rcases (mem_insertPair hrest).mp hb with hb | ⟨rfl, -⟩
      · exact hfirst b hb
      · omega

/-- After all pairs are put in, the first pair of each number is there. -/
theorem foldl_insertPair (pairs : List (List Char × Nat)) (h : Increasing sorted) :
    Increasing (pairs.foldl (fun sorted pair => insertPair pair sorted) sorted) ∧
      ∀ a, a ∈ pairs.foldl (fun sorted pair => insertPair pair sorted) sorted ↔
        a ∈ sorted ∨ IsFirst pairs a ∧ ∀ b ∈ sorted, b.2 ≠ a.2 := by
  induction pairs generalizing sorted with
  | nil => simp [IsFirst, h]
  | cons pair rest ih =>
    have hinserted : Increasing (insertPair pair sorted) := increasing_insertPair h
    obtain ⟨hincreasing, hmem⟩ := ih hinserted
    refine ⟨hincreasing, fun a => ?_⟩
    rw [List.foldl_cons, hmem, mem_insertPair h]
    simp only [mem_insertPair h]
    by_cases heq : pair.2 = a.2
    · have hfirst : IsFirst (pair :: rest) a ↔ a = pair := by simp [IsFirst, heq, eq_comm]
      rw [hfirst]
      grind
    · have hfirst : IsFirst (pair :: rest) a ↔ IsFirst rest a := by simp [IsFirst, heq]
      have hne : a ≠ pair := fun h => heq (h ▸ rfl)
      rw [hfirst]
      grind

/-- The first words of different numbers give different names. -/
def WordsApart (description : String) : Prop :=
  ∀ items pairs, pairs? description.toList = some items → items.mapM numbered = .ok pairs →
    ∀ a b, IsFirst pairs a → IsFirst pairs b →
      memberName (String.ofList a.1) = memberName (String.ofList b.1) → a.2 = b.2

/-- The member for a word and its number. -/
def ofPair (pair : List Char × Nat) : EnumEntry where
  name := memberName (String.ofList pair.1)
  value := toString pair.2
  type := "number"

/-- A description makes no members, or one for each number of its items. -/
theorem ofDescription_eq_ok {description : String} {entries : List EnumEntry} :
    ofDescription description = .ok entries ↔
      pairs? description.toList = none ∧ entries = [] ∨
      ∃ items pairs, pairs? description.toList = some items ∧ items.mapM numbered = .ok pairs ∧
        entries = (pairs.foldl (fun sorted pair => insertPair pair sorted) []).map ofPair := by
  unfold ofDescription
  cases pairs? description.toList with
  | none => simp [eq_comm]
  | some items =>
    simp only [map_eq_ok, Option.some.injEq, reduceCtorEq, false_and, false_or]
    constructor
    · rintro ⟨pairs, hpairs, rfl⟩
      exact ⟨items, pairs, rfl, hpairs, rfl⟩
    · rintro ⟨_, pairs, rfl, hpairs, rfl⟩
      exact ⟨pairs, hpairs, rfl⟩

/-- The members of a description are numbers without descriptions of their own. -/
theorem of_mem_ofDescription {description : String} {entries : List EnumEntry}
    (h : ofDescription description = .ok entries) :
    ∀ entry ∈ entries, entry.type = "number" ∧ entry.description = none := by
  rcases ofDescription_eq_ok.mp h with ⟨-, rfl⟩ | ⟨_, _, -, -, rfl⟩
  · simp
  · exact List.forall_mem_map.mpr fun pair _ => ⟨rfl, rfl⟩

theorem nodup_ofDescription {description : String} {entries : List EnumEntry}
    (h : ofDescription description = .ok entries) :
    (entries.map (·.name)).Nodup ↔ WordsApart description := by
  unfold WordsApart
  rcases ofDescription_eq_ok.mp h with ⟨hnone, rfl⟩ | ⟨items, pairs, hitems, hpairs, rfl⟩
  · simp [hnone]
  obtain ⟨hincreasing, hmem⟩ := foldl_insertPair pairs List.Pairwise.nil
  have hnodup : (pairs.foldl (fun sorted pair => insertPair pair sorted) []).Nodup :=
    hincreasing.imp fun hlt heq => absurd (heq ▸ hlt) (Nat.lt_irrefl _)
  have hfirst {a b : List Char × Nat} (ha : IsFirst pairs a) (hb : IsFirst pairs b)
      (heq : a.2 = b.2) : a = b := by
    unfold IsFirst at ha hb
    rw [heq] at ha
    exact Option.some.inj (ha.symm.trans hb)
  rw [List.map_map, List.nodup_map_iff_inj_on hnodup]
  simp only [hmem, List.not_mem_nil, false_or, IsEmpty.forall_iff, implies_true, and_true]
  constructor
  · intro h is ps his hps a b ha hb hname
    obtain rfl := Option.some.inj (hitems.symm.trans his)
    obtain rfl := Except.ok.inj (hpairs.symm.trans hps)
    exact congrArg Prod.snd (h a ha b hb hname)
  · intro h a ha b hb hname
    exact hfirst ha hb (h items pairs hitems hpairs a b ha hb hname)

end EnumEntry

/-- Where the members of an enumeration come from: a list of values with the extensions for names
and descriptions, or a description of `Name=Number` pairs. -/
inductive MemberSource where
  | listed (values : List Node) (names descriptions : Node)
  | described (description : String)

namespace MemberSource

def members : MemberSource → Except Fault (List EnumEntry)
  | .listed values names descriptions => do
    EnumEntry.extend (← EnumEntry.ofValues values) names descriptions
  | .described description => EnumEntry.ofDescription description

/-- The type of the members of a source. -/
def base (entries : List EnumEntry) : MemberSource → String
  | .listed .. => Model.memberType entries
  | .described _ => "number"

variable {source : MemberSource} {entries : List EnumEntry}

/-- The members of a source are numbers if all of them are, else texts. -/
theorem base_eq (hmembers : source.members = .ok entries) (h : entries ≠ []) :
    source.base entries =
      if ∀ entry ∈ entries, entry.type = "number" then "number" else "string" := by
  cases source with
  | listed values names descriptions =>
    rw [base, Model.memberType]
    simp [h]
  | described description =>
    have hall := EnumEntry.of_mem_ofDescription hmembers
    rw [if_pos fun entry hentry => (hall entry hentry).1, base]

/-- What it takes for the members of an enumeration to differ in their names: names that an
extension gives, or those for the numbers of a description, differ. Listed values take nothing else.
-/
def Apart : MemberSource → Prop
  | .listed values names _ =>
    ∀ entries, EnumEntry.ofValues values = .ok entries →
      ∀ items, EnumEntry.extension? entries.length names = some items →
      (EnumEntry.givenNames entries items).Nodup
  | .described description => EnumEntry.WordsApart description

theorem nodup_members (h : source.members = .ok entries) :
    (entries.map (·.name)).Nodup ↔ source.Apart := by
  cases source with
  | listed values names descriptions =>
    obtain ⟨own, hown, h⟩ := bind_eq_ok.mp h
    have hvalues := EnumEntry.nodup_ofValues hown
    rw [EnumEntry.names_extend h]
    unfold Apart
    split <;> simp_all
  | described description => exact EnumEntry.nodup_ofDescription h

/-- What it takes for the descriptions of members to stay in comments: those of an extension do.
Only listed values have descriptions. -/
def Quiet : MemberSource → Prop
  | .listed values _ descriptions =>
    ∀ entries, EnumEntry.ofValues values = .ok entries →
      ∀ items, EnumEntry.extension? entries.length descriptions = some items →
      ∀ item ∈ items, item.isPresent → StaysInComment item.display
  | .described _ => True

theorem quiet_members (h : source.members = .ok entries) :
    (∀ entry ∈ entries, Harmless entry.description) ↔ source.Quiet := by
  cases source with
  | listed values names descriptions =>
    obtain ⟨own, hown, h⟩ := bind_eq_ok.mp h
    rw [EnumEntry.harmless_extend hown h, Quiet]
    simp [hown]
  | described description =>
    refine iff_of_true (fun entry hentry => ?_) trivial
    rw [(EnumEntry.of_mem_ofDescription h entry hentry).2]
    exact .none

/-- The members that a schema stands for. -/
inductive StandsIn (dialect : Dialect) (schema : Node) : MemberSource → Prop
  | listed {values names descriptions} (he : dialect.hasEnum schema = .ok true)
      (hv : schema.member "enum" = .ok (.list values))
      (hn : schema.member "x-enum-varnames" = .ok names)
      (hd : schema.member "x-enum-descriptions" = .ok descriptions) :
      StandsIn dialect schema (.listed values names descriptions)
  | described {node} (he : dialect.hasDescriptionEnum schema = .ok true)
      (hd : schema.member "description" = .ok node) :
      StandsIn dialect schema (.described (node.text?.getD ""))

end MemberSource

namespace ApiDocument

variable {dialect : Dialect} {schema : Node}

/-- The enumeration of a schema has the members that are listed, or else those that are described,
if there are any. -/
theorem enumModel?_eq_ok {found : Option Model} :
    enumModel? dialect schema = .ok found ↔
      ∃ listed, listedMembers dialect schema = .ok listed ∧
        (listed ≠ [] ∧ found = some (Model.ofMembers (Model.memberType listed) listed) ∨
        listed = [] ∧ ∃ described, describedMembers dialect schema = .ok described ∧
          found = if described = [] then none else some (Model.ofMembers "number" described)) := by
  rw [enumModel?, bind_eq_ok]
  refine exists_congr fun listed => and_congr_right fun _ => ?_
  cases listed with
  | cons first rest => simpa using pure_eq_ok.trans eq_comm
  | nil =>
    have hgoes : ∀ described : List EnumEntry,
        (if !described.isEmpty then pure (some (Model.ofMembers "number" described)) else
            pure none : Except Fault (Option Model)) = .ok found ↔
          found = if described = [] then none else some (Model.ofMembers "number" described) := by
      intro described
      cases described <;> simpa using pure_eq_ok.trans eq_comm
    simp only [List.isEmpty_nil, Bool.not_true, Bool.false_eq_true, if_false, bind_eq_ok, hgoes,
      ne_eq, not_true_eq_false, false_and, false_or, true_and]

/-- Listed members have their source in the schema. -/
theorem source_of_listedMembers {listed : List EnumEntry}
    (h : listedMembers dialect schema = .ok listed) (hne : listed ≠ []) :
    ∃ source : MemberSource, source.StandsIn dialect schema ∧ source.members = .ok listed ∧
      source.base listed = Model.memberType listed := by
  obtain ⟨lists, he, h⟩ := bind_eq_ok.mp h
  cases lists with
  | false => exact absurd (pure_eq_ok.mp h).symm hne
  | true =>
    obtain ⟨node, hv, h⟩ := bind_eq_ok.mp h
    split at h
    · obtain ⟨entries, hentries, h⟩ := bind_eq_ok.mp h
      obtain ⟨names, hn, h⟩ := bind_eq_ok.mp h
      obtain ⟨descriptions, hd, h⟩ := bind_eq_ok.mp h
      exact ⟨_, .listed he hv hn hd, bind_eq_ok.mpr ⟨entries, hentries, h⟩, rfl⟩
    · exact absurd (pure_eq_ok.mp h).symm hne

/-- Described members have their source in the schema. -/
theorem source_of_describedMembers {described : List EnumEntry}
    (h : describedMembers dialect schema = .ok described) (hne : described ≠ []) :
    ∃ source : MemberSource, source.StandsIn dialect schema ∧ source.members = .ok described ∧
      source.base described = "number" := by
  obtain ⟨describes, he, h⟩ := bind_eq_ok.mp h
  cases describes with
  | false => exact absurd (pure_eq_ok.mp h).symm hne
  | true =>
    obtain ⟨node, hd, h⟩ := bind_eq_ok.mp h
    exact ⟨_, .described he hd, h, rfl⟩

/-- An enumeration has the members of a source in its schema, and has some. -/
theorem source_of_enumModel? {m : Model} (h : enumModel? dialect schema = .ok (some m)) :
    ∃ (source : MemberSource) (members : List EnumEntry), source.StandsIn dialect schema ∧
      source.members = .ok members ∧ members ≠ [] ∧
      m = Model.ofMembers (source.base members) members := by
  obtain ⟨listed, hlisted, ⟨hne, heq⟩ | ⟨-, described, hdescribed, heq⟩⟩ := enumModel?_eq_ok.mp h
  · obtain ⟨source, hstands, hmembers, hbase⟩ := source_of_listedMembers hlisted hne
    exact ⟨source, listed, hstands, hmembers, hne, hbase ▸ Option.some.inj heq⟩
  · split_ifs at heq with hnil
    obtain ⟨source, hstands, hmembers, hbase⟩ := source_of_describedMembers hdescribed hnil
    exact ⟨source, described, hstands, hmembers, hnil, hbase ▸ Option.some.inj heq⟩

end ApiDocument

end ClientGen
