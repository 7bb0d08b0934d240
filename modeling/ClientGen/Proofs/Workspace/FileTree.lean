import ClientGen.Proofs.Outcome
import ClientGen.Workspace.FileTree

/-! What operations on a file tree do to the entries at its places. -/

namespace ClientGen

namespace Path

@[simp] theorem stepFrom_nil (place : Place) : stepFrom place [] = place := rfl

theorem stepFrom_cons (place : Place) (name : String) (rest : List String) :
    stepFrom place (name :: rest) =
      stepFrom (if name = ".." then place.dropLast else place ++ [name]) rest := by
  rw [stepFrom]
  split <;> rfl

theorem stepFrom_append (place : Place) (names more : List String) :
    stepFrom place (names ++ more) = stepFrom (stepFrom place names) more := by
  induction names generalizing place with
  | nil => rfl
  | cons name rest ih =>
    rw [List.cons_append, stepFrom, stepFrom]
    split
    · exact ih _
    · exact ih _

theorem stepFrom_of_plain {place : Place} {names : List String} (h : ".." ∉ names) :
    stepFrom place names = place ++ names := by
  induction names generalizing place with
  | nil => rw [stepFrom_nil, List.append_nil]
  | cons name rest ih =>
    have hname : name ≠ ".." := fun heq => h (heq ▸ List.mem_cons_self)
    rw [stepFrom, if_neg hname, ih fun hm => h (List.mem_cons_of_mem _ hm), List.append_assoc,
      List.singleton_append]

/-- Steps lead to a place without steps back. -/
theorem not_mem_stepFrom {place : Place} {names : List String} (h : ".." ∉ place) :
    ".." ∉ stepFrom place names := by
  induction names generalizing place with
  | nil => exact h
  | cons name rest ih =>
    rw [stepFrom]
    split
    · exact ih fun hm => h (List.dropLast_subset _ hm)
    · next hname =>
      refine ih fun hm => ?_
      rcases List.mem_append.mp hm with hm | hm
      · exact h hm
      · exact hname (List.mem_singleton.mp hm).symm

/-- The places that a path passes on its way. -/
def Passes (current : Place) (p : Path) (place : Place) : Prop :=
  ∃ k, place = resolve current { p with names := p.names.take k }

variable {current : Place} {path : Path} {place : Place}

theorem passes_self (current : Place) (path : Path) : Passes current path (path.resolve current) :=
  ⟨path.names.length, by rw [List.take_length]⟩

/-- A path passes the place where it leads after the others on its way. -/
theorem passes_iff : Passes current path place ↔ place = path.resolve current ∨
    ∃ k < path.names.length, place = resolve current { path with names := path.names.take k } := by
  constructor
  · rintro ⟨k, rfl⟩
    rcases Nat.lt_or_ge k path.names.length with hk | hk
    · exact .inr ⟨k, hk, rfl⟩
    · exact .inl (by rw [List.take_of_length_le hk])
  · rintro (rfl | ⟨k, -, rfl⟩)
    · exact passes_self current path
    · exact ⟨k, rfl⟩

theorem passes_of_parent (h : Passes current path.parent place) : Passes current path place := by
  obtain ⟨k, rfl⟩ := h
  refine ⟨min k (path.names.length - 1), ?_⟩
  rw [parent, List.dropLast_eq_take, List.take_take]

end Path

namespace FileTree

variable {t t' : FileTree} {current : Place} {path : Path}

@[simp] theorem entry?_nil (t : FileTree) : t.entry? [] = some .directory := rfl

private theorem lookup_filter {entries : List (Place × FileEntry)} (keep : Place → Bool)
    (place : Place) : (entries.filter fun e => keep e.1).lookup place =
      if keep place then entries.lookup place else none := by
  induction entries with
  | nil => simp
  | cons e rest ih =>
    obtain ⟨q, entry⟩ := e
    rw [List.filter_cons, List.lookup_cons]
    by_cases heq : place = q
    · subst heq
      by_cases hk : keep place
      · simp [hk]
      · simp [hk, ih]
    · have hne : (place == q) = false := beq_eq_false_iff_ne.mpr heq
      split
      · rw [List.lookup_cons, hne, ih]
      · rw [ih, hne]

theorem entry?_insert (t : FileTree) {q : Place} (hq : q ≠ []) (e : FileEntry) (place : Place) :
    entry? (t.insert q e) place = if place = q then some e else t.entry? place := by
  unfold entry? insert
  by_cases hnil : place = []
  · rw [if_pos hnil, if_pos hnil, if_neg (hnil ▸ hq.symm)]
  rw [if_neg hnil, if_neg hnil, List.lookup_cons]
  by_cases heq : place = q
  · simp [heq]
  · rw [beq_eq_false_iff_ne.mpr heq, if_neg heq, lookup_filter (· != q)]
    simp [heq]

theorem entry?_removeAll (t : FileTree) (q place : Place) :
    entry? (t.removeAll q) place =
      if place ≠ [] ∧ q <+: place then none else t.entry? place := by
  unfold entry? removeAll
  by_cases hnil : place = []
  · simp [hnil]
  · rw [if_neg hnil, if_neg hnil, lookup_filter fun p => !q.isPrefixOf p]
    by_cases hpre : q <+: place
    · simp [hnil, hpre, List.isPrefixOf_iff_prefix.mpr hpre]
    · have hno : q.isPrefixOf place = false :=
        Bool.eq_false_iff.mpr fun h => hpre (List.isPrefixOf_iff_prefix.mp h)
      simp [hpre, hno]

/-- A walk takes the steps of its names, and each name but the last is in a directory. -/
theorem walk_eq_ok {place q : Place} {names : List String} :
    t.walk place names = .ok q ↔ q = Path.stepFrom place names ∧
      ∀ k < names.length, t.entry? (Path.stepFrom place (names.take k)) = some .directory := by
  induction names generalizing place with
  | nil => simp [walk, eq_comm]
  | cons name rest ih =>
    unfold walk
    rw [Path.stepFrom_cons]
    split
    · next hdir =>
      rw [ih]
      refine and_congr_right fun _ => ⟨fun h k hk => ?_, fun h k hk => ?_⟩
      · cases k with
        | zero => exact hdir
        | succ k =>
          rw [List.take_succ_cons, Path.stepFrom_cons]
          exact h k (Nat.lt_of_succ_lt_succ hk)
      · have hstep := h (k + 1) (Nat.succ_lt_succ hk)
        rwa [List.take_succ_cons, Path.stepFrom_cons] at hstep
    · next hfile =>
      refine ⟨nofun, fun h => ?_⟩
      have hdir := h.2 0 (Nat.succ_pos _)
      rw [List.take_zero, Path.stepFrom_nil, hfile] at hdir
      cases hdir
    · next hnone =>
      refine ⟨nofun, fun h => ?_⟩
      have hdir := h.2 0 (Nat.succ_pos _)
      rw [List.take_zero, Path.stepFrom_nil, hnone] at hdir
      cases hdir

/-- A path is located where its steps lead, if all on its way are directories. -/
theorem locate_eq_ok {q : Place} :
    t.locate current path = .ok q ↔ q = path.resolve current ∧
      ∀ k < path.names.length,
        t.entry? (Path.resolve current { path with names := path.names.take k }) =
          some .directory := walk_eq_ok

/-- A tree becomes another one only by new directories at some places. -/
def Grows (admits : Place → Prop) (t t' : FileTree) : Prop :=
  ∀ place, t'.entry? place = t.entry? place ∨
    t.entry? place = none ∧ t'.entry? place = some .directory ∧ admits place

namespace Grows

variable {admits : Place → Prop} {t'' : FileTree}

theorem refl (t : FileTree) : Grows admits t t := fun _ => .inl rfl

theorem mono {wider : Place → Prop} (h : Grows admits t t')
    (hw : ∀ place, admits place → wider place) : Grows wider t t' :=
  fun place => (h place).imp_right fun ⟨hnone, hdir, hplace⟩ => ⟨hnone, hdir, hw place hplace⟩

theorem trans (h : Grows admits t t') (h' : Grows admits t' t'') : Grows admits t t'' := by
  intro place
  rcases h' place with hsame | ⟨hnone, hdir, hplace⟩
  · rcases h place with h | ⟨hnone, hdir, hplace⟩
    · exact .inl (hsame.trans h)
    · exact .inr ⟨hnone, hsame.trans hdir, hplace⟩
  · rcases h place with h | ⟨-, hdir', -⟩
    · exact .inr ⟨h.symm.trans hnone, hdir, hplace⟩
    · rw [hnone] at hdir'
      cases hdir'

/-- What is there stays. -/
theorem keeps (h : Grows admits t t') {place : Place} {e : FileEntry}
    (he : t.entry? place = some e) : t'.entry? place = some e := by
  rcases h place with hsame | ⟨hnone, -, -⟩
  · exact hsame.trans he
  · rw [he] at hnone
    cases hnone

theorem file_iff (h : Grows admits t t') {place : Place} {content : Content} :
    t'.entry? place = some (.file content) ↔ t.entry? place = some (.file content) := by
  refine ⟨fun hfile => ?_, h.keeps⟩
  rcases h place with hsame | ⟨-, hdir, -⟩
  · exact hsame.symm.trans hfile
  · rw [hfile] at hdir
    cases hdir

theorem insert {q : Place} (hnone : t.entry? q = none) (hq : admits q) :
    Grows admits t (t.insert q .directory) := by
  have hne : q ≠ [] := by
    rintro rfl
    cases hnone
  intro place
  rw [entry?_insert t hne]
  split
  · next heq => exact .inr ⟨heq ▸ hnone, rfl, heq ▸ hq⟩
  · exact .inl rfl

/-- Growth at places of two kinds is growth at those of the first, and then at the others. -/
theorem split {others : Place → Prop} (h : Grows (fun place => admits place ∨ others place) t t') :
    ∃ middle, Grows admits t middle ∧ Grows others middle t' ∧
      ∀ place, admits place → middle.entry? place = t'.entry? place := by
  classical
  let keep (place : Place) : Bool := decide (t.entry? place ≠ none ∨ admits place)
  let middle : FileTree := ⟨t'.entries.filter fun e => keep e.1⟩
  have hkept {place : Place} (hkeep : keep place) : middle.entry? place = t'.entry? place := by
    unfold entry?
    rw [lookup_filter, if_pos hkeep]
  have hleft {place : Place} (hkeep : ¬ keep place) :
      middle.entry? place = none ∧ t.entry? place = none ∧ ¬ admits place := by
    have hnot : ¬ (t.entry? place ≠ none ∨ admits place) := by simpa [keep] using hkeep
    have hnone : t.entry? place = none := not_not.mp fun hsome => hnot (.inl hsome)
    have hne : place ≠ [] := by
      rintro rfl
      cases hnone
    refine ⟨?_, hnone, fun hplace => hnot (.inr hplace)⟩
    unfold entry?
    rw [if_neg hne, lookup_filter, if_neg hkeep]
  refine ⟨middle, fun place => ?_, fun place => ?_, fun place hplace =>
    hkept (decide_eq_true (.inr hplace))⟩
  · by_cases hkeep : keep place
    · rw [hkept hkeep]
      rcases h place with hsame | ⟨hnone, hdir, -⟩
      · exact .inl hsame
      · exact .inr ⟨hnone, hdir, (of_decide_eq_true hkeep).resolve_left fun hsome => hsome hnone⟩
    · obtain ⟨hmiddle, hnone, -⟩ := hleft hkeep
      exact .inl (hmiddle.trans hnone.symm)
  · by_cases hkeep : keep place
    · exact .inl (hkept hkeep).symm
    · obtain ⟨hmiddle, hnone, hplace⟩ := hleft hkeep
      rcases h place with hsame | ⟨-, hdir, hadmits⟩
      · exact .inl (hsame.trans (hnone.trans hmiddle.symm))
      · exact .inr ⟨hmiddle, hdir, hadmits.resolve_left hplace⟩

end Grows

/-- No file is where a path passes. -/
def Clear (t : FileTree) (current : Place) (path : Path) : Prop :=
  ∀ place, Path.Passes current path place → ∀ content, t.entry? place ≠ some (.file content)

theorem Clear.of_grows {admits : Place → Prop} (hclear : t.Clear current path)
    (h : Grows admits t t') : t'.Clear current path :=
  fun place hplace content hfile => hclear place hplace content (h.file_iff.mp hfile)

theorem Clear.parent (h : t.Clear current path) : t.Clear current path.parent :=
  fun place hplace => h place (Path.passes_of_parent hplace)

theorem makeDirectory_eq_ok : t.makeDirectory current path = .ok t' ↔
    t.locate current path = .ok (path.resolve current) ∧
      t.entry? (path.resolve current) = none ∧
      t' = t.insert (path.resolve current) .directory := by
  constructor
  · intro h
    obtain ⟨q, hq, h⟩ := bind_eq_ok.mp h
    obtain ⟨rfl, -⟩ := locate_eq_ok.mp hq
    split at h
    · cases h
    · next hnone =>
      obtain rfl := pure_eq_ok.mp h
      exact ⟨hq, by simpa using hnone, rfl⟩
  · rintro ⟨hq, hnone, rfl⟩
    exact bind_eq_ok.mpr ⟨_, hq, by rw [hnone]; rfl⟩

/-- A directory that is made or allowed is the only new one, and then there are directories all
along the path. -/
private theorem grows_of_allowDirectory
    (h : t.allowDirectory current path (t.makeDirectory current path) = .ok t') :
    Grows (· = path.resolve current) t t' ∧
      ∀ place, Path.Passes current path place → t'.entry? place = some .directory := by
  have halong (hlocate : t.locate current path = .ok (path.resolve current))
      (hgrows : Grows (· = path.resolve current) t t')
      (hdir : t'.entry? (path.resolve current) = some .directory) :
      ∀ place, Path.Passes current path place → t'.entry? place = some .directory := by
    intro place hplace
    rcases Path.passes_iff.mp hplace with rfl | ⟨k, hk, rfl⟩
    · exact hdir
    · exact hgrows.keeps ((locate_eq_ok.mp hlocate).2 k hk)
  unfold allowDirectory at h
  split at h
  · next hmade =>
    obtain rfl := Except.ok.inj h
    obtain ⟨hlocate, hnone, rfl⟩ := makeDirectory_eq_ok.mp hmade
    have hne : path.resolve current ≠ [] := by
      intro heq
      rw [heq] at hnone
      cases hnone
    have hgrows : Grows (· = path.resolve current) t (t.insert (path.resolve current) .directory) :=
      .insert hnone rfl
    exact ⟨hgrows, halong hlocate hgrows (by rw [entry?_insert t hne, if_pos rfl])⟩
  · split at h
    · next hdir =>
      obtain rfl := Except.ok.inj h
      obtain ⟨q, hq, hdir⟩ := Option.bind_eq_some_iff.mp hdir
      cases hl : t.locate current path with
      | error fault =>
        rw [hl] at hq
        cases hq
      | ok place =>
        rw [hl] at hq
        obtain rfl := Option.some.inj hq
        obtain ⟨rfl, -⟩ := locate_eq_ok.mp hl
        exact ⟨.refl t, halong hl (.refl t) hdir⟩
    · cases h

private theorem grows_of_makeDirectories {names : List String}
    (h : t.makeDirectories current names path = .ok t') :
    Grows (Path.Passes current path) t t' ∧
      ∀ place, Path.Passes current path place → t'.entry? place = some .directory := by
  have hself {t t' : FileTree} {path : Path}
      (h : t.allowDirectory current path (t.makeDirectory current path) = .ok t') :
      Grows (Path.Passes current path) t t' ∧
        ∀ place, Path.Passes current path place → t'.entry? place = some .directory := by
    obtain ⟨hgrows, hdirs⟩ := grows_of_allowDirectory h
    exact ⟨hgrows.mono fun _ heq => heq ▸ Path.passes_self current path, hdirs⟩
  induction names generalizing t t' path with
  | nil => exact hself h
  | cons name above ih =>
    unfold makeDirectories at h
    split at h
    · obtain ⟨parent, hparent, h⟩ := bind_eq_ok.mp h
      obtain ⟨hgrows, -⟩ := ih hparent
      obtain ⟨hgrows', hdirs⟩ := hself h
      exact ⟨(hgrows.mono fun _ hp => Path.passes_of_parent hp).trans hgrows', hdirs⟩
    · exact hself h

/-- Making a path adds directories where it passes and nothing else, and there are directories all
along the path then. -/
theorem grows_of_makePath (h : t.makePath current path = .ok t') :
    Grows (Path.Passes current path) t t' ∧
      ∀ place, Path.Passes current path place → t'.entry? place = some .directory :=
  grows_of_makeDirectories h

/-- Only files keep a walk from ending otherwise than at a missing place. -/
private theorem eq_missing_of_walk {place : Place} {names : List String} {fault : FileFault}
    (hfiles : ∀ k content, t.entry? (Path.stepFrom place (names.take k)) ≠ some (.file content))
    (h : t.walk place names = .error fault) : fault = .missing := by
  induction names generalizing place with
  | nil => cases h
  | cons name rest ih =>
    unfold walk at h
    split at h
    · refine ih (fun k content => ?_) h
      have hk := hfiles (k + 1) content
      rwa [List.take_succ_cons, Path.stepFrom_cons] at hk
    · next content hfile => exact absurd hfile (hfiles 0 content)
    · exact (Except.error.inj h).symm

private theorem allowDirectory_isOk (hlocate : t.locate current path = .ok (path.resolve current))
    (hclear : t.Clear current path) :
    ∃ t', t.allowDirectory current path (t.makeDirectory current path) = .ok t' := by
  have hfile := hclear _ (Path.passes_self current path)
  unfold allowDirectory
  split
  · exact ⟨_, rfl⟩
  · next hmade =>
    -- What is there already is a directory, as it is no file.
    rw [if_pos]
    · exact ⟨t, rfl⟩
    · cases he : t.entry? (path.resolve current) with
      | none =>
        rw [makeDirectory_eq_ok.mpr ⟨hlocate, he, rfl⟩] at hmade
        cases hmade
      | some entry =>
        cases entry with
        | directory => simp [entryAt?, hlocate, Except.toOption, he]
        | file content => exact absurd he (hfile content)

/-- A path can be made unless a file is where it passes. -/
theorem makePath_isOk (hclear : t.Clear current path) : ∃ t', t.makePath current path = .ok t' := by
  unfold makePath
  generalize hnames : path.names = names
  replace hnames : path.names.length = names.length := congrArg List.length hnames
  induction names generalizing t path with
  | nil =>
    refine allowDirectory_isOk (locate_eq_ok.mpr ⟨rfl, fun k hk => ?_⟩) hclear
    rw [hnames] at hk
    exact absurd hk (Nat.not_lt_zero k)
  | cons name above ih =>
    unfold makeDirectories
    split
    · have hlength : path.parent.names.length = above.length := by
        rw [Path.parent, List.length_dropLast, hnames, List.length_cons, Nat.add_sub_cancel]
      obtain ⟨made, hmade⟩ := ih hclear.parent hlength
      obtain ⟨hgrows, hdirs⟩ := grows_of_makeDirectories hmade
      have hlocate : made.locate current path = .ok (path.resolve current) := by
        refine locate_eq_ok.mpr ⟨rfl, fun k hk => hdirs _ ⟨k, ?_⟩⟩
        rw [Path.parent, List.dropLast_eq_take, List.take_take,
          Nat.min_eq_left (Nat.le_sub_one_of_lt hk)]
      obtain ⟨written, hwritten⟩ := allowDirectory_isOk hlocate (hclear.of_grows hgrows)
      exact ⟨written, bind_eq_ok.mpr ⟨made, hmade, hwritten⟩⟩
    · next hmade =>
      cases hlocate : t.locate current path with
      | ok place =>
        obtain ⟨rfl, -⟩ := locate_eq_ok.mp hlocate
        exact allowDirectory_isOk hlocate hclear
      | error fault =>
        obtain rfl := eq_missing_of_walk (fun k content => hclear _ ⟨k, rfl⟩ content) hlocate
        exact absurd (by rw [makeDirectory, hlocate]; rfl) hmade

theorem writeText_eq_ok {text : String} : t.writeText current path text = .ok t' ↔
    t.locate current path = .ok (path.resolve current) ∧
      t.entry? (path.resolve current) ≠ some .directory ∧
      t' = t.insert (path.resolve current) (.file (.text text)) := by
  constructor
  · intro h
    obtain ⟨q, hq, h⟩ := bind_eq_ok.mp h
    obtain ⟨rfl, -⟩ := locate_eq_ok.mp hq
    split at h
    · cases h
    · next hdir =>
      obtain rfl := pure_eq_ok.mp h
      exact ⟨hq, by simpa [isDirectory] using hdir, rfl⟩
  · rintro ⟨hq, hdir, rfl⟩
    refine bind_eq_ok.mpr ⟨_, hq, ?_⟩
    rw [if_neg (by simpa [isDirectory] using hdir)]
    rfl

end FileTree

end ClientGen
