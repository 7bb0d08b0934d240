import ClientGen.Proofs.Code.SourcePaths
import ClientGen.Proofs.Workspace.FileTree
import ClientGen.Workspace.ClientFolder

/-! What writing a client does to a file tree: it replaces one folder, or it leaves the tree as it
was. -/

namespace ClientGen

namespace FileTree

/-- A tree with files put below a folder. -/
def putFiles (folder : Place) (files : List SourceFile) (t : FileTree) : FileTree :=
  files.foldl (fun t f => t.insert (folder ++ f.names) (.file (.text f.text))) t

variable {files : List SourceFile} {t t' : FileTree}

section

variable {folder : Place}

theorem entry?_putFiles_of_ne (hbelow : ∀ f ∈ files, f.names ≠ []) {place : Place}
    (hplace : ∀ f ∈ files, place ≠ folder ++ f.names) :
    entry? (putFiles folder files t) place = t.entry? place := by
  induction files generalizing t with
  | nil => rfl
  | cons f rest ih =>
    obtain ⟨hf, hrest⟩ := List.forall_mem_cons.mp hbelow
    obtain ⟨hne, hplace⟩ := List.forall_mem_cons.mp hplace
    have hq : folder ++ f.names ≠ [] := List.append_ne_nil_of_right_ne_nil _ hf
    calc entry? (putFiles folder (f :: rest) t) place
        = entry? (t.insert (folder ++ f.names) (.file (.text f.text))) place := ih hrest hplace
      _ = t.entry? place := by rw [entry?_insert t hq, if_neg hne]

theorem entry?_putFiles_of_mem (hbelow : ∀ f ∈ files, f.names ≠ [])
    (hnodup : (files.map SourceFile.names).Nodup) {f : SourceFile} (hf : f ∈ files) :
    entry? (putFiles folder files t) (folder ++ f.names) = some (.file (.text f.text)) := by
  induction files generalizing t with
  | nil => exact absurd hf List.not_mem_nil
  | cons first rest ih =>
    obtain ⟨hfirst, hrest⟩ := List.forall_mem_cons.mp hbelow
    obtain ⟨hnew, hnodup⟩ := List.nodup_cons.mp hnodup
    rcases List.mem_cons.mp hf with rfl | hf
    · have hq : folder ++ f.names ≠ [] := List.append_ne_nil_of_right_ne_nil _ hfirst
      have hlater : ∀ g ∈ rest, folder ++ f.names ≠ folder ++ g.names := fun g hg heq =>
        hnew (List.append_cancel_left heq ▸ List.mem_map_of_mem hg)
      calc entry? (putFiles folder (f :: rest) t) (folder ++ f.names)
          = entry? (t.insert (folder ++ f.names) (.file (.text f.text))) (folder ++ f.names) :=
            entry?_putFiles_of_ne hrest hlater
        _ = some (.file (.text f.text)) := by rw [entry?_insert t hq, if_pos rfl]
    · exact ih hrest hnodup hf

end

/-- Putting the same files into two trees keeps them apart by new directories only. -/
theorem Grows.putFiles (folder : Place) {admits : Place → Prop} (hbelow : ∀ f ∈ files, f.names ≠ [])
    (h : Grows admits t t') :
    Grows admits (putFiles folder files t) (putFiles folder files t') := by
  induction files generalizing t t' with
  | nil => exact h
  | cons f rest ih =>
    obtain ⟨hf, hrest⟩ := List.forall_mem_cons.mp hbelow
    refine ih hrest fun place => ?_
    have hq : folder ++ f.names ≠ [] := List.append_ne_nil_of_right_ne_nil _ hf
    rw [entry?_insert t hq, entry?_insert t' hq]
    split
    · exact .inl rfl
    · exact h place

end FileTree

namespace Path

variable {current : Place} {output : Path} {names : List String} {place : Place}

theorem resolve_append (h : ".." ∉ names) :
    (output.append names).resolve current = output.resolve current ++ names := by
  unfold resolve append
  rw [stepFrom_append, stepFrom_of_plain h]

/-- On the way to a file below a folder, a path passes what is on the way to the folder and the
folders between the two. -/
theorem passes_parent_append (h : ".." ∉ names) (hne : names ≠ [])
    (hp : Passes current (output.append names).parent place) :
    Passes current output place ∨
      ∃ k < names.length, place = output.resolve current ++ names.take k := by
  obtain ⟨k, rfl⟩ := hp
  have hnames : (output.append names).parent.names = output.names ++ names.dropLast :=
    List.dropLast_append_of_ne_nil hne
  rcases Nat.le_total k output.names.length with hk | hk
  · refine .inl ⟨k, ?_⟩
    rw [hnames, List.take_append_of_le_length hk]
    rfl
  · obtain ⟨j, rfl⟩ := Nat.exists_eq_add_of_le hk
    have hpos : 0 < names.length := List.length_pos_of_ne_nil hne
    refine .inr ⟨min j (names.length - 1), by omega, ?_⟩
    have htake : ((output.append names).parent.names).take (output.names.length + j) =
        output.names ++ names.take (min j (names.length - 1)) := by
      rw [hnames, List.take_length_add_append, List.dropLast_eq_take, List.take_take]
    rw [htake]
    have hplain : ".." ∉ names.take (min j (names.length - 1)) :=
      fun hm => h (List.mem_of_mem_take hm)
    exact (resolve_append hplain : (output.append _).resolve current = _)

/-- A path without steps back passes what is above its place. -/
theorem prefix_of_passes (h : ".." ∉ output.names) (hp : Passes current output place) :
    place <+: output.resolve current := by
  obtain ⟨k, rfl⟩ := hp
  unfold resolve
  rw [stepFrom_of_plain h, stepFrom_of_plain fun hm => h (List.mem_of_mem_take hm)]
  exact (List.prefix_append_right_inj _).mpr (List.take_prefix k _)

theorem resolve_ofPlace (h : ".." ∉ place) : (ofPlace place).resolve [] = place :=
  stepFrom_of_plain h

end Path

namespace ClientFolder

open FileTree

variable {s : Surroundings} {output : Path} {t t' : FileTree}

theorem isProtected_iff {home : Path} {place : Place} : isProtected s home place ↔
    place = s.placeOf home ∨ place <+: s.current := by
  simp [isProtected]

/-- Why a folder is not replaced. -/
inductive Refuses (s : Surroundings) (output : Path) : WriteError → Prop
  | unusable (hpath : ¬ output.isUsable) : Refuses s output (.unusablePath output)
  | root (hpath : output.isUsable) (hroot : s.placeOf output = []) :
      Refuses s output (.protectedFolder (s.placeOf output))
  | noHome (hpath : output.isUsable) (hroot : s.placeOf output ≠ []) (hhome : s.home? = none) :
      Refuses s output .noHome
  | guarded {home : Path} (hpath : output.isUsable) (hhome : s.home? = some home)
      (hguarded : s.placeOf output = s.placeOf home ∨ s.placeOf output <+: s.current) :
      Refuses s output (.protectedFolder (s.placeOf output))
  | file {home : Path} {content : Content} (hpath : output.isUsable) (hhome : s.home? = some home)
      (hfree : ¬ (s.placeOf output = s.placeOf home ∨ s.placeOf output <+: s.current))
      (hfile : s.files.entry? (s.placeOf output) = some (.file content)) :
      Refuses s output (.notFolder (s.placeOf output))

theorem refusal?_eq_some {e : WriteError} : refusal? s output = some e ↔ Refuses s output e := by
  have hroot : s.placeOf output = [] → s.placeOf output <+: s.current :=
    fun h => h ▸ List.nil_prefix
  constructor
  · intro h
    unfold refusal? at h
    dsimp only at h
    split at h
    · next hpath => exact Option.some.inj h ▸ .unusable (by simpa using hpath)
    · next hpath =>
      have hpath : output.isUsable := by simpa using hpath
      split at h
      · next hroot => exact Option.some.inj h ▸ .root hpath hroot
      · next hroot =>
        split at h
        · next hhome => exact Option.some.inj h ▸ .noHome hpath hroot hhome
        · next home hhome =>
          split at h
          · next hprotected =>
            exact Option.some.inj h ▸ .guarded hpath hhome (isProtected_iff.mp hprotected)
          · next hfree =>
            rw [isProtected_iff] at hfree
            split at h
            · next hfile => exact Option.some.inj h ▸ .file hpath hhome hfree hfile
            · cases h
  · intro h
    unfold refusal?
    cases h with
    | unusable hpath => simp [hpath]
    | root hpath hroot => simp [hpath, hroot]
    | noHome hpath hroot hhome => simp [hpath, hroot, hhome]
    | guarded hpath hhome hguarded =>
      simp only [hpath, hhome, isProtected_iff.mpr hguarded]
      simp
    | file hpath hhome hfree hfile =>
      have hplace : s.placeOf output ≠ [] := fun h => hfree (.inr (hroot h))
      simp only [hpath, hhome, hfile, hplace, mt isProtected_iff.mp hfree]
      simp

theorem Refuses.unique {e e' : WriteError} (h : Refuses s output e) (h' : Refuses s output e') :
    e = e' :=
  Option.some.inj ((refusal?_eq_some.mpr h).symm.trans (refusal?_eq_some.mpr h'))

theorem Refuses.protectedFolder_iff : Refuses s output (.protectedFolder (s.placeOf output)) ↔
    output.isUsable ∧ (s.placeOf output = [] ∨ ∃ home, s.home? = some home ∧
      (s.placeOf output = s.placeOf home ∨ s.placeOf output <+: s.current)) := by
  constructor
  · intro h
    cases h with
    | root hpath hroot => exact ⟨hpath, .inl hroot⟩
    | guarded hpath hhome hguarded => exact ⟨hpath, .inr ⟨_, hhome, hguarded⟩⟩
  · rintro ⟨hpath, hroot | ⟨home, hhome, hguarded⟩⟩
    · exact .root hpath hroot
    · exact .guarded hpath hhome hguarded

/-- The folder of a path that is not refused: the path is one that the system can look for, there is
a home directory, the folder is none of the protected ones, and no file is at its place. -/
theorem refusal?_eq_none : refusal? s output = none ↔
    output.isUsable ∧ ∃ home, s.home? = some home ∧
      ¬ (s.placeOf output = s.placeOf home ∨ s.placeOf output <+: s.current) ∧
      ∀ content, s.files.entry? (s.placeOf output) ≠ some (.file content) := by
  rw [Option.eq_none_iff_forall_ne_some]
  constructor
  · intro h
    have hnot {e : WriteError} (he : Refuses s output e) : False := h e (refusal?_eq_some.mpr he)
    have hpath : output.isUsable := by
      by_contra hpath
      exact hnot (.unusable hpath)
    have hroot : s.placeOf output ≠ [] := fun hroot => hnot (.root hpath hroot)
    obtain ⟨home, hhome⟩ : ∃ home, s.home? = some home := by
      cases hhome : s.home? with
      | none => exact (hnot (.noHome hpath hroot hhome)).elim
      | some home => exact ⟨home, rfl⟩
    have hfree : ¬ (s.placeOf output = s.placeOf home ∨ s.placeOf output <+: s.current) :=
      fun hguarded => hnot (.guarded hpath hhome hguarded)
    exact ⟨hpath, home, hhome, hfree, fun content hfile => hnot (.file hpath hhome hfree hfile)⟩
  · rintro ⟨hpath, home, hhome, hfree, hfile⟩ e he
    cases refusal?_eq_some.mp he with
    | unusable h => exact h hpath
    | root _ hroot => exact hfree (.inr (hroot ▸ List.nil_prefix))
    | noHome _ _ h => exact Option.some_ne_none _ (hhome.symm.trans h)
    | guarded _ h hguarded =>
      obtain rfl := Option.some.inj (hhome.symm.trans h)
      exact hfree hguarded
    | file _ _ _ h => exact hfile _ h

theorem plain_placeOf (hcurrent : ".." ∉ s.current) : ".." ∉ s.placeOf output := by
  unfold Surroundings.placeOf Path.resolve
  refine Path.not_mem_stepFrom ?_
  split
  · exact List.not_mem_nil
  · exact hcurrent

theorem reset_of_refused {e : WriteError} (h : refusal? s output = some e) :
    reset s output = .error e := by
  unfold reset
  dsimp only
  rw [h]

/-- A folder is reset by making its path after all of it is removed. -/
theorem reset_eq_ok : reset s output = .ok t ↔ refusal? s output = none ∧
    (s.files.removeAll (s.placeOf output)).makePath [] (.ofPlace (s.placeOf output)) = .ok t := by
  unfold reset
  dsimp only
  cases refusal? s output with
  | some e => simp
  | none => simp [mapError_eq_ok]

/-- A folder that is not refused cannot be reset only for the file system's sake. -/
theorem error_of_reset {e : WriteError} (hfree : refusal? s output = none)
    (h : reset s output = .error e) : ∃ fault, e = .failed output fault := by
  unfold reset at h
  dsimp only at h
  rw [hfree] at h
  obtain ⟨fault, -, rfl⟩ := mapError_eq_error.mp h
  exact ⟨fault, rfl⟩

/-- Resetting a folder removes what is at it and below, and makes it and what is above it
directories. -/
theorem grows_of_reset (hcurrent : ".." ∉ s.current) (h : reset s output = .ok t) :
    Grows (· <+: s.placeOf output) (s.files.removeAll (s.placeOf output)) t ∧
      t.entry? (s.placeOf output) = some .directory := by
  obtain ⟨-, hmade⟩ := reset_eq_ok.mp h
  have hresolve : (Path.ofPlace (s.placeOf output)).resolve [] = s.placeOf output :=
    Path.resolve_ofPlace (plain_placeOf hcurrent)
  obtain ⟨hgrows, hdirs⟩ := grows_of_makePath hmade
  have hself := hdirs _ (Path.passes_self [] (.ofPlace (s.placeOf output)))
  refine ⟨hgrows.mono fun _ hp => ?_, hresolve ▸ hself⟩
  exact hresolve ▸ Path.prefix_of_passes (plain_placeOf hcurrent) hp

/-- What is not in the folder is not lost by resetting it. -/
theorem keeps_of_reset (h : reset s output = .ok t) {place : Place} {e : FileEntry}
    (hplace : ¬ s.placeOf output <+: place) (he : s.files.entry? place = some e) :
    t.entry? place = some e := by
  obtain ⟨-, hmade⟩ := reset_eq_ok.mp h
  refine (grows_of_makePath hmade).1.keeps ?_
  rw [entry?_removeAll, if_neg fun h => hplace h.2]
  exact he

/-- Where writing files below a folder may make directories: where the path of the folder passes,
and between the folder and the files. -/
def OnWay (current : Place) (output : Path) (files : List SourceFile) (place : Place) : Prop :=
  Path.Passes current output place ∨
    ∃ f ∈ files, ∃ k < f.names.length, place = output.resolve current ++ f.names.take k

/-- A file whose text is left out. -/
def emptied (file : SourceFile) : SourceFile := { file with text := "" }

/-- The files that a writing gets to: those before the first one whose text has no bytes, and that
one without its text. -/
def reached : List SourceFile → List SourceFile
  | [] => []
  | file :: rest =>
    if file.unencodable?.isSome then [emptied file] else file :: reached rest

theorem reached_eq_self {files : List SourceFile} (h : ∀ f ∈ files, f.unencodable? = none) :
    reached files = files := by
  induction files with
  | nil => rfl
  | cons file rest ih =>
    obtain ⟨hfile, hrest⟩ := List.forall_mem_cons.mp h
    rw [reached, hfile, ih hrest]
    rfl

theorem names_reached (files : List SourceFile) :
    ((reached files).map SourceFile.names).Sublist (files.map SourceFile.names) := by
  induction files with
  | nil => exact .slnil
  | cons file rest ih =>
    unfold reached
    split
    · exact (List.nil_sublist _).cons_cons file.names
    · exact ih.cons_cons file.names

theorem unencodable?_reached (files : List SourceFile) :
    ∀ f ∈ reached files, f.unencodable? = none := by
  induction files with
  | nil => exact fun f hf => absurd hf List.not_mem_nil
  | cons file rest ih =>
    unfold reached
    split
    · exact List.forall_mem_singleton.mpr rfl
    · next hnone => exact List.forall_mem_cons.mpr ⟨by simpa using hnone, ih⟩

/-- A file is written when the path to it can be made, and it then. -/
theorem writeFile_eq_done {current : Place} {file : SourceFile} :
    writeFile current output t file = (t', none) ↔ file.unencodable? = none ∧
      ∃ made, t.makePath current (output.append file.names).parent = .ok made ∧
        made.writeText current (output.append file.names) file.text = .ok t' := by
  unfold writeFile SourceFile.writtenText SourceFile.names
  dsimp only
  cases t.makePath current (output.append (Path.ofText file.path).names).parent with
  | error fault => simp
  | ok made =>
    cases hrun : file.unencodable? with
    | some run =>
      cases h : made.writeText current (output.append (Path.ofText file.path).names) "" <;>
        simp [h]
    | none =>
      cases h : made.writeText current (output.append (Path.ofText file.path).names) file.text <;>
        simp [h]

/-- A file whose text has no bytes is left as an empty one. -/
theorem writeFile_of_unencodable {current : Place} {file : SourceFile} {run : Text.Unencodable}
    (hrun : file.unencodable? = some run) :
    writeFile current output t file =
      match writeFile current output t (emptied file) with
      | (t', none) => (t', some (.unencodable run))
      | failed => failed := by
  have hempty : (emptied file).unencodable? = none := rfl
  have hwritten : file.writtenText = (emptied file).writtenText := by
    rw [SourceFile.writtenText, SourceFile.writtenText, hrun, hempty]
    rfl
  have hpath : (emptied file).path = file.path := rfl
  unfold writeFile
  dsimp only
  rw [hrun, hempty, hwritten, hpath]
  cases t.makePath current (output.append (Path.ofText file.path).names).parent with
  | error fault => rfl
  | ok made =>
    dsimp only
    cases made.writeText current (output.append (Path.ofText file.path).names)
      (emptied file).writtenText <;> rfl

/-- Writing ends as that of the files it gets to, unless one of them has a text without bytes. -/
theorem writeFiles_eq (current : Place) (output : Path) (t : FileTree)
    (files : List SourceFile) :
    writeFiles current output t files =
      match writeFiles current output t (reached files) with
      | (t', none) => (t', (files.findSome? SourceFile.unencodable?).map .unencodable)
      | failed => failed := by
  induction files generalizing t with
  | nil => rfl
  | cons file rest ih =>
    rw [writeFiles, List.findSome?_cons, reached]
    cases hrun : file.unencodable? with
    | none =>
      rw [Option.isSome_none, if_neg Bool.false_ne_true, writeFiles]
      generalize writeFile current output t file = result
      obtain ⟨written, e⟩ := result
      cases e with
      | none => exact ih written
      | some e => rfl
    | some run =>
      rw [Option.isSome_some, if_pos rfl, writeFiles, writeFile_of_unencodable hrun]
      generalize writeFile current output t (emptied file) = result
      obtain ⟨written, e⟩ := result
      cases e <;> rfl

/-- Files whose texts have bytes fail to be written only for the file system's sake. -/
theorem error_of_writeFiles {current : Place} {files : List SourceFile} {e : WriteError}
    (hruns : ∀ f ∈ files, f.unencodable? = none)
    (h : writeFiles current output t files = (t', some e)) : ∃ fault, e = .failed output fault := by
  induction files generalizing t with
  | nil => cases congrArg Prod.snd h
  | cons file rest ih =>
    obtain ⟨hrun, hruns⟩ := List.forall_mem_cons.mp hruns
    unfold writeFiles writeFile at h
    rw [hrun] at h
    dsimp only at h
    cases hmade : t.makePath current (output.append (Path.ofText file.path).names).parent with
    | error fault =>
      rw [hmade] at h
      exact ⟨fault, (Option.some.inj (congrArg Prod.snd h)).symm⟩
    | ok made =>
      rw [hmade] at h
      dsimp only at h
      cases hwritten : made.writeText current (output.append (Path.ofText file.path).names)
          file.writtenText with
      | error fault =>
        rw [hwritten] at h
        exact ⟨fault, (Option.some.inj (congrArg Prod.snd h)).symm⟩
      | ok written =>
        rw [hwritten] at h
        exact ih hruns h

/-- A file that is written is put at its place, apart from new directories on the way. -/
theorem grows_of_writeFile {current : Place} {file : SourceFile}
    (hbelow : file.names ≠ [] ∧ ".." ∉ file.names)
    (h : writeFile current output t file = (t', none)) :
    Grows (OnWay current output [file]) (putFiles (output.resolve current) [file] t) t' := by
  obtain ⟨hne, hplain⟩ := hbelow
  obtain ⟨-, made, hmade, hwritten⟩ := writeFile_eq_done.mp h
  obtain ⟨hgrows, -⟩ := grows_of_makePath hmade
  obtain ⟨-, -, rfl⟩ := writeText_eq_ok.mp hwritten
  have hbelow : ∀ f ∈ [file], f.names ≠ [] := fun f hf => List.mem_singleton.mp hf ▸ hne
  have hput := hgrows.putFiles (output.resolve current) hbelow
  rw [Path.resolve_append hplain]
  refine hput.mono fun place hp => ?_
  refine (Path.passes_parent_append hplain hne hp).imp_right fun ⟨k, hk, heq⟩ => ?_
  exact ⟨file, List.mem_singleton_self file, k, hk, heq⟩

/-- Files that are written are put at their places, apart from new directories on the way. -/
theorem grows_of_writeFiles {current : Place} {files : List SourceFile}
    (hbelow : ∀ f ∈ files, f.names ≠ [] ∧ ".." ∉ f.names)
    (h : writeFiles current output t files = (t', none)) :
    Grows (OnWay current output files) (putFiles (output.resolve current) files t) t' := by
  induction files generalizing t with
  | nil =>
    obtain rfl : t = t' := congrArg Prod.fst h
    exact .refl t
  | cons file rest ih =>
    obtain ⟨hfile, hrest⟩ := List.forall_mem_cons.mp hbelow
    unfold writeFiles at h
    split at h
    · next written hwritten =>
      have hfirst := (grows_of_writeFile hfile hwritten).putFiles (output.resolve current)
        fun f hf => (hrest f hf).1
      have hlater := ih hrest h
      refine Grows.trans (hfirst.mono fun place hp => ?_) (hlater.mono fun place hp => ?_)
      · refine hp.imp_right fun ⟨f, hf, hk⟩ => ?_
        exact ⟨f, List.mem_singleton.mp hf ▸ List.mem_cons_self, hk⟩
      · exact hp.imp_right fun ⟨f, hf, hk⟩ => ⟨f, List.mem_cons_of_mem _ hf, hk⟩
    · next hfailed =>
      exact absurd (by rw [h]) (hfailed t')

/-- Writing a file takes no directory away, also if it fails. -/
theorem keeps_directory_of_writeFile {place : Place} (current : Place) (output : Path)
    (file : SourceFile) (h : t.entry? place = some .directory) :
    entry? (writeFile current output t file).1 place = some .directory := by
  unfold writeFile
  dsimp only
  cases hmade : t.makePath current (output.append (Path.ofText file.path).names).parent with
  | error fault => exact h
  | ok made =>
    have hmade := (grows_of_makePath hmade).1.keeps h
    dsimp only
    cases hwritten :
        made.writeText current (output.append (Path.ofText file.path).names) file.writtenText with
    | error fault => exact hmade
    | ok written =>
      -- The file is at another place: where it was put there was no directory.
      obtain ⟨-, hdir, rfl⟩ := writeText_eq_ok.mp hwritten
      have hq : (output.append file.names).resolve current ≠ [] :=
        fun hnil => hdir (by rw [← SourceFile.names, hnil, entry?_nil])
      have hne : place ≠ (output.append file.names).resolve current := by
        rintro rfl
        exact hdir hmade
      exact (entry?_insert made hq _ place).trans ((if_neg hne).trans hmade)

theorem keeps_directory_of_writeFiles {place : Place} (current : Place) (output : Path)
    (files : List SourceFile) (h : t.entry? place = some .directory) :
    entry? (writeFiles current output t files).1 place = some .directory := by
  induction files generalizing t with
  | nil => exact h
  | cons file rest ih =>
    have hwritten := keeps_directory_of_writeFile current output file h
    unfold writeFiles
    generalize writeFile current output t file = result at hwritten
    obtain ⟨written, fault⟩ := result
    cases fault with
    | none => exact ih hwritten
    | some fault => exact hwritten

/-- What is on the way to files without steps back is strictly above them. -/
theorem prefix_of_onWay {current : Place} {file : SourceFile} {place : Place}
    (hplain : ".." ∉ output.names) (hne : file.names ≠ [])
    (h : OnWay current output [file] place) :
    ∃ k < file.names.length, place <+: output.resolve current ++ file.names.take k := by
  rcases h with hp | ⟨f, hf, k, hk, rfl⟩
  · exact ⟨0, List.length_pos_of_ne_nil hne,
      (Path.prefix_of_passes hplain hp).trans (List.prefix_append _ _)⟩
  · obtain rfl := List.mem_singleton.mp hf
    exact ⟨k, hk, List.prefix_rfl⟩

/-- Nothing is in the way of files below a folder: no directory is at the place of one, and no file
is above it. -/
def Ready (folder : Place) (files : List SourceFile) (t : FileTree) : Prop :=
  ∀ f ∈ files, t.entry? (folder ++ f.names) ≠ some .directory ∧
    ∀ k < f.names.length, ∀ above, above <+: folder ++ f.names.take k →
      ∀ content, t.entry? above ≠ some (.file content)

theorem writeFile_isOk {current : Place} {file : SourceFile} (hplain : ".." ∉ output.names)
    (hbelow : file.names ≠ [] ∧ ".." ∉ file.names) (hrun : file.unencodable? = none)
    (hready : Ready (output.resolve current) [file] t) :
    ∃ t', writeFile current output t file = (t', none) := by
  obtain ⟨hne, hnames⟩ := hbelow
  obtain ⟨hdir, habove⟩ := hready file (List.mem_singleton_self file)
  have honWay {place : Place} (hp : Path.Passes current (output.append file.names).parent place) :
      ∃ k < file.names.length, place <+: output.resolve current ++ file.names.take k := by
    refine prefix_of_onWay hplain hne ?_
    exact (Path.passes_parent_append hnames hne hp).imp_right fun ⟨k, hk, heq⟩ =>
      ⟨file, List.mem_singleton_self file, k, hk, heq⟩
  have hclear : t.Clear current (output.append file.names).parent := by
    intro place hp content
    obtain ⟨k, hk, hpre⟩ := honWay hp
    exact habove k hk place hpre content
  obtain ⟨made, hmade⟩ := makePath_isOk hclear
  obtain ⟨hgrows, hdirs⟩ := grows_of_makePath hmade
  have hlocate : made.locate current (output.append file.names) =
      .ok ((output.append file.names).resolve current) := by
    refine locate_eq_ok.mpr ⟨rfl, fun k hk => hdirs _ ⟨k, ?_⟩⟩
    rw [Path.parent, List.dropLast_eq_take, List.take_take,
      Nat.min_eq_left (Nat.le_sub_one_of_lt hk)]
  have hfree : made.entry? ((output.append file.names).resolve current) ≠ some .directory := by
    rw [Path.resolve_append hnames]
    rcases hgrows (output.resolve current ++ file.names) with hsame | ⟨-, -, hp⟩
    · exact fun h => hdir (hsame.symm.trans h)
    · obtain ⟨k, hk, hpre⟩ := honWay hp
      have hle := hpre.length_le
      simp only [List.length_append, List.length_take] at hle
      omega
  exact ⟨_, writeFile_eq_done.mpr ⟨hrun, made, hmade, writeText_eq_ok.mpr ⟨hlocate, hfree, rfl⟩⟩⟩

/-- What was written is not in the way of files apart from it. -/
theorem Ready.of_writeFile {current : Place} {file : SourceFile} {rest : List SourceFile}
    (hplain : ".." ∉ output.names) (happart : SourceFile.Apart (file :: rest))
    (hready : Ready (output.resolve current) (file :: rest) t)
    (h : writeFile current output t file = (t', none)) :
    Ready (output.resolve current) rest t' := by
  obtain ⟨hbelow, hrest⟩ := List.forall_mem_cons.mp happart.below
  obtain ⟨hnew, -⟩ := List.nodup_cons.mp happart.nodup
  have hne : ∀ f ∈ [file], f.names ≠ [] := fun f hf => List.mem_singleton.mp hf ▸ hbelow.1
  have hgrows := grows_of_writeFile hbelow h
  intro f hf
  obtain ⟨hdir, habove⟩ := hready f (List.mem_cons_of_mem _ hf)
  have hapart : f.names ≠ file.names := fun heq => hnew (heq ▸ List.mem_map_of_mem hf)
  have hput {place : Place} (hplace : place ≠ output.resolve current ++ file.names) :
      entry? (putFiles (output.resolve current) [file] t) place = t.entry? place :=
    entry?_putFiles_of_ne hne fun g hg => List.mem_singleton.mp hg ▸ hplace
  constructor
  · have hplace : output.resolve current ++ f.names ≠ output.resolve current ++ file.names :=
      fun heq => hapart (List.append_cancel_left heq)
    rcases hgrows (output.resolve current ++ f.names) with hsame | ⟨-, -, hp⟩
    · rw [hsame, hput hplace]
      exact hdir
    · obtain ⟨k, hk, hpre⟩ := prefix_of_onWay hplain hbelow.1 hp
      have hpre := (List.prefix_append_right_inj _).mp hpre
      refine absurd (happart.eq_of_prefix f (List.mem_cons_of_mem _ hf) file List.mem_cons_self ?_)
        hapart
      exact hpre.trans (List.take_prefix k _)
  · intro k hk above hpre content hfile
    have hfile := hgrows.file_iff.mp hfile
    by_cases hplace : above = output.resolve current ++ file.names
    · rw [hplace] at hpre
      have hpre := (List.prefix_append_right_inj _).mp hpre
      refine absurd (happart.eq_of_prefix file List.mem_cons_self f (List.mem_cons_of_mem _ hf) ?_)
        hapart.symm
      exact hpre.trans (List.take_prefix k _)
    · rw [hput hplace] at hfile
      exact habove k hk above hpre content hfile

theorem writeFiles_isOk {current : Place} {files : List SourceFile} (hplain : ".." ∉ output.names)
    (happart : SourceFile.Apart files) (hruns : ∀ f ∈ files, f.unencodable? = none)
    (hready : Ready (output.resolve current) files t) :
    ∃ t', writeFiles current output t files = (t', none) := by
  induction files generalizing t with
  | nil => exact ⟨t, rfl⟩
  | cons file rest ih =>
    have hfirst : Ready (output.resolve current) [file] t := fun f hf =>
      hready f (List.mem_singleton.mp hf ▸ List.mem_cons_self)
    obtain ⟨hrun, hruns⟩ := List.forall_mem_cons.mp hruns
    obtain ⟨written, hwritten⟩ :=
      writeFile_isOk hplain (happart.below file List.mem_cons_self) hrun hfirst
    obtain ⟨t', ht'⟩ := ih happart.tail hruns (hready.of_writeFile hplain happart hwritten)
    refine ⟨t', ?_⟩
    rw [writeFiles, hwritten]
    exact ht'

/-- A folder can be reset unless it is refused or a file is above it. -/
theorem reset_isOk (hcurrent : ".." ∉ s.current) (hfree : refusal? s output = none)
    (hfiles : ∀ above, above <+: s.placeOf output →
      ∀ content, s.files.entry? above ≠ some (.file content)) :
    ∃ t, reset s output = .ok t := by
  have hplain : ".." ∉ s.placeOf output := plain_placeOf hcurrent
  have hclear : (s.files.removeAll (s.placeOf output)).Clear [] (.ofPlace (s.placeOf output)) := by
    intro place hp content hfile
    have hpre := Path.resolve_ofPlace hplain ▸ Path.prefix_of_passes hplain hp
    rw [entry?_removeAll] at hfile
    split at hfile
    · cases hfile
    · exact hfiles place hpre content hfile
  obtain ⟨t, ht⟩ := makePath_isOk hclear
  exact ⟨t, reset_eq_ok.mpr ⟨hfree, ht⟩⟩

end ClientFolder

end ClientGen
