import ClientGen.Proofs.Workspace.ClientFolder

/-! Writing a client replaces one folder or nothing. -/

namespace ClientGen

open ClientFolder FileTree

/-- How files in place of all that a folder held change a tree. Outside of the folder only the
directories above it are new. -/
structure Replaces (top : Place) (files : List SourceFile) (before after : FileTree) : Prop where
  folder : after.entry? top = some .directory
  contents : ∀ names content, after.entry? (top ++ names) = some (.file content) ↔
    ∃ f ∈ files, names = f.names ∧ content = .text f.text
  directories : ∀ names, after.entry? (top ++ names) = some .directory →
    names = [] ∨ ∃ f ∈ files, names <+: f.names
  outside : ∀ place, ¬ top <+: place → after.entry? place = before.entry? place ∨
    before.entry? place = none ∧ after.entry? place = some .directory ∧ place <+: top

/-- The places above a folder, and those between it and files below it. -/
def Leads (top : Place) (files : List SourceFile) (place : Place) : Prop :=
  place <+: top ∨ ∃ f ∈ files, ∃ k < f.names.length, place = top ++ f.names.take k

/-- The way to a folder makes no detour: all that it passes is above the folder, or a directory that
is there outside of it. -/
def Path.Straight (current : Place) (output : Path) (t : FileTree) : Prop :=
  ∀ place, Passes current output place → place <+: output.resolve current ∨
    ¬ output.resolve current <+: place ∧ t.entry? place = some .directory

theorem Path.straight_of_plain {output : Path} (h : ".." ∉ output.names) (current : Place)
    (t : FileTree) : output.Straight current t :=
  fun _ hp => .inl (prefix_of_passes h hp)

variable {top : Place} {files : List SourceFile} {before after : FileTree}

/-- Where no file was put, a tree in which the folder is emptied for files is as it was outside of
the folder, and without entries strictly inside. -/
theorem entry?_emptied (hbelow : ∀ f ∈ files, f.names ≠ []) {place : Place}
    (hplace : ∀ f ∈ files, place ≠ top ++ f.names) :
    entry? (putFiles top files (before.removeAll top)) place =
      if place ≠ [] ∧ top <+: place then none else before.entry? place := by
  rw [entry?_putFiles_of_ne hbelow hplace, entry?_removeAll]

/-- A tree that has the files in place of the folder's content, and grew on the way to them. -/
theorem Replaces.of_grows (happart : SourceFile.Apart files)
    (hfolder : after.entry? top = some .directory)
    (hgrows : Grows (Leads top files) (putFiles top files (before.removeAll top)) after) :
    Replaces top files before after := by
  have hbelow : ∀ f ∈ files, f.names ≠ [] := fun f hf => (happart.below f hf).1
  -- Strictly below the folder there is a file that was put there or nothing.
  have hput {names : List String} (hne : names ≠ []) (hnames : ∀ f ∈ files, names ≠ f.names) :
      entry? (putFiles top files (before.removeAll top)) (top ++ names) = none := by
    rw [entry?_emptied hbelow fun f hf heq => hnames f hf (List.append_cancel_left heq), if_pos]
    exact ⟨List.append_ne_nil_of_right_ne_nil _ hne, List.prefix_append _ _⟩
  refine ⟨hfolder, fun names content => ⟨fun hfile => ?_, ?_⟩, fun names hdir => ?_,
    fun place hplace => ?_⟩
  · have hne : names ≠ [] := by
      rintro rfl
      rw [List.append_nil, hfolder] at hfile
      cases hfile
    have hfile := hgrows.file_iff.mp hfile
    by_cases hnames : ∃ f ∈ files, names = f.names
    · obtain ⟨f, hf, rfl⟩ := hnames
      rw [entry?_putFiles_of_mem hbelow happart.nodup hf] at hfile
      cases hfile
      exact ⟨f, hf, rfl, rfl⟩
    · rw [hput hne fun f hf heq => hnames ⟨f, hf, heq⟩] at hfile
      cases hfile
  · rintro ⟨f, hf, rfl, rfl⟩
    exact hgrows.keeps (entry?_putFiles_of_mem hbelow happart.nodup hf)
  · by_cases hne : names = []
    · exact .inl hne
    rcases hgrows (top ++ names) with hsame | ⟨-, -, hpre | ⟨f, hf, k, -, heq⟩⟩
    · rw [hdir] at hsame
      by_cases hnames : ∃ f ∈ files, names = f.names
      · obtain ⟨f, hf, rfl⟩ := hnames
        rw [entry?_putFiles_of_mem hbelow happart.nodup hf] at hsame
        cases hsame
      · rw [hput hne fun f hf heq => hnames ⟨f, hf, heq⟩] at hsame
        cases hsame
    · exact absurd (List.append_right_eq_self.mp (hpre.eq_of_length_le (by simp))) hne
    · exact .inr ⟨f, hf, List.append_cancel_left heq ▸ List.take_prefix k _⟩
  · have hnames : ∀ f ∈ files, place ≠ top ++ f.names := by
      rintro f - rfl
      exact hplace (List.prefix_append _ _)
    have hplaced := hgrows place
    rw [entry?_emptied hbelow hnames, if_neg fun h => hplace h.2] at hplaced
    refine hplaced.imp_right fun ⟨hnone, hdir, hleads⟩ => ⟨hnone, hdir, ?_⟩
    rcases hleads with hpre | ⟨f, -, k, -, rfl⟩
    · exact hpre
    · exact absurd (List.prefix_append _ _) hplace

/-- Growth on the way to files is growth that a detour has no part in, if there is none. -/
theorem leads_of_straight {current : Place} {output : Path}
    (hbelow : ∀ f ∈ files, f.names ≠ []) (hstraight : output.Straight current before)
    (hgrows : Grows (fun place => Leads (output.resolve current) files place ∨
        output.Passes current place)
      (putFiles (output.resolve current) files (before.removeAll (output.resolve current))) after) :
    Grows (Leads (output.resolve current) files)
      (putFiles (output.resolve current) files (before.removeAll (output.resolve current)))
      after := by
  intro place
  rcases hgrows place with hsame | ⟨hnone, hdir, hleads | hpasses⟩
  · exact .inl hsame
  · exact .inr ⟨hnone, hdir, hleads⟩
  · rcases hstraight place hpasses with hpre | ⟨hout, hthere⟩
    · exact .inr ⟨hnone, hdir, .inl hpre⟩
    · have hnames : ∀ f ∈ files, place ≠ output.resolve current ++ f.names := by
        rintro f - rfl
        exact hout (List.prefix_append _ _)
      rw [entry?_emptied hbelow hnames, if_neg fun h => hout h.2, hthere] at hnone
      cases hnone

namespace ClientFolder

variable {s : Surroundings} {output : Path} {t : FileTree}

/-- How a writing ends that the file system lets through: all files are written, or one of them has
a text without bytes. -/
def ending (folder : Place) (files : List SourceFile) : Except WriteError Place :=
  match files.findSome? SourceFile.unencodable? with
  | none => .ok folder
  | some run => .error (.unencodable run)

theorem replace_of_refused {e : WriteError} (h : refusal? s output = some e) :
    replace s output files = (s.files, .error e) := by
  unfold replace
  rw [reset_of_refused h]

variable (files) in
theorem replace_of_reset (h : reset s output = .ok t) : replace s output files =
    match writeFiles s.current output t (reached files) with
    | (written, none) => (written, ending (s.placeOf output) files)
    | (written, some e) => (written, .error e) := by
  unfold replace ending
  rw [h]
  dsimp only
  rw [writeFiles_eq]
  generalize writeFiles s.current output t (reached files) = result
  obtain ⟨written, e⟩ := result
  cases e with
  | some e => rfl
  | none => cases files.findSome? SourceFile.unencodable? <;> rfl

/-- A folder that is not refused gets the files that a writing reaches, unless the file system
refuses. -/
theorem replace_cases (files : List SourceFile) (hfree : refusal? s output = none) :
    (∃ after fault, replace s output files = (after, .error (.failed output fault))) ∨
    ∃ t after, reset s output = .ok t ∧
      writeFiles s.current output t (reached files) = (after, none) ∧
      replace s output files = (after, ending (s.placeOf output) files) := by
  cases hreset : reset s output with
  | error e =>
    obtain ⟨fault, rfl⟩ := error_of_reset hfree hreset
    refine .inl ⟨s.files, fault, ?_⟩
    unfold replace
    rw [hreset]
  | ok t =>
    cases hwritten : writeFiles s.current output t (reached files) with
    | mk after e =>
      have hreplace := replace_of_reset files hreset
      rw [hwritten] at hreplace
      cases e with
      | none => exact .inr ⟨t, after, rfl, hwritten, hreplace⟩
      | some e =>
        obtain ⟨fault, rfl⟩ := error_of_writeFiles (unencodable?_reached files) hwritten
        exact .inl ⟨after, fault, hreplace⟩

theorem replace_ne_protectedFolder {place : Place} (hfree : refusal? s output = none) :
    (replace s output files).2 ≠ .error (.protectedFolder place) := by
  rcases replace_cases files hfree with ⟨_, _, h⟩ | ⟨_, _, -, -, h⟩
  · rw [h]
    exact nofun
  · rw [h]
    unfold ending
    split <;> exact nofun

/-- Files that are written into a folder take the place of what it held. Beside that, a tree has new
directories only where the way to the folder makes a detour. -/
theorem replaces_of_writeFiles (hcurrent : ".." ∉ s.current) (happart : SourceFile.Apart files)
    (hreset : reset s output = .ok t)
    (hwritten : writeFiles s.current output t files = (after, none)) :
    (output.Straight s.current s.files → Replaces (s.placeOf output) files s.files after) ∧
    ∃ replaced, Replaces (s.placeOf output) files s.files replaced ∧
      Grows (output.Passes s.current) replaced after := by
  have hbelow : ∀ f ∈ files, f.names ≠ [] := fun f hf => (happart.below f hf).1
  obtain ⟨hmade, hfolder⟩ := grows_of_reset hcurrent hreset
  have hwrite := grows_of_writeFiles happart.below hwritten
  have hnames : ∀ f ∈ files, s.placeOf output ≠ s.placeOf output ++ f.names := fun f hf heq =>
    hbelow f hf (List.append_right_eq_self.mp heq.symm)
  have hfolder : after.entry? (s.placeOf output) = some .directory :=
    hwrite.keeps ((entry?_putFiles_of_ne hbelow hnames).trans hfolder)
  have hgrows : Grows (fun place => Leads (s.placeOf output) files place ∨
        output.Passes s.current place)
      (putFiles (s.placeOf output) files (s.files.removeAll (s.placeOf output))) after := by
    refine ((hmade.putFiles _ hbelow).mono fun _ hpre => .inl (.inl hpre)).trans
      (hwrite.mono fun place hway => ?_)
    exact hway.elim .inr fun hbetween => .inl (.inr hbetween)
  refine ⟨fun hstraight =>
    .of_grows happart hfolder (leads_of_straight hbelow hstraight hgrows), ?_⟩
  obtain ⟨replaced, hleads, hpasses, hkept⟩ := hgrows.split
  have hreplaced := (hkept (s.placeOf output) (.inl List.prefix_rfl)).trans hfolder
  exact ⟨replaced, .of_grows happart hreplaced hleads, hpasses⟩

/-- However a writing ends, the directories outside of the folder stay. -/
theorem keeps_directory_of_replace (files : List SourceFile) {place : Place}
    (hplace : ¬ s.placeOf output <+: place) (h : s.files.entry? place = some .directory) :
    entry? (replace s output files).1 place = some .directory := by
  unfold replace
  cases hreset : reset s output with
  | error e => exact h
  | ok t =>
    have hwritten := keeps_directory_of_writeFiles s.current output files
      (keeps_of_reset hreset hplace h)
    dsimp only
    generalize writeFiles s.current output t files = result at hwritten ⊢
    obtain ⟨written, e⟩ := result
    cases e <;> exact hwritten

/-- Files can be written where no file is in the way. -/
theorem replace_isOk (hcurrent : ".." ∉ s.current) (happart : SourceFile.Apart files)
    (hplain : ".." ∉ output.names) (hfree : refusal? s output = none)
    (hfiles : ∀ above, above <+: s.placeOf output →
      ∀ content, s.files.entry? above ≠ some (.file content)) :
    (replace s output files).2 = ending (s.placeOf output) files := by
  have happart := happart.of_sublist (names_reached files)
  obtain ⟨t, hreset⟩ := reset_isOk hcurrent hfree hfiles
  obtain ⟨hgrows, -⟩ := grows_of_reset hcurrent hreset
  have hready : Ready (output.resolve s.current) (reached files) t := by
    intro f hf
    have hne : f.names ≠ [] := (happart.below f hf).1
    constructor
    · rcases hgrows (output.resolve s.current ++ f.names) with hsame | ⟨-, -, hpre⟩
      · rw [hsame, entry?_removeAll,
          if_pos ⟨List.append_ne_nil_of_right_ne_nil _ hne, List.prefix_append _ _⟩]
        exact nofun
      · have hself := hpre.eq_of_length_le (List.prefix_append _ f.names).length_le
        exact absurd (List.append_right_eq_self.mp hself) hne
    · intro k hk above hpre content hfile
      have hfile := hgrows.file_iff.mp hfile
      rw [entry?_removeAll] at hfile
      split at hfile
      · cases hfile
      · next hkept =>
        refine hfiles above ?_ content hfile
        by_cases hnil : above = []
        · exact hnil ▸ List.nil_prefix
        · exact (List.prefix_or_prefix_of_prefix hpre (List.prefix_append _ _)).resolve_right
            fun hbelow => hkept ⟨hnil, hbelow⟩
  obtain ⟨after, hafter⟩ :=
    writeFiles_isOk hplain happart (unencodable?_reached files) hready
  rw [replace_of_reset files hreset, hafter]

end ClientFolder

namespace Client

variable {client : Client} {options : Options} {s : Surroundings} {output : Path}

theorem length_templates (client : Client) (options : Options) :
    (client.sourceFiles options).length = (client.templates options).length := by
  have hcore (c : Bool) : (if c then SourceFile.ofCore client options else []).length =
      (if c then SourceFile.coreTemplates options.transport else []).length := by
    cases c <;> rfl
  have hmodels (c : Bool) : (if c then SourceFile.ofModels client options else []).length =
      (if c then client.models.map fun _ => ["model.j2"] else []).length := by
    cases c <;> simp [SourceFile.ofModels]
  have hservices (c : Bool) : (if c then SourceFile.ofServices client options else []).length =
      (if c then client.services.map SourceFile.serviceTemplates else []).length := by
    cases c <;> simp [SourceFile.ofServices]
  unfold sourceFiles templates
  simp only [List.length_append, hcore, hmodels, hservices, List.length_singleton]

/-- A file is rendered if all of its templates are there. -/
theorem render_file_eq_ok {language : Language} {missing templates : List String}
    {file rendered : SourceFile} : file.render language missing templates = .ok rendered ↔
      file = rendered ∧ ∀ t ∈ templates, language.name ++ "/" ++ t ∉ missing := by
  unfold SourceFile.render
  split
  · next t hfind =>
    have hmissing := List.find?_some hfind
    refine iff_of_false (fun h => ?_) fun h => h.2 t (List.mem_of_find?_eq_some hfind) ?_
    · cases h
    · simpa using hmissing
  · next hnone =>
    rw [List.find?_eq_none] at hnone
    rw [Except.ok.injEq, and_iff_left]
    simpa using hnone

theorem mapM_render_eq_ok {language : Language} {missing : List String}
    {pairs : List (SourceFile × List String)} :
    (pairs.mapM fun (file, templates) => file.render language missing templates) = .ok files ↔
      pairs.map Prod.fst = files ∧
        ∀ pair ∈ pairs, ∀ t ∈ pair.2, language.name ++ "/" ++ t ∉ missing := by
  simp only [mapM_eq_ok, render_file_eq_ok]
  induction pairs generalizing files with
  | nil => simp [eq_comm]
  | cons pair rest ih =>
    rw [List.forall₂_cons_left_iff, List.map_cons, List.forall_mem_cons]
    constructor
    · rintro ⟨file, files, ⟨rfl, hpair⟩, hrest, rfl⟩
      obtain ⟨rfl, hall⟩ := ih.mp hrest
      exact ⟨rfl, hpair, hall⟩
    · rintro ⟨rfl, hpair, hall⟩
      exact ⟨_, _, ⟨rfl, hpair⟩, ih.mpr ⟨rfl, hall⟩, rfl⟩

/-- The files of a client are rendered if all of their templates are there. -/
theorem render_eq_ok {missing : List String} : client.render options missing = .ok files ↔
    client.sourceFiles options = files ∧ ∀ templates ∈ client.templates options,
      ∀ t ∈ templates, options.language.name ++ "/" ++ t ∉ missing := by
  have hlength := length_templates client options
  have hsnd := List.map_snd_zip (Nat.le_of_eq hlength.symm)
  rw [render, mapM_render_eq_ok, List.map_fst_zip (Nat.le_of_eq hlength),
    ← List.forall_mem_map (f := Prod.snd) (P := fun templates =>
      ∀ t ∈ templates, options.language.name ++ "/" ++ t ∉ missing), hsnd]

theorem write_of_unrendered {e : RenderError}
    (h : client.render options s.missingTemplates = .error e) :
    client.write options s output = (s.files, .error (.unrendered e)) := by
  unfold write
  rw [h]

theorem write_of_rendered (h : client.render options s.missingTemplates = .ok files) :
    client.write options s output = replace s output files := by
  unfold write
  rw [h]

/-- A writing is stopped before the first change, or it goes on in a folder that is not refused. -/
theorem write_cases (client : Client) (options : Options) (s : Surroundings) (output : Path) :
    (∃ e, client.render options s.missingTemplates = .error e ∧
      client.write options s output = (s.files, .error (.unrendered e))) ∨
    ∃ files, client.render options s.missingTemplates = .ok files ∧
      ((∃ e, Refuses s output e ∧ client.write options s output = (s.files, .error e)) ∨
        refusal? s output = none ∧ client.write options s output = replace s output files) := by
  cases hrender : client.render options s.missingTemplates with
  | error e => exact .inl ⟨e, rfl, write_of_unrendered hrender⟩
  | ok files =>
    have hwrite : client.write options s output = replace s output files :=
      write_of_rendered hrender
    refine .inr ⟨files, rfl, ?_⟩
    cases hrefused : refusal? s output with
    | some e =>
      exact .inl ⟨e, refusal?_eq_some.mp hrefused, hwrite.trans (replace_of_refused hrefused)⟩
    | none => exact .inr ⟨rfl, hwrite⟩

/-- A folder is refused as protected exactly if it is the root, the home directory, or the current
directory or one above it, once the client is rendered and the path is one to look for. No file is
touched then, nor if there is no home directory. So the current directory and those above it stay.
The home directory stays unless it is strictly below the folder. -/
theorem write_guards_folders (client : Client) (options : Options) (s : Surroundings)
    (output : Path) :
    let folder := s.placeOf output
    let result := client.write options s output
    (result.2 = .error (.protectedFolder folder) ↔
      (∃ files, client.render options s.missingTemplates = .ok files) ∧ output.isUsable ∧
        (folder = [] ∨ ∃ home, s.home? = some home ∧
          (folder = s.placeOf home ∨ folder <+: s.current))) ∧
    (result.2 = .error (.protectedFolder folder) → result.1 = s.files) ∧
    ((∀ home, s.home? = some home → folder = s.placeOf home ∨ folder <+: s.current) →
      ∃ e, result = (s.files, .error e)) ∧
    (∀ place, place <+: s.current → s.files.entry? place = some .directory →
      entry? result.1 place = some .directory) ∧
    ∀ home, s.home? = some home → (folder <+: s.placeOf home → folder = s.placeOf home) →
      ∀ place, place <+: s.placeOf home → s.files.entry? place = some .directory →
        entry? result.1 place = some .directory := by
  intro folder result
  have hkept {place : Place} (hdir : s.files.entry? place = some .directory)
      (hplace : folder <+: place → ∃ e, result = (s.files, .error e)) :
      entry? result.1 place = some .directory := by
    by_cases hbelow : folder <+: place
    · obtain ⟨e, he⟩ := hplace hbelow
      rw [he]
      exact hdir
    · rcases write_cases client options s output with
        ⟨_, -, h⟩ | ⟨files, -, ⟨_, -, h⟩ | ⟨-, h⟩⟩
      · exact (congrArg (fun r => entry? r.1 place) h).trans hdir
      · exact (congrArg (fun r => entry? r.1 place) h).trans hdir
      · exact (congrArg (fun r => entry? r.1 place) h).trans
          (keeps_directory_of_replace files hbelow hdir)
  have hguarded (h : ∀ home, s.home? = some home → folder = s.placeOf home ∨ folder <+: s.current) :
      ∃ e, result = (s.files, .error e) := by
    rcases write_cases client options s output with
      ⟨e, -, hwrite⟩ | ⟨files, -, ⟨e, -, hwrite⟩ | ⟨hfree, -⟩⟩
    · exact ⟨_, hwrite⟩
    · exact ⟨e, hwrite⟩
    · obtain ⟨-, home, hhome, hfree, -⟩ := refusal?_eq_none.mp hfree
      exact absurd (h home hhome) hfree
  have hprotected : result.2 = .error (.protectedFolder folder) ↔
      (∃ files, client.render options s.missingTemplates = .ok files) ∧ output.isUsable ∧
        (folder = [] ∨ ∃ home, s.home? = some home ∧
          (folder = s.placeOf home ∨ folder <+: s.current)) := by
    rw [← Refuses.protectedFolder_iff]
    change (client.write options s output).2 = _ ↔ _
    rcases write_cases client options s output with
      ⟨e, hrender, h⟩ | ⟨files, hrender, ⟨e, hrefuses, h⟩ | ⟨hfree, h⟩⟩
    · simp [h, hrender]
    · rw [h, Except.error.injEq, and_iff_right ⟨files, hrender⟩]
      exact ⟨fun heq => heq ▸ hrefuses, hrefuses.unique⟩
    · rw [h]
      refine iff_of_false (fun heq => ?_) fun ⟨_, hrefuses⟩ => ?_
      · exact replace_ne_protectedFolder hfree heq
      · exact Option.some_ne_none _ ((refusal?_eq_some.mpr hrefuses).symm.trans hfree)
  refine ⟨hprotected, fun hresult => ?_, hguarded, fun place hplace hdir => ?_,
    fun home hhome hapart place hplace hdir => ?_⟩
  · obtain ⟨-, -, hroot | ⟨home, hhome, hplace⟩⟩ := hprotected.mp hresult
    · obtain ⟨e, he⟩ := hguarded fun _ _ => .inr (hroot ▸ List.nil_prefix)
      exact congrArg Prod.fst he
    · obtain ⟨e, he⟩ := hguarded fun home' hhome' => by
        obtain rfl := Option.some.inj (hhome.symm.trans hhome')
        exact hplace
      exact congrArg Prod.fst he
  · exact hkept hdir fun hpre => hguarded fun _ _ => .inr (hpre.trans hplace)
  · refine hkept hdir fun hpre => hguarded fun home' hhome' => .inl ?_
    obtain rfl := Option.some.inj (hhome.symm.trans hhome')
    exact hapart (hpre.trans hplace)

namespace SharedHome

def home : Path := Path.ofText "/home/user"

def surroundings : Surroundings where
  files := (FileTree.putFile {} ["home", "user", "notes"] (.text "keep")).ensureDirectory ["work"]
  current := ["work"]
  environment := [("HOME", "/home/user")]
  fetch := fun _ => .failure "offline"

/-- The home directory cannot be the folder, nor is anything lost above it. -/
theorem write_at_home :
    let result := Client.write {} {} surroundings home
    surroundings.home? = some home ∧ result.2 = .error (.protectedFolder ["home", "user"]) ∧
      result.1 = surroundings.files ∧ entry? result.1 ["work"] = some .directory ∧
      entry? result.1 ["home", "user"] = some .directory := by
  intro result
  have hhome : surroundings.home? = some home := by decide
  obtain ⟨hprotected, hunchanged, -, hcurrent, hkept⟩ :=
    write_guards_folders {} {} surroundings home
  have hrefused := hprotected.mpr
    ⟨⟨_, render_eq_ok.mpr ⟨rfl, by simp [surroundings]⟩⟩, by decide,
      .inr ⟨home, hhome, .inl rfl⟩⟩
  exact ⟨hhome, hrefused, hunchanged hrefused, hcurrent ["work"] (by decide) (by decide),
    hkept home hhome (fun _ => rfl) ["home", "user"] (by decide) (by decide)⟩

/-- A directory strictly above the home directory is replaced, and the home directory is gone with
it. -/
theorem write_above_home :
    let output := Path.ofText "/home"
    let result := Client.write {} { exportCore := false } surroundings output
    surroundings.home? = some home ∧
      surroundings.placeOf output <+: surroundings.placeOf home ∧
      surroundings.files.entry? (surroundings.placeOf home) = some .directory ∧
      result.2 = .ok (surroundings.placeOf output) ∧
      entry? result.1 (surroundings.placeOf home) = none := by
  decide +kernel

end SharedHome

end Client

end ClientGen
