import ClientGen.Command.Failure
import ClientGen.Proofs.Workspace.SettingFields

/-! Which source counts for a setting: the command before the environment before the project file,
for each field on its own. -/

namespace ClientGen

open FieldReader

/-- A value that is given; nothing counts as not given. -/
def Node.given? : Node → Option Node
  | .null => none
  | node => some node

namespace Entries

def given? (es : Entries) (key : String) : Option Node := (es.get? key).bind Node.given?

end Entries

namespace SettingField

/-- The sources of a field in order: the command, for input and output the environment, and the
project file. -/
def sources (s : Surroundings) (input output : Node) (options project : Entries) :
    SettingField → List (Option Node)
  | .input => [input.given?, (s.setting? Settings.inputVariable).map .str, entry? project .input]
  | .output =>
    [output.given?, (s.setting? Settings.outputVariable).map .str, entry? project .output]
  | .option f => [options.given? f.key, entry? project (.option f)]

end SettingField

namespace Surroundings

/-- Where the project file is looked for. -/
inductive IsProjectPath (s : Surroundings) : Path → Prop
  | named {text : String} {path : Path} (hset : s.setting? Settings.fileVariable = some text)
      (hexpand : s.expandHome? (Path.ofText text) = some path) : IsProjectPath s path
  | usual (hunset : s.setting? Settings.fileVariable = none) :
      IsProjectPath s (.ofPlace (s.current ++ ["specgen.json"]))

/-- The project file is named by a path from a home directory that there is not. -/
def LacksHome (s : Surroundings) : Prop :=
  ∃ text user rest, s.setting? Settings.fileVariable = some text ∧
    Path.ofText text = ⟨false, String.ofList ('~' :: user) :: rest⟩ ∧
    s.homeOf? (String.ofList user) = none

theorem expandHome?_eq_none_iff {s : Surroundings} {p : Path} :
    s.expandHome? p = none ↔ ∃ user rest, p = ⟨false, String.ofList ('~' :: user) :: rest⟩ ∧
      s.homeOf? (String.ofList user) = none := by
  obtain ⟨isAbsolute, names⟩ := p
  unfold expandHome?
  constructor
  · intro h
    split at h
    · next first rest habsolute hnames =>
      split at h
      · next user hfirst =>
        rw [Option.map_eq_none_iff] at h
        refine ⟨user, rest, ?_, h⟩
        rw [← hfirst, String.ofList_toList]
        exact congrArg₂ Path.mk habsolute hnames
      · cases h
    · cases h
  · rintro ⟨user, rest, hp, h⟩
    obtain ⟨rfl, rfl⟩ := Path.mk.inj hp
    simp only [String.toList_ofList, h, Option.map_none]

end Surroundings

namespace SettingsError

/-- The command reports the error as one of its settings, and not as one that nobody expected. -/
def IsReported (e : SettingsError) : Prop := Failure.ofSettings e = .settings e

theorem isReported_iff {e : SettingsError} : e.IsReported ↔ e ≠ .noHome := by
  cases e <;> simp [IsReported, Failure.ofSettings]

end SettingsError

namespace Settings

variable {s : Surroundings} {path : Path} {content : Content} {project settings : Settings}
  {es : Entries} {e : SettingsError}

/-- The record that a project file holds. -/
def HoldsRecord (content : Content) (es : Entries) : Prop :=
  ∃ text, content.read = .ok text ∧ Json.read text = .ok (.map es) ∧ IsRecord es

/-- What the project file says. Where there is none and none is asked for, it says nothing. -/
inductive ProjectSays (s : Surroundings) (path : Path) : Entries → Prop
  | written {content : Content} {es : Entries} (hfile : s.fileAt? path = some content)
      (hrecord : HoldsRecord content es) : ProjectSays s path es
  | nothing (hfile : s.fileAt? path = none) (hunset : s.setting? fileVariable = none) :
      ProjectSays s path []

theorem filePath?_eq_some_iff : filePath? s = some path ↔ s.IsProjectPath path := by
  unfold filePath?
  constructor
  · intro h
    split at h
    · next text hset => exact .named hset h
    · next hunset =>
      obtain rfl := Option.some.inj h
      exact .usual hunset
  · rintro (⟨hset, hexpand⟩ | hunset)
    · rw [hset]
      exact hexpand
    · rw [hunset]

theorem filePath?_eq_none_iff : filePath? s = none ↔ s.LacksHome := by
  unfold filePath? Surroundings.LacksHome
  cases hset : s.setting? fileVariable with
  | none => simp
  | some text => simp [Surroundings.expandHome?_eq_none_iff]

theorem ofContent_eq_ok : ofContent path content = .ok settings ↔
    ∃ es, HoldsRecord content es ∧
      ∀ f : SettingField, FirstRead f.reader f.missing [f.entry? es] (f.get settings) := by
  simp only [ofContent, bind_eq_ok, mapError_eq_ok, ofNode_result, HoldsRecord]
  constructor
  · rintro ⟨text, htext, _, hnode, es, rfl, hrecord, h⟩
    exact ⟨es, ⟨text, htext, hnode, hrecord⟩, h⟩
  · rintro ⟨es, ⟨text, htext, hnode, hrecord⟩, h⟩
    exact ⟨text, htext, _, hnode, es, rfl, hrecord, h⟩

theorem isReported_of_ofContent (h : ofContent path content = .error e) : e.IsReported := by
  simp only [ofContent, bind_eq_error, mapError_eq_error] at h
  rcases h with ⟨_, -, rfl⟩ | ⟨_, -, ⟨_, -, rfl⟩ | ⟨_, -, _, -, rfl⟩⟩ <;> rfl

theorem ofProject_of_path (hpath : s.IsProjectPath path) : ofProject s =
    match s.fileAt? path with
    | some content => ofContent path content
    | none => if (s.setting? fileVariable).isSome then .error (.noFile path) else .ok {} := by
  unfold ofProject
  rw [filePath?_eq_some_iff.mpr hpath]
  rfl

theorem ofProject_of_missing (hpath : s.IsProjectPath path) (hfile : s.fileAt? path = none)
    (hset : s.setting? fileVariable ≠ none) : ofProject s = .error (.noFile path) := by
  rw [ofProject_of_path hpath, hfile]
  exact if_pos (Option.isSome_iff_ne_none.mpr hset)

/-- A project file that can be used gives every field what it says of it. -/
theorem ofProject_of_says (hpath : s.IsProjectPath path) (hstated : ProjectSays s path es) :
    ∃ project, ofProject s = .ok project ∧
      ∀ f : SettingField, FirstRead f.reader f.missing [f.entry? es] (f.get project) := by
  rw [ofProject_of_path hpath]
  cases hstated with
  | written hfile hrecord =>
    rw [hfile]
    have hfields := hrecord
    obtain ⟨_, -, -, hvalid⟩ := hfields
    choose value hvalue using hvalid.fields
    refine ⟨ofValues value, ofContent_eq_ok.mpr ⟨es, hrecord, fun f => ?_⟩, fun f => ?_⟩
    · exact get_ofValues value f ▸ hvalue f
    · exact get_ofValues value f ▸ hvalue f
  | nothing hfile hunset =>
    rw [hfile, hunset]
    refine ⟨{}, rfl, fun f => ?_⟩
    cases f with
    | input => exact .silent .missing
    | output => exact .silent .missing
    | option f => cases f <;> exact .silent .missing

theorem overlay_cons (es given : Entries) (key : Scalar) (node : Node) :
    overlay es ((key, node) :: given) =
      overlay (match node.given? with
        | some value => es.insert key value
        | none => es) given := by
  unfold overlay
  rw [List.foldl_cons]
  congr 1
  rcases node with s | _ | _
  · cases s <;> rfl
  · rfl
  · rfl

/-- What is given with the command lies over the rest. -/
theorem get?_overlay {given : Entries} (h : given.Distinct) (es : Entries) (key : String) :
    (overlay es given).get? key = (given.given? key).or (es.get? key) := by
  induction given generalizing es with
  | nil => rfl
  | cons entry given ih =>
    obtain ⟨k, node⟩ := entry
    obtain ⟨hk, hgiven⟩ := List.pairwise_cons.mp h
    rw [overlay_cons, ih hgiven]
    unfold Entries.given?
    by_cases hkey : k = .str key
    · subst hkey
      have hnone : Entries.get? given key = none := by
        rw [Option.eq_none_iff_forall_ne_some]
        intro value hvalue
        have hother := hk _ (Entries.mem_of_get? hvalue)
        rw [Scalar.sameKey_str.mpr rfl] at hother
        cases hother
      rw [hnone, Entries.get?_cons_self]
      cases hnode : node.given? with
      | none => simp [hnode]
      | some value => simp [hnode, Entries.get?_insert_self]
    · rw [Entries.get?_cons_of_ne hkey]
      cases node.given? with
      | none => rfl
      | some value => rw [Entries.get?_insert_of_ne es value hkey]

/-- The text for a field that the environment may set. -/
def chosen (s : Surroundings) (given : Node) (name : String) (field : Option String) : Node :=
  given.given?.getD ((((s.setting? name) <|> field).map .str).getD .null)

/-- A text that is written, or nothing, is read back. -/
theorem optional_text_result (field : Option String) :
    (optional text ((field.map Node.str).getD .null)).result = .ok field := by
  cases field <;> rfl

theorem chosen_result {given : Node} {name : String} {field a : Option String}
    {entry : Option Node} (h : FirstRead (optional text) none [entry] field) :
    (optional text (chosen s given name field)).result = .ok a ↔
      FirstRead (optional text) none [given.given?, (s.setting? name).map .str, entry] a := by
  unfold chosen
  cases given.given? with
  | some node => rw [FirstRead.cons_some_iff, Option.getD_some]
  | none =>
    rw [FirstRead.cons_none_iff, Option.getD_none, Option.orElse_eq_orElse, Option.orElse_eq_or]
    cases s.setting? name with
    | some text => exact FirstRead.cons_some_iff.symm
    | none =>
      rw [Option.none_or, optional_text_result, Option.map_none, FirstRead.cons_none_iff]
      constructor
      · intro ha
        exact Except.ok.inj ha ▸ h
      · intro ha
        rw [h.unique ha]

/-- Settings with the project file at hand: input and output are checked after the options. -/
theorem resolve_of_project {input output : Node} {options : Entries}
    (h : ofProject s = .ok project) : resolve s input output options = (do
      let options ← (Options.ofNode (.map (overlay project.options.fields options))).result.mapError
        .invalidOptions
      let checked : Checked Settings := do
        let input ← (optional text (chosen s input inputVariable project.input)).within "input"
        let output ← (optional text (chosen s output outputVariable project.output)).within "output"
        pure { input, output }
      let settings ← checked.result.mapError .invalidOptions
      return { settings with options }) := by
  have hchosen (given : Node) (name : String) (field : Option String) :
      (match given with
        | .null => (((s.setting? name) <|> field).map Node.str).getD .null
        | node => node) = chosen s given name field := by
    rcases given with sc | _ | _
    · cases sc <;> rfl
    · rfl
    · rfl
  have hinput := hchosen input inputVariable project.input
  have houtput := hchosen output outputVariable project.output
  unfold resolve
  rw [h, ok_bind]
  exact hinput ▸ houtput ▸ rfl

variable {input output : Node} {options : Entries}

theorem resolve_of_error (h : ofProject s = .error e) :
    resolve s input output options = .error e := by
  unfold resolve
  rw [h]
  rfl

theorem invalidOptions_of_resolve (h : ofProject s = .ok project)
    (he : resolve s input output options = .error e) : ∃ issues, e = .invalidOptions issues := by
  rw [resolve_of_project h] at he
  simp only [bind_eq_error, mapError_eq_error] at he
  rcases he with ⟨issues, -, rfl⟩ | ⟨_, -, ⟨issues, -, rfl⟩ | ⟨_, -, he⟩⟩
  · exact ⟨issues, rfl⟩
  · exact ⟨issues, rfl⟩
  · cases he

/-- Settings are found exactly if each field has in its first source what can be read, and then they
hold that. -/
theorem resolve_eq_ok_iff (hkeys : options.Distinct) (hpath : s.IsProjectPath path)
    (hstated : ProjectSays s path es) : resolve s input output options = .ok settings ↔
      ∀ f : SettingField,
        FirstRead f.reader f.missing (f.sources s input output options es) (f.get settings) := by
  obtain ⟨project, hproject, hfields⟩ := ofProject_of_says hpath hstated
  have hoption (f : OptionField) (a : f.Value) :
      FirstRead f.reader f.missing
          [(overlay project.options.fields options).get? f.key] a ↔
        FirstRead f.reader f.missing
          (SettingField.sources s input output options es (.option f)) a := by
    refine Iff.trans ?_
      (FirstRead.cons_congr (project.options.firstRead_fields f) (hfields (.option f)))
    rw [get?_overlay hkeys]
    cases options.given? f.key with
    | none => rw [Option.none_or, FirstRead.cons_none_iff]
    | some node => rw [Option.some_or, FirstRead.cons_some_iff, FirstRead.cons_some_iff]
  have hinput : FirstRead (optional text) none [SettingField.entry? es .input] project.input :=
    hfields .input
  have houtput : FirstRead (optional text) none [SettingField.entry? es .output] project.output :=
    hfields .output
  rw [resolve_of_project hproject]
  simp only [bind_eq_ok, mapError_eq_ok, pure_eq_ok, Checked.bind_result, Checked.within_result,
    Checked.pure_result, Options.ofNode_result, chosen_result hinput, chosen_result houtput]
  constructor
  · rintro ⟨o, ⟨_, hmap, ho⟩, _, ⟨input, hinput, output, houtput, rfl⟩, rfl⟩ f
    obtain rfl := Node.map.inj hmap
    cases f with
    | input => exact hinput
    | output => exact houtput
    | option f => exact (hoption f _).mp (ho f)
  · intro h
    exact ⟨settings.options, ⟨_, rfl, fun f => (hoption f _).mpr (h (.option f))⟩, _,
      ⟨_, h .input, _, h .output, rfl⟩, rfl⟩

/-- A setting depends on its own sources alone, whatever these and others say of other settings. -/
theorem get_eq_of_sources {s' : Surroundings} {input' output' : Node} {options' es' : Entries}
    {path' : Path} {settings' : Settings} {f : SettingField} (hkeys : options.Distinct)
    (hkeys' : options'.Distinct) (hpath : s.IsProjectPath path) (hpath' : s'.IsProjectPath path')
    (hstated : ProjectSays s path es) (hstated' : ProjectSays s' path' es')
    (h : resolve s input output options = .ok settings)
    (h' : resolve s' input' output' options' = .ok settings')
    (hsources : f.sources s input output options es = f.sources s' input' output' options' es') :
    f.get settings = f.get settings' := by
  have hvalue := (resolve_eq_ok_iff hkeys hpath hstated).mp h f
  rw [hsources] at hvalue
  exact hvalue.unique ((resolve_eq_ok_iff hkeys' hpath' hstated').mp h' f)

/-- No settings are found, for a reason that the command reports. -/
def Refused (found : Except SettingsError Settings) : Prop := ∃ e, found = .error e ∧ e.IsReported

theorem not_refused_noHome : ¬ Refused (.error .noHome) := by
  rintro ⟨e, he, hreported⟩
  obtain rfl := Except.error.inj he
  exact SettingsError.isReported_iff.mp hreported rfl

theorem resolve_of_lacksHome (h : s.LacksHome) :
    resolve s input output options = .error .noHome := by
  apply resolve_of_error
  unfold ofProject
  rw [filePath?_eq_none_iff.mpr h]
  rfl

theorem refused_of_missing (hpath : s.IsProjectPath path) (hfile : s.fileAt? path = none)
    (hset : s.setting? fileVariable ≠ none) : Refused (resolve s input output options) :=
  ⟨.noFile path, resolve_of_error (ofProject_of_missing hpath hfile hset), rfl⟩

theorem refused_of_invalid {content : Content} (hpath : s.IsProjectPath path)
    (hfile : s.fileAt? path = some content) (hinvalid : ∀ es, ¬ HoldsRecord content es) :
    Refused (resolve s input output options) := by
  have hproject : ofProject s = ofContent path content := by
    rw [ofProject_of_path hpath, hfile]
  cases hcontent : ofContent path content with
  | error e =>
    rw [hcontent] at hproject
    exact ⟨e, resolve_of_error hproject, isReported_of_ofContent hcontent⟩
  | ok settings =>
    obtain ⟨es, hrecord, -⟩ := ofContent_eq_ok.mp hcontent
    exact absurd hrecord (hinvalid es)

theorem refused_of_unread (hkeys : options.Distinct) (hpath : s.IsProjectPath path)
    (hstated : ProjectSays s path es) (f : SettingField)
    (hunread : ∀ a, ¬ FirstRead f.reader f.missing (f.sources s input output options es) a) :
    Refused (resolve s input output options) := by
  cases hfound : resolve s input output options with
  | error e =>
    obtain ⟨project, hproject, -⟩ := ofProject_of_says hpath hstated
    obtain ⟨issues, rfl⟩ := invalidOptions_of_resolve hproject hfound
    exact ⟨_, rfl, rfl⟩
  | ok settings =>
    exact absurd ((resolve_eq_ok_iff hkeys hpath hstated).mp hfound f) (hunread _)

theorem resolve_of_read (hkeys : options.Distinct) (hpath : s.IsProjectPath path)
    (hstated : ProjectSays s path es)
    (hread : ∀ f : SettingField, ∃ a,
      FirstRead f.reader f.missing (f.sources s input output options es) a) :
    ∃ settings, resolve s input output options = .ok settings ∧ ∀ f : SettingField,
      FirstRead f.reader f.missing (f.sources s input output options es) (f.get settings) := by
  choose value hvalue using hread
  have hvalues (f : SettingField) : FirstRead f.reader f.missing
      (f.sources s input output options es) (f.get (ofValues value)) :=
    get_ofValues value f ▸ hvalue f
  exact ⟨_, (resolve_eq_ok_iff hkeys hpath hstated).mpr hvalues, hvalues⟩

/-- Where the path of the project file starts from a home directory that there is not, nothing is
found, for a reason that the command does not expect. Else a project file that is asked for but
missing is refused, and so is one that does not hold a record of settings, whatever the other
sources say. Where the project file says something that can be used, or is not there, each field is
what its first source says, and all is refused if one of these cannot be read. -/
theorem settings_from_sources (s : Surroundings) (input output : Node) (options : Entries)
    (hkeys : options.Distinct) :
    let found := resolve s input output options
    (s.LacksHome → found = .error .noHome ∧ ¬ Refused found) ∧
    (¬ s.LacksHome → ∃ path, s.IsProjectPath path ∧
      (s.setting? fileVariable ≠ none → s.fileAt? path = none → Refused found) ∧
      (∀ content, s.fileAt? path = some content → (∀ project, ¬ HoldsRecord content project) →
        Refused found) ∧
      ∀ project, ProjectSays s path project →
        ((∃ f : SettingField, ∀ a,
            ¬ FirstRead f.reader f.missing (f.sources s input output options project) a) →
          Refused found) ∧
        ((∀ f : SettingField, ∃ a,
            FirstRead f.reader f.missing (f.sources s input output options project) a) →
          ∃ settings, found = .ok settings ∧ ∀ f : SettingField,
            FirstRead f.reader f.missing (f.sources s input output options project)
              (f.get settings))) := by
  intro found
  constructor
  · intro hhome
    have hnone : found = .error .noHome := resolve_of_lacksHome hhome
    exact ⟨hnone, hnone ▸ not_refused_noHome⟩
  · intro hhome
    obtain ⟨path, hpath⟩ := Option.ne_none_iff_exists'.mp (mt filePath?_eq_none_iff.mp hhome)
    rw [filePath?_eq_some_iff] at hpath
    refine ⟨path, hpath, ?missing, ?invalid, fun project hstated => ⟨?unread, ?read⟩⟩
    case missing => exact fun hset hfile => refused_of_missing hpath hfile hset
    case invalid => exact fun content hfile hinvalid => refused_of_invalid hpath hfile hinvalid
    case unread => exact fun ⟨f, hunread⟩ => refused_of_unread hkeys hpath hstated f hunread
    case read => exact fun hread => resolve_of_read hkeys hpath hstated hread

end Settings

namespace Settings.PetShop

def projectText : String :=
  "\x7b\"input\":\"a.json\",\"output\":\"out\"," ++
    "\"options\":\x7b\"http_client\":\"xhr\",\"indent\":\"2\"\x7d\x7d"

def surroundings : Surroundings where
  files := FileTree.putFile {} ["work", "specgen.json"] (.text projectText)
  current := ["work"]
  environment := [("HOME", "/home/user"), ("SPECGEN_INPUT", "env.json"), ("SPECGEN_OUTPUT", "")]
  fetch := fun _ => .failure "offline"

def project : Entries :=
  [(.str "input", .str "a.json"), (.str "output", .str "out"),
    (.str "options", .map [(.str "http_client", .str "xhr"), (.str "indent", .str "2")])]

def options : Entries :=
  [(.str "indent", .str "tab"), (.str "use_union_types", .null), (.str "use_options", .str "YES")]

def settings : Settings where
  input := some "env.json"
  output := some "out"
  options := { transport := .xhr, useOptions := true, indent := .tab }

theorem firstRead_settings (f : SettingField) : FirstRead f.reader f.missing
    (f.sources surroundings .null .null options project) (f.get settings) := by
  cases f with
  | input => exact .silent (.read rfl)
  | output => exact .silent (.silent (.read rfl))
  | option f =>
    cases f
    case transport => exact .silent (.read rfl)
    case indent => exact .read rfl
    case useOptions => exact .read rfl
    all_goals exact .silent (.silent .missing)

theorem isProjectPath_iff {path : Path} :
    surroundings.IsProjectPath path ↔ path = .ofPlace ["work", "specgen.json"] := by
  rw [← filePath?_eq_some_iff]
  exact Option.some_inj.trans eq_comm

theorem says_project : ProjectSays surroundings (.ofPlace ["work", "specgen.json"]) project := by
  have hfields (f : SettingField) : ∃ a, FirstRead f.reader f.missing [f.entry? project] a := by
    cases f with
    | input => exact ⟨_, .read rfl⟩
    | output => exact ⟨_, .read rfl⟩
    | option f =>
      cases f
      case transport => exact ⟨_, .read rfl⟩
      case indent => exact ⟨_, .read rfl⟩
      all_goals exact ⟨_, .silent .missing⟩
  have hmap (node : Node) (h : Entries.get? project "options" = some node) : node.isMap := by
    obtain rfl := Option.some.inj h
    rfl
  exact .written rfl ⟨_, rfl, rfl, by decide, hmap, hfields⟩

/-- Input comes from the environment, output and transport come from the project file, and the
command has its way with the indentation. -/
theorem settings_pet_shop : options.Distinct ∧ ¬ surroundings.LacksHome ∧
    ProjectSays surroundings (.ofPlace ["work", "specgen.json"]) project ∧
    resolve surroundings .null .null options = .ok settings := by
  have hkeys : options.Distinct := by
    unfold Entries.Distinct
    decide
  have hhome : ¬ surroundings.LacksHome := by
    rw [← filePath?_eq_none_iff]
    exact nofun
  obtain ⟨-, h⟩ := settings_from_sources surroundings .null .null options hkeys
  obtain ⟨path, hpath, -, -, h⟩ := h hhome
  obtain rfl := isProjectPath_iff.mp hpath
  obtain ⟨-, h⟩ := h project says_project
  obtain ⟨found, hfound, hfields⟩ := h fun f => ⟨_, firstRead_settings f⟩
  have hsettings : found = settings :=
    ext_get fun f => (hfields f).unique (firstRead_settings f)
  exact ⟨hkeys, hhome, says_project, hsettings ▸ hfound⟩

end Settings.PetShop

namespace Settings.LostHome

/-- The project file is to be in the home directory of a user whom nobody knows. -/
def surroundings : Surroundings where
  files := {}
  environment := [("HOME", "/home/user"), ("SPECGEN_CONFIG", "~ghost/specgen.json")]
  users := [("root", "/root"), ("user", "/home/user")]
  fetch := fun _ => .failure "offline"

/-- There is no such file, nor any other, but this is not what the command reports. -/
theorem missing_file_unreported :
    surroundings.setting? fileVariable = some "~ghost/specgen.json" ∧
    (∀ path, surroundings.fileAt? path = none) ∧
    resolve surroundings .null .null [] = .error .noHome ∧
    ¬ Refused (resolve surroundings .null .null []) ∧
    Failure.ofSettings .noHome = .unexpected "Could not determine home directory." := by
  have hresolve : resolve surroundings .null .null [] = .error .noHome := rfl
  refine ⟨rfl, fun path => ?_, hresolve, hresolve ▸ not_refused_noHome, rfl⟩
  have hentry (place : Place) (content : Content) :
      surroundings.files.entry? place ≠ some (.file content) := by
    unfold FileTree.entry?
    split_ifs <;> exact nofun
  unfold Surroundings.fileAt? FileTree.fileAt?
  split
  · next content hfile =>
    obtain ⟨place, -, hplace⟩ := Option.bind_eq_some_iff.mp hfile
    exact absurd hplace (hentry place content)
  · rfl

end Settings.LostHome

end ClientGen
