import ClientGen.Command.Run
import ClientGen.Proofs.Workspace.Replacement
import Mathlib.Data.List.Infix

/-! What generating a client does to the files: all that can fail comes before the first change. -/

namespace ClientGen

open ClientFolder FileTree

/-- A command that fails and leaves the files as they were. -/
structure Outcome.Keeps (o : Outcome) (files : FileTree) (f : Failure) : Prop where
  files : o.files = files
  ending : o.ending = .failure f

/-- The files of a folder are replaced by others. Beside that, there are new directories only where
the way to the folder makes a detour. -/
structure Outcome.Replaced (o : Outcome) (s : Surroundings) (target : Path)
    (files : List SourceFile) : Prop where
  straight : target.Straight s.current s.files →
    Replaces (s.placeOf target) files s.files o.files
  grown : ∃ replaced, Replaces (s.placeOf target) files s.files replaced ∧
    Grows (target.Passes s.current) replaced o.files

namespace Command

variable {w : Wording} {report : Report} {s : Surroundings} {input output : String}
  {options : Options} {doc : ApiDocument}

theorem keeps_of_noDocument {f : Failure} (h : loadDocument s input = .error f) :
    (generateFrom w report s input output options).Keeps s.files f := by
  unfold generateFrom resolveClient
  dsimp only
  rw [h]
  exact ⟨rfl, rfl⟩

theorem keeps_of_noClient {fault : Fault} (hdoc : loadDocument s input = .ok doc)
    (h : doc.client = .error fault) :
    (generateFrom w report s input output options).Keeps s.files (.ofFault fault) := by
  unfold generateFrom resolveClient
  dsimp only
  rw [hdoc]
  dsimp only
  rw [h]
  exact ⟨rfl, rfl⟩

/-- With a client the generation ends as its writing does. -/
theorem generateFrom_of_client {client : Client} (hdoc : loadDocument s input = .ok doc)
    (h : doc.client = .ok client) :
    (generateFrom w report s input output options).files =
        (client.write options s (Path.ofText output)).1 ∧
      (generateFrom w report s input output options).ending =
        match (client.write options s (Path.ofText output)).2 with
        | .ok _ => .success
        | .error e => .failure (.ofWrite e) := by
  unfold generateFrom resolveClient
  dsimp only
  rw [hdoc]
  dsimp only
  rw [h]
  simp only [Except.map, Except.mapError]
  generalize client.write options s (Path.ofText output) = result
  obtain ⟨files, ending⟩ := result
  cases ending with
  | ok place => exact ⟨rfl, rfl⟩
  | error e => exact ⟨rfl, rfl⟩

/-- A generation into a folder that is not refused is stopped by the file system, or it writes the
files up to the first text without bytes and ends as there is such a text or none. -/
theorem generateFrom_of_rendered (w : Wording) (report : Report) {client : Client} {files : List SourceFile}
    (hdoc : loadDocument s input = .ok doc) (hclient : doc.client = .ok client)
    (hrender : client.render options s.missingTemplates = .ok files)
    (hfree : refusal? s (Path.ofText output) = none) :
    let target := Path.ofText output
    let o := generateFrom w report s input output options
    (∃ fault, (replace s target files).2 = .error (.failed target fault) ∧
      o.ending = .failure (.write (.failed target fault))) ∨
    ∃ t, reset s target = .ok t ∧
      writeFiles s.current target t (reached files) = (o.files, none) ∧
      (files.findSome? SourceFile.unencodable? = none → o.ending = .success) ∧
      ∀ run, files.findSome? SourceFile.unencodable? = some run →
        o.ending = .failure (.unexpected run.message) := by
  intro target o
  obtain ⟨hfiles, hending⟩ : o.files = _ ∧ o.ending = _ := generateFrom_of_client hdoc hclient
  rw [Client.write_of_rendered hrender] at hfiles hending
  rcases replace_cases files hfree with ⟨after, fault, h⟩ | ⟨t, after, hreset, hwritten, h⟩
  · rw [h] at hending
    exact .inl ⟨fault, congrArg Prod.snd h, hending⟩
  · rw [h] at hfiles
    rw [h, ending] at hending
    refine .inr ⟨t, hreset, hfiles ▸ hwritten, fun hnone => ?_, fun run hrun => ?_⟩
    · rw [hnone] at hending
      exact hending
    · rw [hrun] at hending
      exact hending

/-- A generation keeps all files if there is no document, no client of it, no rendering of the
client, or a reason not to replace the folder. Otherwise it replaces the folder by the files of the
client, unless the file system refuses, which it does not where no file is in the way. But if a text
of the client has no bytes, the generation fails after the folder was emptied, and the folder has
the files before that one and an empty one in its place. -/
theorem generateFrom_keeps_or_replaces (w : Wording) (report : Report) (s : Surroundings)
    (input output : String) (options : Options) (hcurrent : ".." ∉ s.current) :
    let target := Path.ofText output
    let o := generateFrom w report s input output options
    (∀ f, loadDocument s input = .error f → o.Keeps s.files f) ∧
    ∀ doc, loadDocument s input = .ok doc →
      (∀ fault, doc.client = .error fault → o.Keeps s.files (.ofFault fault)) ∧
      ∀ client, doc.client = .ok client →
        (∀ e, client.render options s.missingTemplates = .error e →
          o.Keeps s.files (.write (.unrendered e))) ∧
        ∀ files, client.render options s.missingTemplates = .ok files →
          (∀ e, Refuses s target e → o.Keeps s.files (.ofWrite e)) ∧
          ((∀ e, ¬ Refuses s target e) →
            ((∀ f ∈ files, f.unencodable? = none) →
              o.ending = .success ∨ ∃ fault, o.ending = .failure (.write (.failed target fault))) ∧
            (∀ run, files.findSome? SourceFile.unencodable? = some run →
              o.ending = .failure (.unexpected run.message) ∧ o.Replaced s target (reached files) ∨
              ∃ fault, o.ending = .failure (.write (.failed target fault))) ∧
            (".." ∉ target.names →
              (∀ above, above <+: s.placeOf target →
                ∀ content, s.files.entry? above ≠ some (.file content)) →
              ∀ fault, o.ending ≠ .failure (.write (.failed target fault)))) ∧
          (o.ending = .success →
            (∀ f ∈ files, f.unencodable? = none) ∧ o.Replaced s target files) := by
  intro target o
  refine ⟨fun f h => keeps_of_noDocument h, fun doc hdoc =>
    ⟨fun fault h => keeps_of_noClient hdoc h, fun client hclient => ?_⟩⟩
  obtain ⟨hfiles, hending⟩ : o.files = _ ∧ o.ending = _ := generateFrom_of_client hdoc hclient
  refine ⟨fun e hrender => ?_, fun files hrender => ?_⟩
  · rw [Client.write_of_unrendered hrender] at hfiles hending
    exact ⟨hfiles, hending⟩
  have hrefused {e : WriteError} (h : Refuses s target e) : o.Keeps s.files (.ofWrite e) := by
    rw [Client.write_of_rendered hrender, replace_of_refused (refusal?_eq_some.mpr h)]
      at hfiles hending
    exact ⟨hfiles, hending⟩
  cases hrefusal : refusal? s target with
  | some e =>
    have hrefuses := refusal?_eq_some.mp hrefusal
    exact ⟨fun _ => hrefused, fun hnone => absurd hrefuses (hnone e),
      fun hdone => by cases (hrefused hrefuses).ending.symm.trans hdone⟩
  | none =>
    refine ⟨fun _ => hrefused, ?_⟩
    have happart : SourceFile.Apart files :=
      (Client.render_eq_ok.mp hrender).1 ▸
        (Client.wellNamed_of_document hclient).apart_sourceFiles options
    rcases generateFrom_of_rendered w report hdoc hclient hrender hrefusal with
      ⟨fault, hfailed, hstopped⟩ | ⟨t, hreset, hwritten, hdone, hbroken⟩
    · refine ⟨fun _ => ⟨fun _ => .inr ⟨fault, hstopped⟩, fun _ _ => .inr ⟨fault, hstopped⟩,
        fun hplain hclear => ?_⟩, fun hsuccess => by cases hstopped.symm.trans hsuccess⟩
      -- Where no file is in the way, the file system stops nothing.
      have hends := replace_isOk hcurrent happart hplain hrefusal hclear
      rw [hfailed, ending] at hends
      split at hends <;> cases hends
    · have hreplaced : o.Replaced s target (reached files) := by
        obtain ⟨hstraight, hgrown⟩ := replaces_of_writeFiles hcurrent
          (happart.of_sublist (names_reached files)) hreset hwritten
        exact ⟨hstraight, hgrown⟩
      have hunstopped (fault) : o.ending ≠ .failure (.write (.failed target fault)) := by
        intro hstopped
        cases hrun : files.findSome? SourceFile.unencodable? with
        | none => cases (hdone hrun).symm.trans hstopped
        | some run => cases (hbroken run hrun).symm.trans hstopped
      refine ⟨fun _ => ⟨fun hruns => .inl (hdone (List.findSome?_eq_none_iff.mpr hruns)),
        fun run hrun => .inl ⟨hbroken run hrun, hreplaced⟩, fun _ _ => hunstopped⟩,
        fun hsuccess => ?_⟩
      cases hrun : files.findSome? SourceFile.unencodable? with
      | none =>
        have hruns := List.findSome?_eq_none_iff.mp hrun
        exact ⟨hruns, reached_eq_self hruns ▸ hreplaced⟩
      | some run => cases (hbroken run hrun).symm.trans hsuccess

namespace Refresh

/-- The file of an earlier client. -/
def stale : Place := ["work", "client", "old.ts"]

def surroundings (document : String) : Surroundings where
  files := FileTree.putFile {} stale (.text "stale")
  current := ["work"]
  environment := [("HOME", "/home/user")]
  standardInput := document
  fetch := fun _ => .failure "offline"

def modelsOnly : Options := { exportCore := false, exportServices := false }

def outcome (document output : String) : Outcome :=
  generateFrom .full {} (surroundings document) "-" output modelsOnly

def emptyText : String := "\x7b\"openapi\":\"3\"\x7d"

def emptyDocument : ApiDocument where
  dialect := .openApi3
  root := .map [(.str "openapi", .str "3")]
  schemas := []

/-- A client of no models and no services takes the place of an earlier one. -/
theorem generation_replaces_client : ".." ∉ ["work"] ∧
    loadDocument (surroundings emptyText) "-" = .ok emptyDocument ∧
    emptyDocument.client = .ok {} ∧ (outcome emptyText "client").ending = .success ∧
    Replaces ["work", "client"] (Client.sourceFiles {} modelsOnly) (surroundings emptyText).files
      (outcome emptyText "client").files := by
  let s := surroundings emptyText
  let target := Path.ofText "client"
  have hdocument : loadDocument (surroundings emptyText) "-" = .ok emptyDocument :=
    bind_eq_ok.mpr ⟨emptyDocument.root, mapError_eq_ok.mpr rfl,
      bind_eq_ok.mpr ⟨.openApi3, rfl, rfl⟩⟩
  have hclient : emptyDocument.client = .ok {} := rfl
  have hrender : Client.render {} modelsOnly s.missingTemplates =
      .ok (Client.sourceFiles {} modelsOnly) :=
    Client.render_eq_ok.mpr ⟨rfl, by simp [s, surroundings]⟩
  have hplace : s.placeOf target = ["work", "client"] := by decide
  have hdirs : ∀ above ∈ ["work", "client"].inits, s.files.entry? above = some .directory := by
    decide
  have hclear : ∀ above, above <+: s.placeOf target →
      ∀ content, s.files.entry? above ≠ some (.file content) := by
    intro above habove content hfile
    rw [hplace] at habove
    rw [hdirs above ((List.mem_inits _ _).mpr habove)] at hfile
    cases hfile
  have hfree : refusal? s target = none := by decide
  have hfree : ∀ e, ¬ Refuses s target e := fun e he =>
    Option.some_ne_none e ((refusal?_eq_some.mpr he).symm.trans hfree)
  have hruns : ∀ f ∈ Client.sourceFiles {} modelsOnly, f.unencodable? = none := by decide +kernel
  have hcurrent : ".." ∉ ["work"] := by decide
  obtain ⟨-, h⟩ := generateFrom_keeps_or_replaces .full {} s "-" "client" modelsOnly hcurrent
  obtain ⟨-, h⟩ := h emptyDocument hdocument
  obtain ⟨-, h⟩ := h {} hclient
  obtain ⟨-, hends, hreplaced⟩ := h _ hrender
  obtain ⟨hdone, -, hnofault⟩ := hends hfree
  have hsuccess := (hdone hruns).resolve_right fun ⟨fault, hfailed⟩ =>
    hnofault (by decide) hclear fault hfailed
  exact ⟨hcurrent, hdocument, hclient, hsuccess,
    (hreplaced hsuccess).2.straight (Path.straight_of_plain (by decide) _ _)⟩

/-- A schema with half of a surrogate pair for a description. -/
def halfText : String :=
  "\x7b\"openapi\":\"3\",\"components\":\x7b\"schemas\":\x7b\"Pet\":" ++
    "\x7b\"description\":\"\\ud800\"\x7d\x7d\x7d\x7d"

def half : String := String.ofList (Text.Point.half 0).spelling

def pet : Node := .map [(.str "description", .str half)]

def halfDocument : ApiDocument where
  dialect := .openApi3
  root := .map [(.str "openapi", .str "3"),
    (.str "components", .map [(.str "schemas", .map [(.str "Pet", pet)])])]
  schemas := [(.str "Pet", pet)]

def petModel : Model where
  name := "Pet"
  shape := .generic
  isDefinition := true
  description := some half

def halfClient : Client := { server := "", version := "1.0", models := [petModel] }

theorem client_half : halfDocument.client = .ok halfClient := by
  have hcomment : Naming.comment half = some half := by decide +kernel
  have hmodel : halfDocument.model pet true "Pet" = .ok petModel := by
    refine (ApiDocument.build_of_makes rfl rfl
      (.plain rfl rfl rfl (.keyword rfl rfl rfl rfl))).trans ?_
    rw [hcomment]
    rfl
  have hmodels : halfDocument.models = .ok [petModel] := by
    have hname : ApiDocument.modelName .openApi3 (.str "Pet") = "Pet" := by decide +kernel
    have hkept : ApiDocument.keepFirst [] halfDocument.declarations =
        [⟨.str "Pet", "Pet", pet⟩] := by
      simp [ApiDocument.declarations, halfDocument, ApiDocument.keepFirst, hname]
    refine ApiDocument.models_eq_ok.mpr ⟨by decide, ?_⟩
    rw [hkept]
    exact mapM_eq_ok.mpr (.cons hmodel .nil)
  exact bind_eq_ok.mpr ⟨_, hmodels, bind_eq_ok.mpr ⟨[], rfl,
    bind_eq_ok.mpr ⟨"", rfl, bind_eq_ok.mpr ⟨"1.0", rfl, rfl⟩⟩⟩⟩

/-- A generation that fails at a text without bytes has removed the earlier client. One that goes a
detour makes a directory on it. -/
theorem generation_loses_client :
    entry? (surroundings halfText).files stale = some (.file (.text "stale")) ∧
    ((outcome halfText "client").ending =
        .failure (.unexpected
          "'utf-8' codec can't encode character '\\ud800' in position 7: surrogates not allowed") ∧
      entry? (outcome halfText "client").files stale = none ∧
      entry? (outcome halfText "client").files ["work", "client", "models", "Pet.ts"] =
        some (.file (.text ""))) ∧
    entry? (surroundings emptyText).files ["work", "new"] = none ∧
    (outcome emptyText "new/../client").ending = .success ∧
    entry? (outcome emptyText "new/../client").files ["work", "new"] = some .directory := by
  have hdocument : loadDocument (surroundings halfText) "-" = .ok halfDocument :=
    bind_eq_ok.mpr ⟨halfDocument.root, mapError_eq_ok.mpr rfl,
      bind_eq_ok.mpr ⟨.openApi3, rfl, rfl⟩⟩
  obtain ⟨hfiles, hending⟩ : (outcome halfText "client").files = _ ∧ _ :=
    generateFrom_of_client hdocument client_half
  have hwritten :
      let result := halfClient.write modelsOnly (surroundings halfText) (.ofText "client")
      result.2 = .error (.unencodable ⟨7, 1, 0xd800⟩) ∧ entry? result.1 stale = none ∧
        entry? result.1 ["work", "client", "models", "Pet.ts"] = some (.file (.text "")) := by
    decide +kernel
  obtain ⟨hresult, hstale, hempty⟩ := hwritten
  rw [hresult] at hending
  rw [hfiles]
  have hmessage : Text.Unencodable.message ⟨7, 1, 0xd800⟩ =
      "'utf-8' codec can't encode character '\\ud800' in position 7: surrogates not allowed" := by
    decide +kernel
  have hdetour : (outcome emptyText "new/../client").ending = .success ∧
      entry? (outcome emptyText "new/../client").files ["work", "new"] = some .directory := by
    decide +kernel
  exact ⟨by decide, ⟨hmessage ▸ hending, hstale, hempty⟩, by decide, hdetour⟩

end Refresh

theorem generateFrom_cases (w : Wording) (report : Report) (s : Surroundings)
    (input output : String) (options : Options) :
    let o := generateFrom w report s input output options
    o.files = s.files ∨ o.ending = .success ∨
      (∃ path fault, o.ending = .failure (.write (.failed path fault))) ∨
      ∃ run : Text.Unencodable, o.ending = .failure (.unexpected run.message) := by
  intro o
  cases hdoc : loadDocument s input with
  | error f => exact .inl (keeps_of_noDocument hdoc).files
  | ok doc =>
    cases hclient : doc.client with
    | error fault => exact .inl (keeps_of_noClient hdoc hclient).files
    | ok client =>
      have hfiles : o.files = (client.write options s (Path.ofText output)).1 :=
        (generateFrom_of_client hdoc hclient).1
      rcases client.write_cases options s (Path.ofText output) with
        ⟨_, -, h⟩ | ⟨files, hrender, ⟨_, -, h⟩ | ⟨hfree, -⟩⟩
      · exact .inl (hfiles.trans (congrArg Prod.fst h))
      · exact .inl (hfiles.trans (congrArg Prod.fst h))
      · rcases generateFrom_of_rendered w report hdoc hclient hrender hfree with
          ⟨fault, -, hstopped⟩ | ⟨_, -, -, hdone, hbroken⟩
        · exact .inr (.inr (.inl ⟨_, fault, hstopped⟩))
        · cases hrun : files.findSome? SourceFile.unencodable? with
          | none => exact .inr (.inl (hdone hrun))
          | some run => exact .inr (.inr (.inr ⟨run, hbroken run hrun⟩))

/-- A command touches files only to generate a client, and then it succeeds, or it fails for the
file system's sake or at a text without bytes. -/
theorem run_keeps_files (w : Wording) (report : Report) (s : Surroundings) (command : Command) :
    let o := run w report s command
    o.files = s.files ∨ (∃ input output options, command = .generate input output options) ∧
      (o.ending = .success ∨ (∃ path fault, o.ending = .failure (.write (.failed path fault))) ∨
        ∃ run : Text.Unencodable, o.ending = .failure (.unexpected run.message)) := by
  cases command with
  | generate input output options =>
    have hgenerate : let o := generateClient w report s input output options
        o.files = s.files ∨ o.ending = .success ∨
          (∃ path fault, o.ending = .failure (.write (.failed path fault))) ∨
          ∃ run : Text.Unencodable, o.ending = .failure (.unexpected run.message) := by
      unfold generateClient
      dsimp only
      split
      · exact .inl rfl
      · split
        · exact .inl rfl
        · exact .inl rfl
        · exact generateFrom_cases w report s _ _ _
    exact hgenerate.imp_right fun h => ⟨⟨input, output, options, rfl⟩, h⟩
  | inspect subject input =>
    refine .inl ?_
    change (inspectClient w report s subject input).files = s.files
    unfold inspectClient
    split
    · rfl
    · split
      · rfl
      · dsimp only
        split <;> rfl

end Command

end ClientGen
