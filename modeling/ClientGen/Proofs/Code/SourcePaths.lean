import ClientGen.Code.SourceFile
import ClientGen.Proofs.Api.ClientNames
import ClientGen.Proofs.Text.Splitting
import ClientGen.Workspace.Path

/-! Where the source files of a client lie: no two at one place, and none below another. -/

namespace ClientGen

namespace Path

/-- A text that a path keeps as one of its names. -/
structure IsSegment (name : String) : Prop where
  slashless : '/' ∉ name.toList
  not_empty : name ≠ ""
  not_dot : name ≠ "."

theorem IsSegment.names_ofText {name : String} (h : IsSegment name) :
    (ofText name).names = [name] := by
  rw [ofText, Text.splitOn_of_not_mem h.slashless, List.map_singleton, String.ofList_toList]
  simp [h.not_empty, h.not_dot]

theorem IsSegment.names_ofText_below {folder : String} (h : IsSegment folder) (rest : String) :
    (ofText (folder ++ "/" ++ rest)).names = folder :: (ofText rest).names := by
  have hchars : (folder ++ "/" ++ rest).toList = folder.toList ++ '/' :: rest.toList := by
    rw [String.toList_append, String.toList_append, List.append_assoc]
    rfl
  rw [ofText, hchars, Text.splitOn_append h.slashless, List.map_cons, String.ofList_toList]
  simp [h.not_empty, h.not_dot, ofText]

end Path

namespace Language

variable (language : Language)

theorem three_le_length_append_extension (name : String) :
    3 ≤ (name ++ language.extension).toList.length := by
  have hext : language.extension.toList.length = 3 := by cases language <;> rfl
  rw [String.toList_append, List.length_append, hext]
  exact Nat.le_add_left _ _

theorem append_extension_ne_dots (name : String) : name ++ language.extension ≠ ".." := by
  intro h
  have hlong := language.three_le_length_append_extension name
  rw [h] at hlong
  exact absurd hlong (by decide)

theorem isSegment_append_extension {name : String} (h : '/' ∉ name.toList) :
    Path.IsSegment (name ++ language.extension) := by
  have hlong := language.three_le_length_append_extension name
  refine ⟨?_, ?_, ?_⟩
  · have hext : '/' ∉ language.extension.toList := by cases language <;> decide
    rw [String.toList_append]
    exact fun hm => (List.mem_append.mp hm).elim h hext
  · intro h
    rw [h] at hlong
    exact absurd hlong (by decide)
  · intro h
    rw [h] at hlong
    exact absurd hlong (by decide)

end Language

namespace SourceFile

/-- The names of the steps from the folder of a client to a file. -/
def names (file : SourceFile) : List String := (Path.ofText file.path).names

/-- Files at places below a folder that differ and of which none is below another. -/
structure Apart (files : List SourceFile) : Prop where
  nodup : (files.map names).Nodup
  below : ∀ f ∈ files, f.names ≠ [] ∧ ".." ∉ f.names
  eq_of_prefix : ∀ f ∈ files, ∀ g ∈ files, f.names <+: g.names → f.names = g.names

/-- Files at some of the places are apart as well, whatever their texts. -/
theorem Apart.of_sublist {files others : List SourceFile} (h : Apart files)
    (hnames : (others.map names).Sublist (files.map names)) : Apart others := by
  have hmem {g : SourceFile} (hg : g ∈ others) : ∃ f ∈ files, f.names = g.names :=
    List.mem_map.mp (hnames.subset (List.mem_map_of_mem hg))
  refine ⟨hnames.nodup h.nodup, fun g hg => ?_, fun f hf g hg hpre => ?_⟩
  · obtain ⟨f, hf, heq⟩ := hmem hg
    exact heq ▸ h.below f hf
  · obtain ⟨f', hf', hfeq⟩ := hmem hf
    obtain ⟨g', hg', hgeq⟩ := hmem hg
    rw [← hfeq, ← hgeq] at hpre ⊢
    exact h.eq_of_prefix f' hf' g' hg' hpre

theorem Apart.tail {file : SourceFile} {rest : List SourceFile} (h : Apart (file :: rest)) :
    Apart rest := h.of_sublist ((List.sublist_cons_self file rest).map names)

end SourceFile

namespace Client

/-- The names of the models are fit for files, as are those of the services, and no two of a kind
agree. -/
structure WellNamed (client : Client) : Prop where
  models : (client.models.map (·.name)).Nodup
  services : (client.services.map (·.name)).Nodup
  slashless_models : ∀ m ∈ client.models, '/' ∉ m.name.toList
  slashless_services : ∀ s ∈ client.services, '/' ∉ s.name.toList

theorem wellNamed_of_document {doc : ApiDocument} {client : Client} (h : doc.client = .ok client) :
    client.WellNamed := by
  obtain ⟨hms, hservices⟩ := ApiDocument.parts_of_client h
  obtain ⟨hmodels, hnames⟩ := ApiDocument.names_models hms
  obtain ⟨hservices, hclasses⟩ := ApiDocument.names_services hservices
  refine ⟨hmodels, hservices, fun m hm hc => ?_, fun s hs hc => ?_⟩
  · exact absurd ((hnames m hm).isName.2 _ hc) (by decide)
  · obtain ⟨text, heq⟩ := hclasses s hs
    rw [heq] at hc
    exact absurd (Naming.isNameChar_of_mem_serviceClassName text _ hc) (by decide)

/-- The folders of a client, each with the names of its files without their ending. -/
def folders (client : Client) (options : Options) : List (String × List String) :=
  [("core", if options.exportCore then
      ["OpenAPI", "ApiError", "ApiRequestOptions", "ApiResult", "Dictionary", "request"] else []),
    ("models", if options.exportModels then client.models.map (·.name) else []),
    ("services", if options.exportServices then client.services.map (·.name) else [])]

/-- Every file but the index is in one of the folders. -/
theorem paths_sourceFiles (client : Client) (options : Options) :
    (client.sourceFiles options).map SourceFile.path =
      ((client.folders options).flatMap fun folder => folder.2.map fun name =>
        folder.1 ++ "/" ++ (name ++ options.language.extension)) ++
      ["index" ++ options.language.extension] := by
  have hcore : (SourceFile.ofCore client options).map SourceFile.path =
      ["OpenAPI", "ApiError", "ApiRequestOptions", "ApiResult", "Dictionary", "request"].map
        fun name => "core/" ++ name ++ options.language.extension := rfl
  have hmodels : (SourceFile.ofModels client options).map SourceFile.path =
      (client.models.map (·.name)).map
        fun name => "models/" ++ name ++ options.language.extension := by
    rw [SourceFile.ofModels, List.map_map, List.map_map]
    rfl
  have hservices : (SourceFile.ofServices client options).map SourceFile.path =
      (client.services.map (·.name)).map
        fun name => "services/" ++ name ++ options.language.extension := by
    rw [SourceFile.ofServices, List.map_map, List.map_map]
    rfl
  have hslash : "core/" = "core" ++ "/" ∧ "models/" = "models" ++ "/" ∧
      "services/" = "services" ++ "/" := by decide
  have hindex : (SourceFile.index client options).path =
      "index" ++ options.language.extension := rfl
  simp only [sourceFiles, folders, List.map_append, apply_ite (List.map SourceFile.path),
    apply_ite (List.map _), List.map_nil, List.flatMap_cons, List.flatMap_nil, List.append_nil,
    hcore, hmodels, hservices, hslash, String.append_assoc, List.map_singleton, hindex,
    List.append_assoc]

namespace WellNamed

variable {client : Client} (h : client.WellNamed) (options : Options)
include h

theorem nodup_folders : ∀ folder ∈ client.folders options, folder.2.Nodup := by
  have hite {p : Bool} {names : List String} (hn : names.Nodup) :
      (if p then names else []).Nodup := by
    split
    · exact hn
    · exact List.nodup_nil
  simp only [folders, List.forall_mem_cons]
  exact ⟨hite (by decide), hite h.models, hite h.services, fun _ hm => absurd hm List.not_mem_nil⟩

theorem slashless_folders :
    ∀ folder ∈ client.folders options, ∀ name ∈ folder.2, '/' ∉ name.toList := by
  have hite {p : Bool} {names : List String} (hn : ∀ name ∈ names, '/' ∉ name.toList) :
      ∀ name ∈ if p then names else [], '/' ∉ name.toList := by
    split
    · exact hn
    · exact fun _ hm => absurd hm List.not_mem_nil
  simp only [folders, List.forall_mem_cons]
  exact ⟨hite (by decide), hite (List.forall_mem_map.mpr h.slashless_models),
    hite (List.forall_mem_map.mpr h.slashless_services), fun _ hm => absurd hm List.not_mem_nil⟩

theorem names_sourceFiles :
    (client.sourceFiles options).map SourceFile.names =
      ((client.folders options).flatMap fun folder => folder.2.map fun name =>
        [folder.1, name ++ options.language.extension]) ++
      [["index" ++ options.language.extension]] := by
  have hsegment : ∀ folder ∈ client.folders options, Path.IsSegment folder.1 := by
    simp only [folders, List.forall_mem_cons]
    exact ⟨⟨by decide, by decide, by decide⟩, ⟨by decide, by decide, by decide⟩,
      ⟨by decide, by decide, by decide⟩, fun _ hm => absurd hm List.not_mem_nil⟩
  have hpaths : (client.sourceFiles options).map SourceFile.names =
      ((client.sourceFiles options).map SourceFile.path).map fun path =>
        (Path.ofText path).names := by
    rw [List.map_map]
    rfl
  rw [hpaths, paths_sourceFiles, List.map_append, List.map_flatMap, List.map_singleton,
    (options.language.isSegment_append_extension (by decide)).names_ofText]
  congr 1
  refine List.flatMap_congr fun folder hfolder => ?_
  rw [List.map_map]
  refine List.map_congr_left fun name hname => ?_
  have hslash := h.slashless_folders options folder hfolder name hname
  rw [Function.comp_apply, (hsegment folder hfolder).names_ofText_below,
    (options.language.isSegment_append_extension hslash).names_ofText]

/-- The files of a client do not get in each other's way. -/
theorem apart_sourceFiles : SourceFile.Apart (client.sourceFiles options) := by
  have hnames := h.names_sourceFiles options
  -- A file is the index, or it is one step below one of the folders.
  have hcases : ∀ f ∈ client.sourceFiles options,
      f.names = ["index" ++ options.language.extension] ∨
      ∃ folder ∈ ["core", "models", "services"], ∃ name,
        f.names = [folder, name ++ options.language.extension] := by
    intro f hf
    have hmem := hnames ▸ List.mem_map_of_mem hf
    rcases List.mem_append.mp hmem with hmem | hmem
    · obtain ⟨folder, hfolder, hmem⟩ := List.mem_flatMap.mp hmem
      obtain ⟨name, -, heq⟩ := List.mem_map.mp hmem
      exact .inr ⟨folder.1, List.mem_map_of_mem hfolder, name, heq.symm⟩
    · exact .inl (List.mem_singleton.mp hmem)
  have hindex : "index" ++ options.language.extension ∉ ["core", "models", "services"] := by
    cases options.language <;> decide
  have hplain := options.language.append_extension_ne_dots
  refine ⟨?_, ?_, ?_⟩
  · have hfolders : ((client.folders options).map Prod.fst).Nodup :=
      (by decide : ["core", "models", "services"].Nodup)
    rw [hnames]
    refine List.nodup_append'.mpr ⟨List.nodup_flatMap.mpr ⟨fun folder hfolder => ?_, ?_⟩,
      List.nodup_singleton _, ?_⟩
    · refine (h.nodup_folders options folder hfolder).map fun a b heq => ?_
      exact (String.append_left_inj _).mp (List.cons.inj (List.cons.inj heq).2).1
    · refine (List.pairwise_map.mp hfolders).imp fun hne f hf hf' => ?_
      obtain ⟨name, -, rfl⟩ := List.mem_map.mp hf
      obtain ⟨name', -, heq⟩ := List.mem_map.mp hf'
      exact hne (List.cons.inj heq).1.symm
    · intro f hf hf'
      obtain rfl := List.mem_singleton.mp hf'
      obtain ⟨folder, hfolder, hf⟩ := List.mem_flatMap.mp hf
      obtain ⟨name, -, heq⟩ := List.mem_map.mp hf
      exact absurd (List.cons.inj heq).2 (List.cons_ne_nil _ _)
  · intro f hf
    rcases hcases f hf with heq | ⟨folder, hfolder, name, heq⟩
    · simp [heq, (hplain "index").symm]
    · have hdots : ".." ≠ folder := by
        rintro rfl
        exact absurd hfolder (by decide)
      simp [heq, hdots, (hplain name).symm]
  · intro f hf g hg hpre
    rcases hcases f hf with hf | ⟨folder, hfolder, name, hf⟩ <;>
      rcases hcases g hg with hg | ⟨folder', hfolder', name', hg⟩
    · exact hf.trans hg.symm
    · rw [hf, hg] at hpre
      obtain ⟨heq, -⟩ := List.cons_prefix_cons.mp hpre
      exact absurd (heq ▸ hfolder') hindex
    · rw [hf, hg] at hpre
      exact absurd hpre.length_le (Nat.not_succ_le_self 1)
    · rw [hf, hg] at hpre ⊢
      exact hpre.eq_of_length rfl

end WellNamed

end Client

end ClientGen
