import ClientGen.Proofs.Code.SourcePaths

/-! The listing of the source files of a client: a map from paths to texts, in which no file takes
the place of another one. -/

namespace ClientGen

namespace SourceFile

/-- Puts a file into a listing: in place of the one of its path, or else at the end. -/
def put (file : SourceFile) : List SourceFile → List SourceFile
  | [] => [file]
  | first :: rest => if first.path = file.path then file :: rest else first :: put file rest

/-- The listing of files that are put into it one after the other. -/
def listing (files : List SourceFile) : List SourceFile :=
  files.foldl (fun listed file => put file listed) []

variable {file : SourceFile} {listed files : List SourceFile}

theorem put_of_not_mem (h : file.path ∉ listed.map path) : put file listed = listed ++ [file] := by
  induction listed with
  | nil => rfl
  | cons first rest ih =>
    obtain ⟨hfirst, hrest⟩ := not_or.mp (mt List.mem_cons.mpr h)
    rw [put, if_neg (Ne.symm hfirst), ih hrest, List.cons_append]

/-- A listing has a file for each path. -/
theorem paths_put : ((put file listed).map path) =
    if file.path ∈ listed.map path then listed.map path else listed.map path ++ [file.path] := by
  induction listed with
  | nil => rfl
  | cons first rest ih =>
    unfold put
    by_cases hfirst : first.path = file.path
    · simp [hfirst]
    · have hmem : file.path ∈ (first :: rest).map path ↔ file.path ∈ rest.map path := by
        simp [Ne.symm hfirst]
      rw [if_neg hfirst, List.map_cons, ih]
      simp only [hmem]
      split_ifs <;> rfl

theorem foldl_put (h : ((listed ++ files).map path).Nodup) :
    files.foldl (fun listed file => put file listed) listed = listed ++ files := by
  induction files generalizing listed with
  | nil => rw [List.foldl_nil, List.append_nil]
  | cons file rest ih =>
    have hnew : file.path ∉ listed.map path := by
      rw [List.map_append, List.map_cons] at h
      exact fun hmem => (List.nodup_append'.mp h).2.2 hmem List.mem_cons_self
    have happend : listed ++ file :: rest = listed ++ [file] ++ rest := by simp
    rw [List.foldl_cons, put_of_not_mem hnew, happend]
    exact ih (happend ▸ h)

theorem nodup_put (h : (listed.map path).Nodup) : ((put file listed).map path).Nodup := by
  rw [paths_put]
  split_ifs with hmem
  · exact h
  · refine List.nodup_append'.mpr ⟨h, List.nodup_singleton _, ?_⟩
    exact List.disjoint_singleton.mpr hmem

theorem nodup_foldl_put (h : (listed.map path).Nodup) :
    ((files.foldl (fun listed file => put file listed) listed).map path).Nodup := by
  induction files generalizing listed with
  | nil => exact h
  | cons file rest ih => exact ih (nodup_put h)

/-- Files are all in their listing if and only if no two of them have one path. -/
theorem listing_eq_iff : listing files = files ↔ (files.map path).Nodup := by
  constructor
  · intro heq
    have hnodup : ((listing files).map path).Nodup := nodup_foldl_put List.nodup_nil
    rwa [heq] at hnodup
  · intro h
    exact foldl_put h

/-- A path from the folder of a client to a file: the index, or a name in one of the folders. -/
def IsLocal (language : Language) (path : String) : Prop :=
  path = "index" ++ language.extension ∨ ∃ folder ∈ ["core", "models", "services"], ∃ name,
    '/' ∉ name.toList ∧ path = folder ++ "/" ++ (name ++ language.extension)

end SourceFile

namespace Client

/-- The names of the files of the runtime. -/
def coreNames : List String :=
  ["OpenAPI", "ApiError", "ApiRequestOptions", "ApiResult", "Dictionary", "request"]

namespace WellNamed

variable {client : Client} (h : client.WellNamed) (options : Options)
include h

theorem nodup_paths : ((client.sourceFiles options).map SourceFile.path).Nodup := by
  have hnames := (h.apart_sourceFiles options).nodup
  have hmap : (client.sourceFiles options).map SourceFile.names =
      ((client.sourceFiles options).map SourceFile.path).map fun path =>
        (Path.ofText path).names := by
    rw [List.map_map]
    rfl
  rw [hmap] at hnames
  exact hnames.of_map _

theorem isLocal_paths : ∀ path ∈ (client.sourceFiles options).map SourceFile.path,
    SourceFile.IsLocal options.language path := by
  intro path hpath
  rw [paths_sourceFiles] at hpath
  rcases List.mem_append.mp hpath with hpath | hpath
  · obtain ⟨folder, hfolder, hpath⟩ := List.mem_flatMap.mp hpath
    obtain ⟨name, hname, rfl⟩ := List.mem_map.mp hpath
    have hslash := h.slashless_folders options folder hfolder name hname
    exact .inr ⟨folder.1, List.mem_map_of_mem hfolder, name, hslash, rfl⟩
  · exact .inl (List.mem_singleton.mp hpath)

end WellNamed

theorem paths_eq_map (client : Client) (options : Options) :
    (client.sourceFiles options).map SourceFile.path =
      ((if options.exportCore then coreNames.map ("core/" ++ ·) else []) ++
        (if options.exportModels then client.models.map ("models/" ++ ·.name) else []) ++
        (if options.exportServices then client.services.map ("services/" ++ ·.name) else []) ++
        ["index"]).map (· ++ options.language.extension) := by
  have hslash : "core/" = "core" ++ "/" ∧ "models/" = "models" ++ "/" ∧
      "services/" = "services" ++ "/" := by decide
  rw [paths_sourceFiles, hslash.1, hslash.2.1, hslash.2.2]
  simp only [folders, coreNames, List.flatMap_cons, List.flatMap_nil, List.append_nil,
    List.map_append, apply_ite (List.map _), List.map_map, List.map_nil, List.map_cons,
    String.append_assoc, Function.comp_def, List.append_assoc]

/-- The files of a client are those of the runtime, one for each model, one for each service, and
the index, in this order and as far as they are asked for. No two are at one path, so that none is
lost from their listing; every path has the ending of the language, and no slash but the one after
its folder. -/
theorem listing_sourceFiles {doc : ApiDocument} {client : Client} (h : doc.client = .ok client)
    (options : Options) :
    SourceFile.listing (client.sourceFiles options) = client.sourceFiles options ∧
    (client.sourceFiles options).map SourceFile.path =
      ((if options.exportCore then coreNames.map ("core/" ++ ·) else []) ++
        (if options.exportModels then client.models.map ("models/" ++ ·.name) else []) ++
        (if options.exportServices then client.services.map ("services/" ++ ·.name) else []) ++
        ["index"]).map (· ++ options.language.extension) ∧
    ((client.sourceFiles options).map SourceFile.path).Nodup ∧
    (∀ path ∈ (client.sourceFiles options).map SourceFile.path,
      SourceFile.IsLocal options.language path) ∧
    (client.sourceFiles options).length =
      (if options.exportCore then 6 else 0) +
        (if options.exportModels then client.models.length else 0) +
        (if options.exportServices then client.services.length else 0) + 1 := by
  have hwell := wellNamed_of_document h
  have hnodup := hwell.nodup_paths options
  have hpaths := paths_eq_map client options
  refine ⟨SourceFile.listing_eq_iff.mpr hnodup, hpaths, hnodup, hwell.isLocal_paths options, ?_⟩
  have hlength := congrArg List.length hpaths
  have hcore : coreNames.length = 6 := rfl
  simpa only [List.length_map, List.length_append, apply_ite List.length, List.length_nil,
    List.length_singleton, hcore] using hlength

end Client

namespace ApiDocument.PetStore

theorem listing_store : document.client = .ok client ∧
    SourceFile.listing (client.sourceFiles {}) = client.sourceFiles {} ∧
    (client.sourceFiles {}).length = 10 ∧
    (client.sourceFiles {}).map SourceFile.path =
      ["core/OpenAPI.ts", "core/ApiError.ts", "core/ApiRequestOptions.ts", "core/ApiResult.ts",
        "core/Dictionary.ts", "core/request.ts", "models/Pet.ts", "models/Home.ts",
        "services/PetsService.ts", "index.ts"] := by
  obtain ⟨hlisting, hpaths, -, -, hlength⟩ := Client.listing_sourceFiles client_document {}
  refine ⟨client_document, hlisting, hlength, ?_⟩
  rw [hpaths]
  decide

end ApiDocument.PetStore

end ClientGen
