import ClientGen.Proofs.Document.References
import ClientGen.Proofs.Api.ParameterModels
import ClientGen.Proofs.Naming.Words

/-! The arguments of an operation: they are named for parameters, no two of which have one wire name
and one location. -/

namespace ClientGen

namespace Location

/-- A location is named by its own word only. -/
theorem eq_name_of_lookup {s : String} {location : Location} (h : words.lookup s = some location) :
    s = location.name := by
  have hall : ∀ entry ∈ words, entry.1 = entry.2.name := by decide
  obtain ⟨before, after, heq, -⟩ := List.lookup_eq_some_iff.mp h
  exact hall (s, location) (heq ▸ List.mem_append_right before List.mem_cons_self)

end Location

namespace ApiDocument

variable {doc : ApiDocument}

/-- A parameter is named for the wire name of its object. -/
structure NamedFor (node : Node) (p : Parameter) : Prop where
  wireName : node.required "name" = .ok (.str p.wireName)
  name : p.name = Naming.parameterName p.wireName

theorem namedFor_parameterOf {node : Node} {m : Model} {location : Location}
    {ref : Option String} {p : Parameter} (h : doc.parameterOf node m location ref = .ok p) :
    NamedFor node p ∧ p.location = location := by
  obtain ⟨_, _, _, _, _, hname, -, -, -, -, rfl⟩ := parameterOf_eq_ok h
  exact ⟨⟨hname, rfl⟩, rfl⟩

/-- A parameter object makes a parameter of its wire name and location. -/
theorem namedFor_parameter {node : Node} {p : Parameter} (h : doc.parameter node = .ok p) :
    NamedFor node p ∧ Location.ofParameter node = .ok p.location := by
  obtain ⟨location, m, ref, hlocation, -, h⟩ := parameter_eq_ok h
  obtain ⟨hnamed, rfl⟩ := namedFor_parameterOf h
  exact ⟨hnamed, hlocation⟩

/-- The argument of a body of its own has the wire name `requestBody`. -/
theorem name_of_bodyParameter? {node : Node} {p : Parameter}
    (h : doc.bodyParameter? node = .ok (some p)) :
    p.wireName = requestBody ∧ p.name = Naming.parameterName p.wireName := by
  obtain ⟨-, _, _, es, _, _, _, q, _, -, -, -, hq, rfl⟩ := bodyParameter?_eq_ok h
  obtain ⟨⟨hwire, hname⟩, -⟩ := namedFor_parameterOf hq
  have hrequired : (Node.map ((.str "name", .str requestBody) :: es)).required "name" =
      .ok (.str requestBody) := rfl
  rw [hrequired] at hwire
  exact ⟨(Scalar.str.inj (Node.scalar.inj (Except.ok.inj hwire))).symm, hname⟩

/-- Adding an object keeps the keys, and adds a key that none of them is equal to. -/
theorem keys_mergeInto (key : ParameterKey) (node : Node) (merged : List (ParameterKey × Node)) :
    (mergeInto key node merged).map Prod.fst =
      if merged.any fun entry => sameKey entry.1 key then merged.map Prod.fst
      else merged.map Prod.fst ++ [key] := by
  induction merged with
  | nil => rfl
  | cons first rest ih =>
    obtain ⟨k, n⟩ := first
    unfold mergeInto
    by_cases hk : sameKey k key
    · simp [hk]
    · rw [if_neg hk, List.map_cons, ih, List.any_cons, Bool.eq_false_iff.mpr hk, Bool.false_or]
      split <;> rfl

/-- Merged objects have keys that are equal to their names and locations, and no two of them are
equal to each other. -/
structure Keyed (merged : List (ParameterKey × Node)) : Prop where
  keys : ∀ entry ∈ merged, ∃ key, parameterKey? entry.2 = .ok (some key) ∧
    (entry.1 = key ∨ sameKey entry.1 key)
  distinct : (merged.map Prod.fst).Pairwise fun a b => ¬ sameKey a b

theorem Keyed.mergeInto {merged : List (ParameterKey × Node)} (h : Keyed merged)
    {key : ParameterKey} {node : Node} (hkey : parameterKey? node = .ok (some key)) :
    Keyed (mergeInto key node merged) := by
  constructor
  · have hkeys := h.keys
    clear h
    induction merged with
    | nil => exact List.forall_mem_singleton.mpr ⟨key, hkey, .inl rfl⟩
    | cons first rest ih =>
      obtain ⟨hfirst, hrest⟩ := List.forall_mem_cons.mp hkeys
      unfold ApiDocument.mergeInto
      split
      · next hsame => exact List.forall_mem_cons.mpr ⟨⟨key, hkey, .inr hsame⟩, hrest⟩
      · exact List.forall_mem_cons.mpr ⟨hfirst, ih hrest⟩
  · rw [keys_mergeInto]
    split
    · exact h.distinct
    · next hnone =>
      refine List.pairwise_append.mpr ⟨h.distinct, List.pairwise_singleton _ _, ?_⟩
      intro k hk other hother
      obtain rfl := List.mem_singleton.mp hother
      obtain ⟨entry, hentry, rfl⟩ := List.mem_map.mp hk
      exact fun hsame => hnone (List.any_eq_true.mpr ⟨entry, hentry, hsame⟩)

theorem keyed_mergeParameters {merged result : List (ParameterKey × Node)} {items : List Node}
    (hkeyed : Keyed merged) (h : doc.mergeParameters merged items = .ok result) :
    Keyed result := by
  induction items generalizing merged with
  | nil =>
    obtain rfl := pure_eq_ok.mp h
    exact hkeyed
  | cons raw rest ih =>
    unfold mergeParameters at h
    obtain ⟨node, -, h⟩ := ite_bind_eq_ok.mp h
    obtain ⟨key, hkey, h⟩ := bind_eq_ok.mp h
    cases key with
    | none => exact ih hkeyed h
    | some key => exact ih (hkeyed.mergeInto hkey) h

/-- The key of a parameter object that becomes a parameter. -/
def keyOf (p : Parameter) : ParameterKey := (.str p.wireName, .str p.location.name)

theorem parameterKey?_of_parameter {node : Node} {p : Parameter} {key : ParameterKey}
    (hp : doc.parameter node = .ok p) (hkey : parameterKey? node = .ok (some key)) :
    key = keyOf p := by
  obtain ⟨⟨hname, -⟩, hlocation⟩ := namedFor_parameter hp
  obtain ⟨_, -, hkey⟩ := bind_eq_ok.mp hkey
  split at hkey
  · cases hkey
  obtain ⟨_, -, hkey⟩ := bind_eq_ok.mp hkey
  split at hkey
  · cases hkey
  obtain ⟨name, hname', hkey⟩ := bind_eq_ok.mp hkey
  obtain ⟨location, hlocation', hkey⟩ := bind_eq_ok.mp hkey
  obtain rfl := Except.ok.inj (hname'.symm.trans hname)
  obtain ⟨value, hvalue, hfound⟩ := bind_eq_ok.mp hlocation
  obtain rfl := Except.ok.inj (hlocation'.symm.trans hvalue)
  have htext : location = .str p.location.name := by
    split at hfound
    · next found hnode =>
      obtain rfl := pure_eq_ok.mp hfound
      obtain ⟨text, htext, hlookup⟩ := Option.bind_eq_some_iff.mp hnode
      unfold Node.text? at htext
      split at htext
      · obtain rfl := Option.some.inj htext
        rw [Location.eq_name_of_lookup hlookup]
      · cases htext
    · cases hfound
  subst htext
  obtain ⟨first, hfirst, hkey⟩ := bind_eq_ok.mp hkey
  obtain ⟨second, hsecond, hkey⟩ := bind_eq_ok.mp hkey
  obtain rfl := Except.ok.inj hfirst
  obtain rfl := Except.ok.inj hsecond
  exact (Option.some.inj (pure_eq_ok.mp hkey)).symm

/-- A merged object has the key of the parameter that it becomes. -/
theorem eq_keyOf {entry : ParameterKey × Node} {p : Parameter}
    (hkey : ∃ key, parameterKey? entry.2 = .ok (some key) ∧
      (entry.1 = key ∨ sameKey entry.1 key))
    (hp : doc.parameter entry.2 = .ok p) : entry.1 = keyOf p := by
  obtain ⟨key, hkey, hentry⟩ := hkey
  obtain rfl := parameterKey?_of_parameter hp hkey
  rcases hentry with heq | hsame
  · exact heq
  · obtain ⟨hname, hlocation⟩ := Bool.and_eq_true_iff.mp hsame
    exact Prod.ext (Scalar.sameKey_str.mp hname) (Scalar.sameKey_str.mp hlocation)

/-- The keys of merged objects are those of the parameters that they become. -/
theorem map_keyOf {known : List (ParameterKey × Node)} {ps : List Parameter}
    (hkeys : ∀ entry ∈ known, ∃ key, parameterKey? entry.2 = .ok (some key) ∧
      (entry.1 = key ∨ sameKey entry.1 key))
    (hmade : List.Forall₂ (fun entry p => doc.parameter entry.2 = .ok p) known ps) :
    known.map Prod.fst = ps.map keyOf := by
  induction hmade with
  | nil => rfl
  | @cons entry p _ _ hp _ ih =>
    obtain ⟨hfirst, hrest⟩ := List.forall_mem_cons.mp hkeys
    rw [List.map_cons, List.map_cons, eq_keyOf hfirst hp, ih hrest]

/-- No two parameters of an operation have one wire name and one location. -/
theorem nodup_keys_parameters {path : String} {shared own : Node} {ps : List Parameter}
    (h : doc.parameters path shared own = .ok ps) :
    (ps.map fun p => (p.wireName, p.location)).Nodup ∧
      ∀ p ∈ ps, p.name = Naming.parameterName p.wireName := by
  obtain ⟨shared, -, h⟩ := bind_eq_ok.mp h
  obtain ⟨items, -, h⟩ := bind_eq_ok.mp h
  obtain ⟨merged, hmerged, h⟩ := bind_eq_ok.mp h
  obtain ⟨resolved, hresolved, h⟩ := bind_eq_ok.mp h
  obtain rfl := pure_eq_ok.mp h
  have hempty : Keyed [] := ⟨by simp, List.Pairwise.nil⟩
  have hkeyed := keyed_mergeParameters hempty hmerged
  have hperm := List.mergeSort_perm resolved (precedes path)
  have hmade := mapM_eq_ok.mp hresolved
  generalize hknown : List.filter _ merged = known at hmade
  have hsub : known.Sublist merged := hknown ▸ List.filter_sublist
  constructor
  · rw [(hperm.map _).nodup_iff]
    have hdistinct := hkeyed.distinct.sublist (hsub.map Prod.fst)
    rw [map_keyOf (fun entry hentry => hkeyed.keys entry (hsub.subset hentry)) hmade] at hdistinct
    refine List.pairwise_map.mpr ((List.pairwise_map.mp hdistinct).imp fun {p q} hne heq => hne ?_)
    obtain ⟨hname, hlocation⟩ := Prod.mk.inj heq
    unfold sameKey keyOf
    rw [hname, hlocation, Bool.and_eq_true_iff]
    exact ⟨Scalar.sameKey_str.mpr rfl, Scalar.sameKey_str.mpr rfl⟩
  · intro p hp
    obtain ⟨entry, -, hentry⟩ := (exists_mem_of_forall₂ hmade).2 p (hperm.mem_iff.mp hp)
    exact (namedFor_parameter hentry).1.name

/-- The arguments of an operation are named for the wire names of its parameters. A name is an
identifier if a letter is in the wire name, and empty else. Of the parameters that are declared no
two have one wire name and one location; one for the body may come to them. -/
theorem arguments_of_operation {path : String} {method : HttpMethod} {node shared : Node}
    {op : Operation} (h : doc.operation path method node shared = .ok op) :
    (∀ p ∈ op.parameters, p.name = Naming.parameterName p.wireName ∧
      ((∃ c ∈ p.wireName.toList, c.isAlpha) ∧ Naming.IsCamel p.name.toList ∨
        (∀ c ∈ p.wireName.toList, ¬ c.isAlpha) ∧ p.name = "")) ∧
    ∃ declared body, op.parameters.Perm (declared ++ Option.toList body) ∧
      (declared.map fun p => (p.wireName, p.location)).Nodup ∧
      ∀ p ∈ body, p.wireName = requestBody := by
  obtain ⟨declared, body, hcomposed⟩ := operation_eq_ok.mp h
  obtain ⟨own, -, hdeclared⟩ := hcomposed.parameters
  obtain ⟨hnodup, hnames⟩ := nodup_keys_parameters hdeclared
  have hperm : op.parameters.Perm (declared ++ Option.toList body) := by
    rw [hcomposed.signature]
    cases body with
    | none => rw [withBody, Option.toList, List.append_nil]
    | some p => exact List.mergeSort_perm _ _
  have hwire : ∀ p ∈ body, p.wireName = requestBody ∧ p.name = Naming.parameterName p.wireName := by
    rintro p hp
    obtain rfl := Option.mem_def.mp hp
    exact name_of_bodyParameter? hcomposed.requestBody
  refine ⟨fun p hp => ?_, declared, body, hperm, hnodup, fun p hp => (hwire p hp).1⟩
  have hname : p.name = Naming.parameterName p.wireName := by
    rcases List.mem_append.mp (hperm.mem_iff.mp hp) with hp | hp
    · exact hnames p hp
    · exact (hwire p (Option.mem_toList.mp hp)).2
  rw [hname]
  exact ⟨rfl, Naming.memberName_cases p.wireName⟩

namespace PetByIds

def document : ApiDocument where
  dialect := .openApi3
  root := .map []
  schemas := []

def path : String := "/pets/\x7bid\x7d"

def object (wireName : String) (location : Location) : Node :=
  .map [(.str "name", .str wireName), (.str "in", .str location.name)]

def pet : Node :=
  .map [(.str "parameters", .list [object "id" .path, object "id" .query, object "123" .query])]

def argument (wireName : String) (location : Location) : Parameter where
  model :=
    { name := Naming.parameterName wireName, shape := .generic, isRequired := location == .path }
  location
  wireName

def operation : Operation where
  service := "PetsService"
  name := "getPetsId"
  method := .get
  path
  parameters := [argument "id" .path, argument "id" .query, argument "123" .query]
  results := [Response.void none none]

theorem mergeParameters_object (merged : List (ParameterKey × Node)) (wireName : String)
    (location : Location) (rest : List Node) :
    document.mergeParameters merged (object wireName location :: rest) =
      document.mergeParameters (mergeInto (.str wireName, .str location.name)
        (object wireName location) merged) rest := by
  have hself : document.dereference (object wireName location) = .ok (object wireName location) :=
    dereference_eq_self rfl
  have hschema : document.isSchemaParameter (object wireName location) = false := rfl
  rw [mergeParameters, hschema, if_neg Bool.false_ne_true, hself]
  rfl

theorem parameters_pet : document.parameters path (.list [])
    (.list [object "id" .path, object "id" .query, object "123" .query]) =
      .ok operation.parameters := by
  have hmerged : document.mergeParameters []
      [object "id" .path, object "id" .query, object "123" .query] =
        .ok [((.str "id", .str "path"), object "id" .path),
          ((.str "id", .str "query"), object "id" .query),
          ((.str "123", .str "query"), object "123" .query)] := by
    rw [mergeParameters_object, mergeParameters_object, mergeParameters_object]
    rfl
  have hsorted : operation.parameters.Pairwise fun a b => precedes path a b := by decide
  refine bind_eq_ok.mpr ⟨[], rfl, bind_eq_ok.mpr ⟨_, rfl, bind_eq_ok.mpr ⟨_, hmerged,
    bind_eq_ok.mpr ⟨operation.parameters,
      mapM_eq_ok.mpr (.cons rfl (.cons rfl (.cons rfl .nil))), ?_⟩⟩⟩⟩
  exact pure_eq_ok.mpr (List.mergeSort_of_pairwise hsorted)

theorem operation_pet : document.operation path .get pet (.list []) = .ok operation := by
  have hservice : serviceName pet path = .ok "PetsService" := by
    have hclass : Naming.serviceClassName
        (((firstSegment? path).map String.ofList).getD defaultService) = "PetsService" := by
      decide +kernel
    exact bind_eq_ok.mpr ⟨.null, rfl, pure_eq_ok.mpr hclass⟩
  have hname : operationName pet .get path = .ok "getPetsId" := by
    have hmember : Naming.operationName ("get" ++ "-" ++ path) = "getPetsId" := by decide +kernel
    exact bind_eq_ok.mpr ⟨.null, rfl, pure_eq_ok.mpr hmember⟩
  refine bind_eq_ok.mpr ⟨_, rfl, bind_eq_ok.mpr ⟨_, parameters_pet, bind_eq_ok.mpr ⟨none, rfl,
    bind_eq_ok.mpr ⟨.null, rfl, bind_eq_ok.mpr ⟨_, results_nil, bind_eq_ok.mpr ⟨_, hservice,
      bind_eq_ok.mpr ⟨_, hname, ?_⟩⟩⟩⟩⟩⟩⟩
  rfl

theorem arguments_pet : document.operation path .get pet (.list []) = .ok operation ∧
    (∀ p ∈ operation.parameters, p.name = Naming.parameterName p.wireName ∧
      ((∃ c ∈ p.wireName.toList, c.isAlpha) ∧ Naming.IsCamel p.name.toList ∨
        (∀ c ∈ p.wireName.toList, ¬ c.isAlpha) ∧ p.name = "")) ∧
    ∃ declared body, operation.parameters.Perm (declared ++ Option.toList body) ∧
      (declared.map fun p => (p.wireName, p.location)).Nodup ∧
      ∀ p ∈ body, p.wireName = requestBody :=
  ⟨operation_pet, arguments_of_operation operation_pet⟩

/-- Two arguments have one name where one wire name has two locations, and a wire name without
letters gives no name. -/
theorem arguments_clash : ∃ op, document.operation path .get pet (.list []) = .ok op ∧
    ¬ (op.parameters.map (·.name)).Nodup ∧
    ¬ ∀ p ∈ op.parameters, Naming.IsCamel p.name.toList := by
  have hnames : operation.parameters.map (·.name) = ["id", "id", ""] := by decide +kernel
  refine ⟨operation, operation_pet, ?_, fun hcamel => ?_⟩
  · rw [hnames]
    decide
  · have hempty : "" ∈ operation.parameters.map (·.name) := hnames ▸ by decide
    obtain ⟨p, hp, heq⟩ := List.mem_map.mp hempty
    obtain ⟨c, rest, hchars, -⟩ := hcamel p hp
    rw [heq] at hchars
    exact absurd hchars (List.cons_ne_nil c rest).symm

end PetByIds

end ApiDocument

end ClientGen
