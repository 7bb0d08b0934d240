import ClientGen.Proofs.Api.SchemaPlaces

/-! What parameters are made of: the model of a schema and where the schema stands, and what the
parameter object adds to the model. -/

namespace ClientGen

namespace Node

theorem get?_of_member_isMap {node value : Node} {key : String} (h : node.member key = .ok value)
    (hmap : value.isMap) : node.get? key = some value := by
  refine get?_of_member h ?_
  rintro rfl
  cases hmap

theorem getD_of_member {node value : Node} {key : String} (h : node.member key = .ok value) :
    (node.get? key).getD .null = value := by
  cases node with
  | map es => exact Except.ok.inj h
  | scalar s => cases h
  | list items => cases h

/-- A member is a map exactly if there is a map at its key. -/
theorem filter_of_member {node value : Node} {key : String} (h : node.member key = .ok value) :
    (node.get? key).filter isMap = if value.isMap then some value else none := by
  obtain rfl := getD_of_member h
  cases node.get? key with
  | none => rfl
  | some v => exact Option.filter_some

/-- A member that may be replaced if it is absent is that of its key, or has been replaced. -/
theorem orElse_of_member {node value : Node} {key : String} (h : node.member key = .ok value)
    (other : Node) :
    value.orElse other = other ∨ node.get? key = some value ∧ value.orElse other = value := by
  unfold orElse
  split_ifs with hpresent
  · refine .inr ⟨get?_of_member h ?_, rfl⟩
    rintro rfl
    cases hpresent
  · exact .inl rfl

end Node

namespace ApiDocument

theorem mem_contentSchemas {content media schema : Node} {mediaType : String}
    (hm : content.get? mediaType = some media) (hs : media.get? "schema" = some schema) :
    schema ∈ contentSchemas content := by
  obtain ⟨es, rfl, hmem⟩ := Node.mem_of_get? hm
  exact List.mem_filterMap.mpr ⟨_, hmem, hs⟩

theorem contentSchemas_of_preferred {content schema : Node} {mediaTypes : List String}
    {mediaType : Scalar}
    (h : preferredContent content mediaTypes = .ok (some (mediaType, schema))) :
    schema ∈ contentSchemas content := by
  induction mediaTypes with
  | nil => cases h
  | cons first rest ih =>
    obtain ⟨media, hmedia, h⟩ := bind_eq_ok.mp h
    obtain ⟨own, hown, h⟩ := bind_eq_ok.mp h
    split at h
    · next hmap =>
      obtain ⟨-, rfl⟩ := Prod.mk.inj (Option.some.inj (pure_eq_ok.mp h))
      have hschema := Node.get?_of_member_isMap hown hmap
      rcases Node.orElse_of_member hmedia (.map []) with heq | ⟨hget, heq⟩
      · rw [orEmptyMap, heq] at hschema
        cases hschema
      · rw [orEmptyMap, heq] at hschema
        exact mem_contentSchemas hget hschema
    · exact ih h

theorem contentSchemas_of_content? {content schema : Node} {mediaType : Scalar}
    (h : content? content = .ok (some (mediaType, schema))) : schema ∈ contentSchemas content := by
  obtain ⟨found, hfound, h⟩ := bind_eq_ok.mp h
  cases found with
  | some pair =>
    obtain rfl := Option.some.inj (pure_eq_ok.mp h)
    exact contentSchemas_of_preferred hfound
  | none =>
    obtain ⟨es, hes, h⟩ := bind_eq_ok.mp h
    obtain ⟨⟨k, media⟩, hmem, hmap⟩ := List.exists_of_findSome?_eq_some (pure_eq_ok.mp h)
    obtain ⟨s, hs, heq⟩ := Option.map_eq_some_iff.mp hmap
    obtain ⟨-, rfl⟩ := Prod.mk.inj heq
    cases content with
    | map entries =>
      obtain rfl := Except.ok.inj hes
      exact List.mem_filterMap.mpr ⟨_, hmem, (Option.filter_eq_some_iff.mp hs).1⟩
    | scalar s => cases hes
    | list items => cases hes

/-- The content of a node gives the schemas at its content key. -/
theorem contentSchemas_of_member {node content schema : Node} {mediaType : Scalar}
    (hc : node.member "content" = .ok content)
    (h : content? (orEmptyMap content) = .ok (some (mediaType, schema))) :
    ∃ c, node.get? "content" = some c ∧ schema ∈ contentSchemas c := by
  have hmem := contentSchemas_of_content? h
  rcases Node.orElse_of_member hc (.map []) with heq | ⟨hget, heq⟩
  · rw [orEmptyMap, heq] at hmem
    exact absurd hmem List.not_mem_nil
  · rw [orEmptyMap, heq] at hmem
    exact ⟨content, hget, hmem⟩

/-- The schema of a parameter object: in a place of its own, in the content, or the object
itself. -/
inductive SchemaOf (doc : ApiDocument) (node : Node) : Node → Prop
  | own {schema : Node} (hs : node.get? "schema" = some schema) : SchemaOf doc node schema
  | content {content schema : Node} (hd : doc.dialect = .openApi3)
      (hc : node.get? "content" = some content) (hs : schema ∈ contentSchemas content) :
      SchemaOf doc node schema
  | self (hs : doc.dialect = .swagger2 ∨ (Pointer.reference? node).isSome) : SchemaOf doc node node

/-- The model of a parameter object, and the reference that is its schema: an object without a
schema is a dictionary of its items or has any value. -/
inductive ModelOf (doc : ApiDocument) (node : Node) : Model → Option String → Prop
  | schema {schema : Node} {m : Model} (hs : doc.SchemaOf node schema)
      (hm : doc.anonymousModel schema = .ok m) : ModelOf doc node m (Pointer.reference? schema)
  | dictionary {items text : Node} {value : Model} {description defaultValue : Option String}
      (hd : doc.dialect = .swagger2) (hi : node.get? "items" = some items)
      (hm : doc.anonymousModel items = .ok value) (hcomment : text.comment = .ok description)
      (hdefault : DefaultLiteral.ofSchema node = .ok defaultValue) :
      ModelOf doc node
        { shape := .dictionary
          type := Model.inDictionary value.type
          description
          defaultValue := defaultValue.map .str } none
  | any : ModelOf doc node { shape := .generic } none

/-- The model of the body of an operation, and the reference that is its schema. -/
inductive BodyModelOf (doc : ApiDocument) (body : Node) : Model → Option String → Prop
  | schema {content schema : Node} {m : Model} (hc : body.get? "content" = some content)
      (hs : schema ∈ contentSchemas content) (hm : doc.anonymousModel schema = .ok m) :
      BodyModelOf doc body m (Pointer.reference? schema)
  | any : BodyModelOf doc body { shape := .generic } none

/-- The schema at the key for it in a parameter object. -/
def ownSchema? (node : Node) : Option Node := (node.get? "schema").filter Node.isMap

/-- The items of a parameter object that is an object with items. -/
def dictionaryItems? (node : Node) : Option Node :=
  if Dialect.isText ((node.get? "type").getD .null) "object" then
    (node.get? "items").filter Node.isMap
  else none

/-- The schema that is chosen from the content of a node. -/
def contentSchema? (node : Node) : Except Fault (Option Node) := do
  return (← content? (orEmptyMap (← node.member "content"))).map Prod.snd

/-- The schema that is chosen for a parameter object, if there is one: its own, or the object
itself, or one from its content. In OpenAPI 3 an object that is a reference is its own schema. -/
inductive ChoosesSchema (doc : ApiDocument) (node : Node) : Option Node → Prop
  | own {schema : Node} (hr : doc.dialect = .openApi3 → Pointer.reference? node = none)
      (hs : ownSchema? node = some schema) : ChoosesSchema doc node (some schema)
  | self (hd : doc.dialect = .swagger2) (hs : ownSchema? node = none)
      (hi : dictionaryItems? node = none) : ChoosesSchema doc node (some node)
  | reference (hd : doc.dialect = .openApi3) (hr : (Pointer.reference? node).isSome) :
      ChoosesSchema doc node (some node)
  | content {found : Option Node} (hd : doc.dialect = .openApi3)
      (hr : Pointer.reference? node = none) (hs : ownSchema? node = none)
      (hc : contentSchema? node = .ok found) : ChoosesSchema doc node found

/-- The model that is chosen for a parameter object, and the reference that is its schema. The
dictionary of an object with items has no schema of its own. -/
inductive ChoosesModel (doc : ApiDocument) (node : Node) : Model → Option String → Prop
  | schema {schema : Node} {m : Model} (hs : doc.ChoosesSchema node (some schema))
      (hm : doc.anonymousModel schema = .ok m) :
      ChoosesModel doc node m (Pointer.reference? schema)
  | dictionary {items text : Node} {value : Model} {description defaultValue : Option String}
      (hd : doc.dialect = .swagger2) (hs : ownSchema? node = none)
      (hi : dictionaryItems? node = some items) (hm : doc.anonymousModel items = .ok value)
      (ht : node.member "description" = .ok text) (hcomment : text.comment = .ok description)
      (hdefault : DefaultLiteral.ofSchema node = .ok defaultValue) :
      ChoosesModel doc node
        { shape := .dictionary
          type := Model.inDictionary value.type
          description
          defaultValue := defaultValue.map .str } none
  | any (hs : doc.ChoosesSchema node none) : ChoosesModel doc node { shape := .generic } none

/-- The model that is chosen for a body, and the reference that is its schema. -/
inductive ChoosesBodyModel (doc : ApiDocument) (body : Node) : Model → Option String → Prop
  | schema {schema : Node} {m : Model} (hc : contentSchema? body = .ok (some schema))
      (hm : doc.anonymousModel schema = .ok m) :
      ChoosesBodyModel doc body m (Pointer.reference? schema)
  | any (hc : contentSchema? body = .ok none) : ChoosesBodyModel doc body { shape := .generic } none

variable {doc : ApiDocument} {node : Node} {p : Parameter}

/-- A parameter is a model with what its object says: the name, the description, the default, and
whether it is required. -/
theorem parameterOf_eq_ok {m : Model} {location : Location} {ref : Option String}
    (h : doc.parameterOf node m location ref = .ok p) :
    ∃ (wireName : String) (text : Node) (description : Option String)
        (defaultValue : Option Node) (required : Node),
      node.required "name" = .ok (.str wireName) ∧ node.member "description" = .ok text ∧
      text.comment = .ok description ∧ doc.parameterDefault node m ref = .ok defaultValue ∧
      node.member "required" = .ok required ∧
      p = { model := { m with
              name := Naming.parameterName wireName
              isDefinition := false
              description := description <|> m.description
              defaultValue
              isRequired := required.isBool true || location == .path || defaultValue.isSome }
            location
            wireName } := by
  obtain ⟨wireName, hname, h⟩ := bind_eq_ok.mp h
  obtain ⟨text, htext, h⟩ := bind_eq_ok.mp h
  obtain ⟨description, hcomment, h⟩ := bind_eq_ok.mp h
  obtain ⟨defaultValue, hdefault, h⟩ := bind_eq_ok.mp h
  obtain ⟨required, hrequired, h⟩ := bind_eq_ok.mp h
  obtain ⟨value, hvalue, hname⟩ := bind_eq_ok.mp hname
  split at hname
  · obtain rfl := pure_eq_ok.mp hname
    exact ⟨_, _, _, _, _, hvalue, htext, hcomment, hdefault, hrequired, (pure_eq_ok.mp h).symm⟩
  · cases hname

theorem contentSchemas_of_contentSchema? {schema : Node}
    (h : contentSchema? node = .ok (some schema)) :
    ∃ c, node.get? "content" = some c ∧ schema ∈ contentSchemas c := by
  obtain ⟨content, hmember, h⟩ := bind_eq_ok.mp h
  obtain ⟨found, hfound, h⟩ := bind_eq_ok.mp h
  obtain ⟨⟨mediaType, _⟩, rfl, rfl⟩ := Option.map_eq_some_iff.mp (pure_eq_ok.mp h)
  exact contentSchemas_of_member hmember hfound

theorem ChoosesSchema.schemaOf {schema : Node} (h : doc.ChoosesSchema node (some schema)) :
    doc.SchemaOf node schema := by
  cases h with
  | own _ hs => exact .own (Option.filter_eq_some_iff.mp hs).1
  | self hd => exact .self (.inl hd)
  | reference _ hr => exact .self (.inr hr)
  | content hd _ _ hc =>
    obtain ⟨c, hget, hmem⟩ := contentSchemas_of_contentSchema? hc
    exact .content hd hget hmem

theorem ChoosesModel.modelOf {m : Model} {ref : Option String} (h : doc.ChoosesModel node m ref) :
    doc.ModelOf node m ref := by
  cases h with
  | schema hs hm => exact .schema hs.schemaOf hm
  | dictionary hd _ hi hm _ hcomment hdefault =>
    unfold dictionaryItems? at hi
    split_ifs at hi
    exact .dictionary hd (Option.filter_eq_some_iff.mp hi).1 hm hcomment hdefault
  | any => exact .any

theorem ChoosesBodyModel.bodyModelOf {body : Node} {m : Model} {ref : Option String}
    (h : doc.ChoosesBodyModel body m ref) : doc.BodyModelOf body m ref := by
  cases h with
  | schema hc hm =>
    obtain ⟨c, hget, hmem⟩ := contentSchemas_of_contentSchema? hc
    exact .schema hget hmem hm
  | any => exact .any

theorem model_of_schema {schema : Node} {location : Location}
    (hs : doc.ChoosesSchema node (some schema))
    (h : doc.parameterOfSchema node schema location = .ok p) :
    ∃ m ref, doc.ChoosesModel node m ref ∧ doc.parameterOf node m location ref = .ok p := by
  obtain ⟨m, hm, h⟩ := bind_eq_ok.mp h
  exact ⟨m, _, .schema hs hm, h⟩

/-- The model of a parameter object in a Swagger 2.0 document. -/
theorem model_of_swaggerParameter (hd : doc.dialect = .swagger2)
    (h : doc.swaggerParameter node = .ok p) :
    ∃ location m ref, Location.ofParameter node = .ok location ∧ doc.ChoosesModel node m ref ∧
      doc.parameterOf node m location ref = .ok p := by
  obtain ⟨location, hlocation, h⟩ := bind_eq_ok.mp h
  refine ⟨location, ?_⟩
  simp only [hlocation, true_and]
  obtain ⟨schema, hschema, h⟩ := bind_eq_ok.mp h
  have hown := Node.filter_of_member hschema
  split at h
  · next hmap =>
    rw [if_pos hmap] at hown
    exact model_of_schema (.own (fun hd' => by simp [hd] at hd') hown) (by simpa using h)
  next hmap =>
  rw [if_neg hmap] at hown
  obtain ⟨items, hitems, h⟩ := bind_eq_ok.mp h
  obtain ⟨kind, hkind, h⟩ := bind_eq_ok.mp h
  have hdictionary : dictionaryItems? node =
      if Dialect.isText kind "object" && items.isMap then some items else none := by
    rw [dictionaryItems?, Node.getD_of_member hkind, Node.filter_of_member hitems]
    cases Dialect.isText kind "object" <;> rfl
  split at h
  · next hobject =>
    rw [if_pos hobject] at hdictionary
    obtain ⟨value, hvalue, h⟩ := bind_eq_ok.mp h
    obtain ⟨text, htext, h⟩ := bind_eq_ok.mp h
    obtain ⟨description, hcomment, h⟩ := bind_eq_ok.mp h
    obtain ⟨defaultValue, hdefault, h⟩ := bind_eq_ok.mp h
    exact ⟨_, _, .dictionary hd hown hdictionary hvalue htext hcomment hdefault, h⟩
  · next hobject =>
    rw [if_neg hobject] at hdictionary
    exact model_of_schema (.self hd hown hdictionary) h

/-- The model of a parameter object in an OpenAPI 3 document. -/
theorem model_of_openApiParameter (hd : doc.dialect = .openApi3)
    (h : doc.openApiParameter node = .ok p) :
    ∃ location m ref, Location.ofParameter node = .ok location ∧ doc.ChoosesModel node m ref ∧
      doc.parameterOf node m location ref = .ok p := by
  obtain ⟨location, hlocation, h⟩ := bind_eq_ok.mp h
  refine ⟨location, ?_⟩
  simp only [hlocation, true_and]
  split at h
  · next href => exact model_of_schema (.reference hd href) (by simpa using h)
  next href =>
  have hr : Pointer.reference? node = none := by simpa using href
  obtain ⟨schema, hschema, h⟩ := bind_eq_ok.mp h
  have hown := Node.filter_of_member hschema
  split at h
  · next hmap =>
    rw [if_pos hmap] at hown
    exact model_of_schema (.own (fun _ => hr) hown) (by simpa using h)
  next hmap =>
  rw [if_neg hmap] at hown
  obtain ⟨content, hcontent, h⟩ := bind_eq_ok.mp h
  obtain ⟨found, hfound, h⟩ := bind_eq_ok.mp h
  have hchosen : contentSchema? node = .ok (found.map Prod.snd) :=
    bind_eq_ok.mpr ⟨content, hcontent, bind_eq_ok.mpr ⟨found, hfound, rfl⟩⟩
  have hcontent := ChoosesSchema.content hd hr hown hchosen
  cases found with
  | some pair => exact model_of_schema hcontent h
  | none => exact ⟨_, _, .any hcontent, h⟩

/-- A parameter is made from the model that is chosen for its object. -/
theorem model_of_parameter (h : doc.parameter node = .ok p) :
    ∃ location m ref, Location.ofParameter node = .ok location ∧ doc.ChoosesModel node m ref ∧
      doc.parameterOf node m location ref = .ok p := by
  unfold parameter at h
  split at h
  · next hd => exact model_of_swaggerParameter hd h
  · next hd => exact model_of_openApiParameter hd h

theorem parameter_eq_ok (h : doc.parameter node = .ok p) :
    ∃ location m ref, Location.ofParameter node = .ok location ∧ doc.ModelOf node m ref ∧
      doc.parameterOf node m location ref = .ok p := by
  obtain ⟨location, m, ref, hlocation, hm, h⟩ := model_of_parameter h
  exact ⟨location, m, ref, hlocation, hm.modelOf, h⟩

/-- The object that a parameter is made of where the body is none of the parameters. -/
def bodyObject (required description : Node) : Node :=
  .map [(.str "name", .str requestBody), (.str "required", .bool (required.isBool true)),
    (.str "description", description)]

/-- The parameter of a body is made from the model that is chosen for it. -/
theorem model_of_bodyParameter? {operation : Node}
    (h : doc.bodyParameter? operation = .ok (some p)) :
    doc.dialect = .openApi3 ∧ ∃ raw body required description m location ref q mediaType,
      operation.get? requestBody = some raw ∧ doc.dereference raw = .ok body ∧
      body.member "required" = .ok required ∧ body.member "description" = .ok description ∧
      doc.ChoosesBodyModel body m ref ∧
      doc.parameterOf (bodyObject required description) m location ref = .ok q ∧
      p = { q with mediaType } := by
  unfold bodyParameter? at h
  split at h
  · cases h
  next hd =>
  obtain ⟨raw, hraw, h⟩ := bind_eq_ok.mp h
  split at h
  · cases h
  next hmap =>
  have hbody := Node.get?_of_member_isMap hraw (by simpa using hmap)
  obtain ⟨body, hderef, h⟩ := bind_eq_ok.mp h
  obtain ⟨content, hcontent, h⟩ := bind_eq_ok.mp h
  obtain ⟨found, hfound, h⟩ := bind_eq_ok.mp h
  have hchosen : contentSchema? body = .ok (found.map Prod.snd) :=
    bind_eq_ok.mpr ⟨content, hcontent, bind_eq_ok.mpr ⟨found, hfound, rfl⟩⟩
  refine ⟨hd, raw, body, ?_⟩
  cases found with
  | none =>
    obtain ⟨m, hm, h⟩ := bind_eq_ok.mp h
    obtain rfl := pure_eq_ok.mp hm
    obtain ⟨required, hrequired, h⟩ := bind_eq_ok.mp h
    obtain ⟨description, hdescription, h⟩ := bind_eq_ok.mp h
    obtain ⟨q, hq, h⟩ := bind_eq_ok.mp h
    have heq := Option.some.inj (pure_eq_ok.mp h)
    exact ⟨required, description, _, _, _, q, _, hbody, hderef, hrequired, hdescription,
      .any hchosen, hq, heq.symm⟩
  | some pair =>
    obtain ⟨m, hm, h⟩ := bind_eq_ok.mp h
    obtain ⟨required, hrequired, h⟩ := bind_eq_ok.mp h
    obtain ⟨description, hdescription, h⟩ := bind_eq_ok.mp h
    obtain ⟨q, hq, h⟩ := bind_eq_ok.mp h
    have heq := Option.some.inj (pure_eq_ok.mp h)
    exact ⟨required, description, m, _, _, q, _, hbody, hderef, hrequired, hdescription,
      .schema hchosen hm, hq, heq.symm⟩

/-- The parameter of a body is one of an object that is made for it. -/
theorem bodyParameter?_eq_ok {operation : Node}
    (h : doc.bodyParameter? operation = .ok (some p)) :
    doc.dialect = .openApi3 ∧ ∃ raw body es m location ref q mediaType,
      operation.get? requestBody = some raw ∧ doc.dereference raw = .ok body ∧
      doc.BodyModelOf body m ref ∧
      doc.parameterOf (.map ((.str "name", .str requestBody) :: es)) m location ref = .ok q ∧
      p = { q with mediaType } := by
  obtain ⟨hd, raw, body, _, _, m, location, ref, q, mediaType, hraw, hbody, -, -, hm, hq, heq⟩ :=
    model_of_bodyParameter? h
  exact ⟨hd, raw, body, _, m, location, ref, q, mediaType, hraw, hbody, hm.bodyModelOf, hq, heq⟩

/-- A parameter of an operation is that of a parameter object or of the body. -/
theorem parameter_of_operation {path : String} {method : HttpMethod} {operation shared : Node}
    {op : Operation} (h : doc.operation path method operation shared = .ok op)
    (hp : p ∈ op.parameters) :
    (∃ object, doc.parameter object = .ok p) ∨ doc.bodyParameter? operation = .ok (some p) := by
  obtain ⟨declared, body, hcomposed⟩ := operation_eq_ok.mp h
  obtain ⟨_, -, hdeclared⟩ := hcomposed.parameters
  have hown (hp : p ∈ declared) : ∃ object, doc.parameter object = .ok p := by
    obtain ⟨_, -, hdeclared⟩ := bind_eq_ok.mp hdeclared
    obtain ⟨_, -, hdeclared⟩ := bind_eq_ok.mp hdeclared
    obtain ⟨_, -, hdeclared⟩ := bind_eq_ok.mp hdeclared
    obtain ⟨resolved, hresolved, hdeclared⟩ := bind_eq_ok.mp hdeclared
    obtain rfl := pure_eq_ok.mp hdeclared
    obtain ⟨entry, -, hparameter⟩ :=
      (exists_mem_of_forall₂ (mapM_eq_ok.mp hresolved)).2 p (List.mem_mergeSort.mp hp)
    exact ⟨entry.2, hparameter⟩
  rw [hcomposed.signature] at hp
  cases body with
  | none => exact .inl (hown hp)
  | some b =>
    rcases List.mem_append.mp (List.mem_mergeSort.mp hp) with hp | hp
    · exact .inl (hown hp)
    · exact .inr (List.mem_singleton.mp hp ▸ hcomposed.requestBody)

end ApiDocument

end ClientGen
