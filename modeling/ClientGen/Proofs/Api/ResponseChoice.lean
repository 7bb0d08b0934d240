import Mathlib.Data.Int.Order.Basic
import ClientGen.Proofs.Document.Texts
import ClientGen.Proofs.Outcome
import ClientGen.Proofs.StableSort
import ClientGen.Proofs.Api.Services

/-! The result of an operation and its errors: what each of its responses is used for. -/

namespace ClientGen

namespace Responses

/-- The responses whose keys are numbers, by these. -/
def numbered (rs : List (String × Node)) : List (Int × Node) :=
  rs.filterMap fun r => (Numeral.int? r.1.toList).map fun code => (code, r.2)

/-- The default response. -/
def default? (rs : List (String × Node)) : Option Node := rs.reverse.lookup "default"

variable (key : String) (node : Node) (rs : List (String × Node))

theorem numbered_cons : numbered ((key, node) :: rs) =
    ((Numeral.int? key.toList).map fun code => (code, node)).toList ++ numbered rs := by
  unfold numbered
  cases hcode : Numeral.int? key.toList <;> simp [hcode]

theorem default?_cons (other : Option Node) : (default? ((key, node) :: rs) <|> other) =
    (default? rs <|> if key = "default" then some node else other) := by
  unfold default?
  rw [List.reverse_cons, List.lookup_append]
  cases List.lookup "default" rs.reverse with
  | some _ => rfl
  | none =>
    by_cases hkey : key = "default"
    · simp [hkey]
    · simp [List.lookup_cons, beq_false_of_ne (Ne.symm hkey), hkey]

end Responses

namespace ResponseTable

/-- The result is a response of the least code of success, the first one with this code. -/
theorem success?_eq_some {table : ResponseTable} {r : Int × Node} (h : table.success? = some r) :
    isSuccess r.1 ∧ ∃ before after, table.numbered = before ++ r :: after ∧
      (∀ other ∈ before, isSuccess other.1 → r.1 < other.1) ∧
      ∀ other ∈ after, isSuccess other.1 → r.1 ≤ other.1 := by
  have hsorted := StablySorted.mergeSort Prod.fst table.numbered
  obtain ⟨hfound, earlier, later, heq, hearlier⟩ := List.find?_eq_some_iff_append.mp h
  have hsuccess : isSuccess r.1 := hfound
  rw [heq] at hsorted
  have hleast (other : Int × Node) (hmem : other ∈ table.numbered) (ho : isSuccess other.1) :
      r.1 ≤ other.1 := by
    rcases List.mem_append.mp (hsorted.perm.mem_iff.mpr hmem) with hmem | hmem
    · exact absurd ho (by simpa using hearlier other hmem)
    · obtain rfl | hmem := List.mem_cons.mp hmem
      · exact le_refl _
      · exact List.rel_of_pairwise_cons (List.pairwise_append.mp hsorted.ascending).2.1 hmem
  -- Responses of one code stand in the sorted list as they do in the document.
  have hnone : earlier.filter (·.1 = r.1) = [] := by
    refine List.filter_eq_nil_iff.mpr fun other hmem hcode => ?_
    have hother : (!isSuccess other.1) = true := hearlier other hmem
    rw [of_decide_eq_true hcode, hsuccess] at hother
    cases hother
  have hties := hsorted.ties r.1
  rw [List.filter_append, hnone, List.nil_append, List.filter_cons_of_pos (by simp)] at hties
  obtain ⟨before, after, hnumbered, hbefore, -, -⟩ := List.filter_eq_cons_iff.mp hties.symm
  refine ⟨hsuccess, before, after, hnumbered, fun other hmem ho => ?_, fun other hmem ho => ?_⟩
  · have hle := hleast other (hnumbered ▸ List.mem_append_left _ hmem) ho
    exact lt_of_le_of_ne hle fun hcode => hbefore other hmem (decide_eq_true hcode.symm)
  · exact hleast other (hnumbered ▸ List.mem_append_right _ (List.mem_cons_of_mem _ hmem)) ho

theorem success?_eq_none {table : ResponseTable} :
    table.success? = none ↔ ∀ r ∈ table.numbered, ¬ isSuccess r.1 := by
  unfold success?
  rw [List.find?_eq_none]
  simp only [List.mem_mergeSort]

theorem stablySorted_failures (table : ResponseTable) :
    StablySorted Prod.fst (table.numbered.filter fun r => !isSuccess r.1) table.failures :=
  (StablySorted.mergeSort Prod.fst table.numbered).filter _

end ResponseTable

namespace ApiDocument

variable {doc : ApiDocument}

/-- The response of an entry with a text key. -/
def Answers (doc : ApiDocument) (e : Scalar × Node) (r : String × Node) : Prop :=
  e.1 = .str r.1 ∧ doc.dereference e.2 = .ok r.2

/-- Numeric keys go to the numbered responses, in the order of the document; the last response with
the key `default` is the default one. -/
theorem tabulate_eq_ok {table result : ResponseTable} {es : Entries}
    (hes : ∀ e ∈ es, (∃ key, e.1 = .str key) ∧ e.2.isMap)
    (h : doc.tabulate table es = .ok result) :
    ∃ rs, List.Forall₂ doc.Answers es rs ∧
      result.numbered = table.numbered ++ Responses.numbered rs ∧
      result.default = (Responses.default? rs <|> table.default) := by
  induction es generalizing table with
  | nil =>
    obtain rfl := pure_eq_ok.mp h
    exact ⟨[], .nil, (List.append_nil _).symm, rfl⟩
  | cons e rest ih =>
    obtain ⟨key, raw⟩ := e
    obtain ⟨⟨⟨key, rfl⟩, hmap⟩, hrest⟩ := List.forall_mem_cons.mp hes
    unfold tabulate at h
    obtain ⟨node, hnode, h⟩ := ite_bind_eq_ok.mp h
    rw [if_pos hmap] at hnode
    obtain ⟨text, htext, h⟩ := bind_eq_ok.mp h
    obtain rfl : key = text := (Node.shown_eq_ok.mp htext).2
    by_cases hkey : key = "default"
    · replace h := (if_pos hkey).symm.trans h
      obtain ⟨rs, hrs, hn, hd⟩ := ih hrest h
      refine ⟨(key, node) :: rs, .cons ⟨rfl, hnode⟩ hrs, ?_, ?_⟩
      · have hnone : Numeral.int? key.toList = none := hkey ▸ by decide
        rw [hn, Responses.numbered_cons, hnone]
        rfl
      · rw [hd, Responses.default?_cons, if_pos hkey]
    obtain ⟨code, hcode, h⟩ := bind_eq_ok.mp ((if_neg hkey).symm.trans h)
    obtain rfl := Except.ok.inj hcode
    cases hcode : Numeral.int? key.toList with
    | none =>
      rw [hcode] at h
      obtain ⟨rs, hrs, hn, hd⟩ := ih hrest h
      refine ⟨(key, node) :: rs, .cons ⟨rfl, hnode⟩ hrs, ?_, ?_⟩
      · rw [hn, Responses.numbered_cons, hcode]
        rfl
      · rw [hd, Responses.default?_cons, if_neg hkey]
    | some code =>
      rw [hcode] at h
      obtain ⟨rs, hrs, hn, hd⟩ := ih hrest h
      refine ⟨(key, node) :: rs, .cons ⟨rfl, hnode⟩ hrs, ?_, ?_⟩
      · rw [hn, Responses.numbered_cons, hcode, List.append_assoc]
        rfl
      · rw [hd, Responses.default?_cons, if_neg hkey]

theorem code_of_response {code : Option Int} {node : Node} {result : Response}
    (h : doc.response code node = .ok result) : result.code = code := by
  obtain ⟨schema, -, h⟩ := bind_eq_ok.mp h
  cases schema with
  | none =>
    obtain ⟨_, -, h⟩ := bind_eq_ok.mp h
    obtain ⟨_, -, h⟩ := bind_eq_ok.mp h
    exact pure_eq_ok.mp h ▸ rfl
  | some schema =>
    obtain ⟨_, -, h⟩ := bind_eq_ok.mp h
    obtain ⟨_, -, h⟩ := bind_eq_ok.mp h
    obtain ⟨_, -, h⟩ := bind_eq_ok.mp h
    exact pure_eq_ok.mp h ▸ rfl

theorem code_of_errorOf {code : Int} {node : Node} {e : ErrorResponse}
    (h : errorOf code node = .ok e) : e.code = .status code := by
  obtain ⟨_, -, h⟩ := bind_eq_ok.mp h
  obtain ⟨_, -, h⟩ := ite_bind_eq_ok.mp h
  exact pure_eq_ok.mp h ▸ rfl

theorem code_of_defaultError {node : Node} {e : ErrorResponse} (h : defaultError node = .ok e) :
    e.code = .word "default" := by
  obtain ⟨_, -, h⟩ := bind_eq_ok.mp h
  split at h
  · exact pure_eq_ok.mp h ▸ rfl
  · cases h

/-- The response that an operation returns. -/
inductive IsResult (doc : ApiDocument) (rs : List (String × Node)) : Response → Prop where
  | success {before after : List (Int × Node)} {code : Int} {node : Node} {result : Response}
      (numbered : Responses.numbered rs = before ++ (code, node) :: after)
      (isSuccess : isSuccess code)
      (before : ∀ r ∈ before, ClientGen.isSuccess r.1 → code < r.1)
      (after : ∀ r ∈ after, ClientGen.isSuccess r.1 → code ≤ r.1)
      (made : doc.response (some code) node = .ok result) (hasCode : result.code = some code) :
      IsResult doc rs result
  | default {node : Node} {result : Response}
      (failures : ∀ r ∈ Responses.numbered rs, ¬ ClientGen.isSuccess r.1)
      (default : Responses.default? rs = some node)
      (made : doc.response none node = .ok result) (hasCode : result.code = none) :
      IsResult doc rs result
  | nothing (failures : ∀ r ∈ Responses.numbered rs, ¬ ClientGen.isSuccess r.1)
      (default : Responses.default? rs = none) : IsResult doc rs (.void none none)

/-- An error for each code that tells no success, in the order of the codes. -/
def Documents (rs : List (String × Node)) (errors : List ErrorResponse) : Prop :=
  ∃ failures,
    StablySorted Prod.fst ((Responses.numbered rs).filter fun r => !isSuccess r.1) failures ∧
    List.Forall₂ (fun r e => errorOf r.1 r.2 = .ok e ∧ e.code = .status r.1) failures errors

/-- The errors of an operation, with one for the default response beside a success. -/
inductive AreErrors (rs : List (String × Node)) : List ErrorResponse → Prop where
  | alone {errors : List ErrorResponse} (documents : Documents rs errors)
      (noDefault : (∀ r ∈ Responses.numbered rs, ¬ isSuccess r.1) ∨
        Responses.default? rs = none) :
      AreErrors rs errors
  | withDefault {errors : List ErrorResponse} {node : Node} {e : ErrorResponse}
      (documents : Documents rs errors) (success : ∃ r ∈ Responses.numbered rs, isSuccess r.1)
      (default : Responses.default? rs = some node) (made : defaultError node = .ok e)
      (hasCode : e.code = .word "default") :
      AreErrors rs (errors ++ [e])

theorem documents_of_failures {table : ResponseTable} {rs : List (String × Node)}
    (hnumbered : table.numbered = Responses.numbered rs) {errors : List ErrorResponse}
    (h : (table.failures.mapM fun (code, node) => errorOf code node) = .ok errors) :
    Documents rs errors :=
  ⟨table.failures, hnumbered ▸ table.stablySorted_failures,
    (mapM_eq_ok.mp h).imp fun _ _ he => ⟨he, code_of_errorOf he⟩⟩

section Table

variable {table : ResponseTable} {rs : List (String × Node)}
  (hnumbered : table.numbered = Responses.numbered rs)
  (hdefault : table.default = Responses.default? rs)
include hnumbered hdefault

/-- What is chosen from the table of some responses is the result of these. -/
theorem isResult_of_chooses {result : Response} (h : doc.Chooses table result) :
    doc.IsResult rs result := by
  cases h with
  | success hs made =>
    obtain ⟨hcode, before, after, hsplit, hbefore, hafter⟩ := ResponseTable.success?_eq_some hs
    exact .success (hnumbered.symm.trans hsplit) hcode hbefore hafter made (code_of_response made)
  | default hs hd made =>
    have hfailures := hnumbered ▸ ResponseTable.success?_eq_none.mp hs
    exact .default hfailures (hdefault.symm.trans hd) made (code_of_response made)
  | nothing hs hd =>
    exact .nothing (hnumbered ▸ ResponseTable.success?_eq_none.mp hs) (hdefault.symm.trans hd)

theorem areErrors_of_collects {failures errors : List ErrorResponse}
    (hfailures : (table.failures.mapM fun (code, node) => errorOf code node) = .ok failures)
    (h : Collects table failures errors) : AreErrors rs errors := by
  have hdocuments := documents_of_failures hnumbered hfailures
  cases h with
  | failures hno =>
    refine .alone hdocuments (hno.imp (fun hs => ?_) hdefault.symm.trans)
    exact hnumbered ▸ ResponseTable.success?_eq_none.mp hs
  | default hs hd made =>
    obtain ⟨hcode, before, after, hsplit, -⟩ := ResponseTable.success?_eq_some hs
    have hmem := hnumbered.symm.trans hsplit ▸ List.mem_append_right before List.mem_cons_self
    exact .withDefault hdocuments ⟨_, hmem, hcode⟩ (hdefault.symm.trans hd) made
      (code_of_defaultError made)

end Table

/-- Each response of an operation has one use. The result is the response of the least code of
success, the first one with this code, else the default response, else nothing. The errors are those
of all codes that tell no success, by code, and that of the default response if it is not the
result. -/
theorem results_of_responses {es : Entries} {results : List Response}
    {errors : List ErrorResponse} (hes : ∀ e ∈ es, (∃ key, e.1 = .str key) ∧ e.2.isMap)
    (h : doc.results (.map es) = .ok (results, errors)) :
    ∃ rs, List.Forall₂ doc.Answers es rs ∧
      (∃ result, results = [result] ∧ doc.IsResult rs result) ∧ AreErrors rs errors := by
  obtain ⟨_, table, result, failures, hmembers, htable, rfl, hchosen, hfailures, hcollects⟩ :=
    results_eq_ok h
  obtain rfl := Except.ok.inj hmembers
  obtain ⟨rs, hrs, hnumbered, hdefault⟩ := tabulate_eq_ok hes htable
  rw [List.nil_append] at hnumbered
  replace hdefault : table.default = Responses.default? rs := by
    rw [hdefault]
    cases Responses.default? rs <;> rfl
  exact ⟨rs, hrs, ⟨result, rfl, isResult_of_chooses hnumbered hdefault hchosen⟩,
    areErrors_of_collects hnumbered hdefault hfailures hcollects⟩

namespace PetAnswers

def document : ApiDocument where
  dialect := .openApi3
  root := .map []
  schemas := []

def answer (text : String) : Node := .map [(.str "description", .str text)]

def responses : Entries :=
  [(.str "default", answer "Trouble"), (.str "404", answer "No pet"), (.str "201", answer "Made"),
    (.str "200", answer "Found"), (.str "0200", answer "Found again"), (.str "302", answer ""),
    (.str "2XX", answer "Fine")]

def table : ResponseTable where
  numbered :=
    [(404, answer "No pet"), (201, answer "Made"), (200, answer "Found"),
      (200, answer "Found again"), (302, answer "")]
  default := some (answer "Trouble")

def result : Response := .void (some 200) (some "Found")

def errors : List ErrorResponse :=
  [⟨.status 302, "Found"⟩, ⟨.status 404, "No pet"⟩, ⟨.word "default", "Trouble"⟩]

theorem tabulate_answer (table : ResponseTable) (key text : String) (rest : Entries) :
    document.tabulate table ((.str key, answer text) :: rest) =
      if key = "default" then document.tabulate { table with default := some (answer text) } rest
      else
        match Numeral.int? key.toList with
        | some code =>
          document.tabulate
            { table with numbered := table.numbered ++ [(code, answer text)] } rest
        | none => document.tabulate table rest := by
  have hself : document.dereference (answer text) = .ok (answer text) := dereference_eq_self rfl
  rw [tabulate, hself]
  rfl

theorem results_pet : document.results (.map responses) = .ok ([result], errors) := by
  have htable : document.tabulate {} responses = .ok table := by
    have hcodes : ["404", "201", "200", "0200", "302", "2XX"].map (Numeral.int? ·.toList) =
        [some 404, some 201, some 200, some 200, some 302, none] := by
      decide +kernel
    simp only [List.map_cons, List.cons.injEq] at hcodes
    have hend (table : ResponseTable) : document.tabulate table [] = .ok table := rfl
    simp only [responses, tabulate_answer, hcodes, hend, String.reduceEq, if_true, if_false]
    rfl
  have hsorted : (table.numbered.mergeSort fun a b => a.1 ≤ b.1) =
      [(200, answer "Found"), (200, answer "Found again"), (201, answer "Made"),
        (302, answer ""), (404, answer "No pet")] := by
    simp [table, List.mergeSort]
  refine bind_eq_ok.mpr ⟨responses, rfl, bind_eq_ok.mpr ⟨table, htable, ?_⟩⟩
  rw [ResponseTable.success?, ResponseTable.failures, hsorted]
  rfl

theorem results_answers : (∀ e ∈ responses, (∃ key, e.1 = .str key) ∧ e.2.isMap) ∧
    document.results (.map responses) = .ok ([result], errors) ∧
    ∃ rs, List.Forall₂ document.Answers responses rs ∧
      (∃ r, [result] = [r] ∧ document.IsResult rs r) ∧ AreErrors rs errors := by
  have hes : ∀ e ∈ responses, (∃ key, e.1 = .str key) ∧ e.2.isMap := by
    simp [responses, answer, Node.isMap]
  exact ⟨hes, results_pet, results_of_responses hes results_pet⟩

end PetAnswers

end ApiDocument

end ClientGen
