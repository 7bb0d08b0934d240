import ClientGen.Proofs.Schema.Imports

/-! The words of a type are names of types. None of them is the name of a container, which is
written for an array or a dictionary only. -/

namespace ClientGen

namespace TypeExpr

/-- Every word of a type is the name of one. -/
def NamesTypes (t : TypeExpr) : Prop := ∀ w ∈ words t.text, IsTypeName w

theorem namesTypes_of_isTypeName {t : TypeExpr} (h : IsTypeName t.text) : t.NamesTypes := by
  intro w hw
  rw [h.isName.words_eq] at hw
  exact List.mem_singleton.mp hw ▸ h

theorem namesTypes_any (t : TypeExpr) (h : t.text = "any") : t.NamesTypes :=
  namesTypes_of_isTypeName (h ▸ .builtIn (by decide))

theorem namesTypes_named (expression : String) : (named expression).NamesTypes := by
  refine namesTypes_of_isTypeName ?_
  have htext : (named expression).text = (named expression).base := by
    rcases named_cases expression with h | ⟨name, -, h⟩ <;> rw [h]
  exact htext ▸ isTypeName_base_named expression

theorem NamesTypes.arrayOf {items : TypeExpr} (h : items.NamesTypes) :
    (arrayOf items).NamesTypes := by
  intro w hw
  rw [TypeExpr.arrayOf, words_brackets] at hw
  exact h w hw

theorem namesTypes_ofWord (fromReference : Bool) (word : String) :
    (ofWord fromReference word).NamesTypes := by
  rcases text_ofWord fromReference word with harray | hbase
  · have hany := (namesTypes_any {} rfl).arrayOf
    unfold NamesTypes at hany ⊢
    rw [harray]
    exact hany
  · exact namesTypes_of_isTypeName (hbase ▸ isTypeName_base_ofWord fromReference word)

theorem NamesTypes.apply {head argument : TypeExpr} (hhead : head.NamesTypes)
    (h : argument.NamesTypes) : (apply head argument).NamesTypes := by
  unfold TypeExpr.apply
  split_ifs
  · exact h.arrayOf
  · exact hhead
  · intro w hw
    rw [words_application] at hw
    exact (List.mem_append.mp hw).elim (hhead w) (h w)

theorem namesTypes_ofChars (fromReference : Bool) (s : List Char) :
    (ofChars fromReference s).NamesTypes := by
  induction s using ofChars.induct with
  | case1 s head argument hs ih =>
    rw [ofChars, hs]
    exact (namesTypes_ofWord fromReference _).apply ih
  | case2 s hs =>
    rw [ofChars, hs]
    exact namesTypes_ofWord fromReference _

theorem namesTypes_ofText (s : String) : (ofText s).NamesTypes := by
  unfold ofText
  dsimp only
  split_ifs
  · exact namesTypes_named _
  · exact namesTypes_ofChars true _
  · exact namesTypes_ofChars false _

/-- A type whose words are names of types does not start with the name of a container. -/
theorem NamesTypes.text_ne {t : TypeExpr} (h : t.NamesTypes) {container : String}
    (hname : IsName container) (hreserved : container ∈ reserved) (hfile : container ≠ "File")
    (rest : String) : t.text ≠ container ++ "<" ++ rest := by
  intro heq
  have hword : container ∈ words t.text := by
    have hlist : (container ++ "<" ++ rest).toList = container.toList ++ '<' :: rest.toList := by
      rw [String.toList_append, String.toList_append, List.append_assoc]
      rfl
    rw [heq, words, hlist, runs_append_cons _ _ (by decide), List.map_append]
    refine List.mem_append_left _ ?_
    have hself := hname.words_eq
    rw [words] at hself
    rw [hself]
    exact List.mem_singleton_self container
  exact hfile ((h container hword).eq_file hreserved)

end TypeExpr

namespace ApiDocument

variable {doc : ApiDocument}

theorem namesTypes_keywordType (kind : Node) : (keywordType kind).NamesTypes := by
  unfold keywordType
  cases typeKeyword? kind with
  | some keyword => exact TypeExpr.namesTypes_ofText keyword
  | none => exact TypeExpr.namesTypes_any {} rfl

/-- The words in the type of a model are names of types. -/
theorem Built.namesTypes {isDefinition : Bool} {name : Option String} {schema : Node} {m : Model}
    (h : doc.Built isDefinition name schema m) : m.type.NamesTypes := by
  have hpart {part : Part} (ih : ∀ s m, part = .inline s m → m.type.NamesTypes) :
      part.type.NamesTypes := by
    cases part with
    | named ref => exact TypeExpr.namesTypes_ofText ref
    | inline s m => exact ih s m rfl
  induction h with
  | noSchema => exact TypeExpr.namesTypes_any _ rfl
  | again => exact TypeExpr.namesTypes_any _ rfl
  | named =>
    dsimp only [Outline.type_applied]
    exact TypeExpr.namesTypes_ofText _
  | target _ _ _ _ ih => exact ih
  | enum _ _ he =>
    obtain ⟨base, hbase, members, rfl⟩ := enumModel?_cases he
    exact TypeExpr.namesTypes_of_isTypeName (.builtIn hbase)
  | array _ _ _ _ _ ih => exact hpart ih
  | dictionary _ _ _ _ _ ih => exact hpart ih
  | composition => exact TypeExpr.namesTypes_any _ rfl
  | interface => exact TypeExpr.namesTypes_any _ rfl
  | keyword => exact namesTypes_keywordType _

end ApiDocument

end ClientGen
