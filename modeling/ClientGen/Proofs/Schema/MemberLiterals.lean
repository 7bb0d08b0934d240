import ClientGen.Code.Expression
import ClientGen.Proofs.Number.NumberTexts
import ClientGen.Proofs.Schema.MemberNames

/-! The literals of the members of an enumeration. A union of literals is never the name of the type
of the members. -/

namespace ClientGen

namespace EnumEntry

/-- Members are written as texts in quotes, as truth values or as numbers. -/
inductive Written (entry : EnumEntry) : Prop
  | quoted (h : entry.type = "string")
  | truth (h : entry.type = "boolean") (b : Bool) (hb : entry.value = toString b)
  | number (h : entry.type = "number") (hn : IsNumberText entry.value.toList)

theorem written_memberOf? {s : Scalar} {entry : EnumEntry} (h : memberOf? s = some entry) :
    entry.Written := by
  unfold memberOf? at h
  split at h
  · next b =>
    obtain rfl := Option.some.inj h
    exact .truth rfl b (by cases b <;> rfl)
  · next i =>
    obtain rfl := Option.some.inj h
    exact .number rfl (isNumberText_int i)
  · next x =>
    obtain rfl := Option.some.inj h
    exact .number rfl x.isNumberText_text
  · obtain rfl := Option.some.inj h
    exact .quoted rfl
  · cases h

/-- Only the value and the type of a member matter for how it is written. -/
theorem Written.congr {a b : EnumEntry} (h : a.Written)
    (hsame : (a.value, a.type) = (b.value, b.type)) : b.Written := by
  obtain ⟨hvalue, htype⟩ := Prod.mk.inj hsame
  cases h with
  | quoted h => exact .quoted (htype ▸ h)
  | truth h b hb => exact .truth (htype ▸ h) b (hvalue ▸ hb)
  | number h hn => exact .number (htype ▸ h) (hvalue ▸ hn)

theorem written_ofValues {values : List Node} {entries : List EnumEntry}
    (h : ofValues values = .ok entries) : ∀ entry ∈ entries, entry.Written :=
  (collects_of_collect h).forall_mem fun _ _ _ hown => (written_memberOf? hown).congr rfl

theorem written_ofDescription {description : String} {entries : List EnumEntry}
    (h : ofDescription description = .ok entries) : ∀ entry ∈ entries, entry.Written := by
  rcases ofDescription_eq_ok.mp h with ⟨-, rfl⟩ | ⟨_, _, -, -, rfl⟩
  · simp
  · exact List.forall_mem_map.mpr fun pair _ =>
      .number rfl (isNumberText_of_isDigit (Numeral.isDigit_of_mem_toString pair.2))

theorem quote_mem_literal {entry : EnumEntry} (h : entry.type = "string") :
    '\'' ∈ entry.literal.toList := by
  rw [literal, if_pos h, singleQuoted, String.toList_ofList]
  exact List.mem_cons_self

/-- The letters that tell the names of types from literals without quotes. -/
theorem Written.not_mem_literal {entry : EnumEntry} (h : entry.Written)
    (hbare : entry.type ≠ "string") : 'g' ∉ entry.literal.toList ∧ 'm' ∉ entry.literal.toList := by
  rw [literal, if_neg hbare]
  cases h with
  | quoted h => exact absurd h hbare
  | truth _ b hb =>
    rw [hb]
    cases b <;> decide
  | number _ hn => exact ⟨fun hg => absurd (hn _ hg) (by decide),
      fun hm => absurd (hn _ hm) (by decide)⟩

end EnumEntry

theorem MemberSource.written {source : MemberSource} {entries : List EnumEntry}
    (h : source.members = .ok entries) : ∀ entry ∈ entries, entry.Written := by
  cases source with
  | described description => exact EnumEntry.written_ofDescription h
  | listed values names descriptions =>
    obtain ⟨own, hown, h⟩ := bind_eq_ok.mp h
    intro entry hentry
    have hmem := List.mem_map_of_mem (f := fun e => (e.value, e.type)) hentry
    rw [EnumEntry.values_extend h] at hmem
    obtain ⟨entry, hentry, hsame⟩ := List.mem_map.mp hmem
    exact (EnumEntry.written_ofValues hown entry hentry).congr hsame

theorem mem_intercalate {separator : String} {parts : List String} {c : Char}
    (hc : c ∉ separator.toList) :
    c ∈ (separator.intercalate parts).toList ↔ ∃ part ∈ parts, c ∈ part.toList := by
  induction parts with
  | nil => simp
  | cons a rest ih =>
    cases rest with
    | nil => simp
    | cons b rest =>
      rw [String.intercalate_cons_cons, String.toList_append, String.toList_append, List.mem_append,
        List.mem_append, ih, List.exists_mem_cons_iff]
      simp [hc]

namespace Model

variable {m : Model} {c : Char}

theorem mem_orNull {type : String} (hc : c ∉ " | null".toList) :
    c ∈ (m.orNull type).toList ↔ c ∈ type.toList := by
  unfold orNull
  split_ifs
  · rw [String.toList_append, List.mem_append, or_iff_left hc]
  · rfl

theorem mem_memberUnion (hmembers : m.members ≠ []) (hc : c ∉ " | ".toList) :
    c ∈ m.memberUnion.toList ↔ ∃ entry ∈ m.members, c ∈ entry.literal.toList := by
  rw [memberUnion, if_neg (by simpa using hmembers), mem_intercalate hc]
  simp only [List.mem_map, exists_exists_and_eq_and]

/-- Alternatives of literals are never the name of the type of the members, with or without
nothing. -/
theorem memberUnion_ne {source : MemberSource} (hmembers : source.members = .ok m.members)
    (hsome : m.members ≠ []) (htype : m.type.text = source.base m.members) :
    m.orNull m.memberUnion ≠ m.type.text := by
  intro heq
  have hwritten := MemberSource.written hmembers
  have hbase := MemberSource.base_eq hmembers hsome
  -- Which characters the alternatives have, the bars between them and nothing apart.
  have hchar (c : Char) (hnull : c ∉ " | null".toList) (hbar : c ∉ " | ".toList) :
      c ∈ (source.base m.members).toList ↔ ∃ entry ∈ m.members, c ∈ entry.literal.toList := by
    rw [← htype, ← heq, mem_orNull hnull, mem_memberUnion hsome hbar]
  by_cases hall : ∀ entry ∈ m.members, entry.type = "number"
  · rw [if_pos hall] at hbase
    rw [hbase] at hchar
    obtain ⟨entry, hentry, hm⟩ := (hchar 'm' (by decide) (by decide)).mp (by decide)
    have hbare : entry.type ≠ "string" := by
      rw [hall entry hentry]
      decide
    exact ((hwritten entry hentry).not_mem_literal hbare).2 hm
  · rw [if_neg hall] at hbase
    rw [hbase] at hchar
    by_cases hquoted : ∃ entry ∈ m.members, entry.type = "string"
    · obtain ⟨entry, hentry, htext⟩ := hquoted
      have hquote := (hchar '\'' (by decide) (by decide)).mpr
        ⟨entry, hentry, EnumEntry.quote_mem_literal htext⟩
      exact absurd hquote (by decide)
    · obtain ⟨entry, hentry, hg⟩ := (hchar 'g' (by decide) (by decide)).mp (by decide)
      have hbare : entry.type ≠ "string" := fun htext => hquoted ⟨entry, hentry, htext⟩
      exact ((hwritten entry hentry).not_mem_literal hbare).1 hg

end Model

end ClientGen
