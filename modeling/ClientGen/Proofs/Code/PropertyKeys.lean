import ClientGen.Proofs.Code.QuotedTexts
import ClientGen.Proofs.Naming.Words

/-! The keys of properties in generated types: which of them stand for the keys of the document. -/

namespace ClientGen

namespace Naming

theorem ascii_of_isBareStart {c : Char} (h : isBareStart c) : c.toNat < 0x80 := by
  rcases Bool.or_eq_true_iff.mp h with h | h
  · rcases Bool.or_eq_true_iff.mp h with h | h
    · exact ascii_of_isNameChar (isNameChar_of_isAlpha h)
    · rw [beq_iff_eq.mp h]
      decide
  · rw [beq_iff_eq.mp h]
    decide

end Naming

namespace Text

variable {start part : Char → Bool}

/-- A first character of one kind, and others of a second kind. -/
def HasForm (start part : Char → Bool) (s : String) : Prop :=
  ∃ c rest, s.toList = c :: rest ∧ start c ∧ ∀ d ∈ rest, part d

theorem hasForm_iff {s : String} {c : Char} {rest : List Char} (h : s.toList = c :: rest) :
    HasForm start part s ↔ start c ∧ ∀ d ∈ rest, part d := by
  constructor
  · rintro ⟨d, more, heq, hall⟩
    obtain ⟨rfl, rfl⟩ := List.cons.inj (h.symm.trans heq)
    exact hall
  · exact fun hall => ⟨c, rest, h, hall⟩

theorem not_hasForm_empty : ¬ HasForm start part "" :=
  fun ⟨c, rest, h, _⟩ => List.cons_ne_nil c rest h.symm

end Text

/-- The characters of identifiers in generated code. Those of ASCII are fixed, and those of every
script are among the others; which more there are is open. -/
structure Lexicon where
  isStart : Char → Bool
  isPart : Char → Bool
  start_of_ascii : ∀ c, c.toNat < 0x80 → isStart c = (c.isAlpha || c == '_' || c == '$')
  part_of_ascii : ∀ c, c.toNat < 0x80 → isPart c = (c.isAlphanum || c == '_' || c == '$')
  start_of_script : ∀ c, Text.isIdentifierStart c → isStart c
  part_of_script : ∀ c, Text.isIdentifierPart c → isPart c

namespace Lexicon

/-- The identifiers of every script, and the dollar. -/
def unicode : Lexicon where
  isStart c := Text.isIdentifierStart c || c == '$'
  isPart c := Text.isIdentifierPart c || c == '$'
  start_of_ascii c h := by rw [Text.isIdentifierStart, if_pos h]
  part_of_ascii c h := by rw [Text.isIdentifierPart, if_pos h]
  start_of_script c h := by rw [h, Bool.true_or]
  part_of_script c h := by rw [h, Bool.true_or]

variable (x : Lexicon)

/-- A text that is one identifier. -/
def IsIdentifier (s : String) : Prop := Text.HasForm x.isStart x.isPart s

theorem isStart_of_isBareStart {c : Char} (h : Naming.isBareStart c) : x.isStart c := by
  rw [x.start_of_ascii c (Naming.ascii_of_isBareStart h)]
  exact h

theorem isPart_of_isBareStart {c : Char} (h : Naming.isBareStart c) : x.isPart c := by
  rw [x.part_of_ascii c (Naming.ascii_of_isBareStart h)]
  simp only [Naming.isBareStart, Char.isAlphanum, Bool.or_eq_true] at h ⊢
  tauto

/-- Identifiers stand on one line. -/
theorem not_mem_of_isIdentifier {s : String} (h : x.IsIdentifier s) : '\n' ∉ s.toList := by
  have hstart : x.isStart '\n' = false := x.start_of_ascii '\n' (by decide)
  have hpart : x.isPart '\n' = false := x.part_of_ascii '\n' (by decide)
  obtain ⟨c, rest, hcons, hc, hrest⟩ := h
  rw [hcons, List.mem_cons, not_or]
  constructor
  · rintro rfl
    exact Bool.false_ne_true (hstart.symm.trans hc)
  · exact fun hline => Bool.false_ne_true (hpart.symm.trans (hrest _ hline))

end Lexicon

/-- What the key of a property stands for: an identifier stands for itself, and a literal in quotes
for the text in it. -/
inductive KeyDenotes (x : Lexicon) (e : Escapes) (key : String) : String → Prop
  | bare (h : x.IsIdentifier key) : KeyDenotes x e key key
  | quoted {s : String} (h : e.Denotes key s) : KeyDenotes x e key s

namespace Escapes

variable {e : Escapes}

/-- A literal is longer than what it denotes, by its closing quote at least. -/
theorem length_lt_of_readBody? {v : List Char} : ∀ {body : List Char},
    e.readBody? body = some v → v.length < body.length
  | [], h => by cases h
  | c :: body, h => by
    by_cases hquote : c = '\''
    · subst hquote
      rw [readBody?] at h
      split_ifs at h
      obtain rfl := Option.some.inj h
      exact Nat.succ_pos _
    by_cases hbackslash : c = '\\'
    · subst hbackslash
      cases body with
      | nil => cases h
      | cons d body =>
        rw [readBody?] at h
        split_ifs at h
        obtain ⟨w, hw, rfl⟩ := Option.map_eq_some_iff.mp h
        have hlt := length_lt_of_readBody? hw
        simp only [List.length_cons]
        omega
    · rw [readBody?_bare hquote hbackslash] at h
      split_ifs at h
      obtain ⟨w, hw, rfl⟩ := Option.map_eq_some_iff.mp h
      have hlt := length_lt_of_readBody? hw
      simpa using hlt

/-- A character that stands for itself in a literal. -/
def IsPlain (c : Char) : Prop := c ≠ '\'' ∧ c ≠ '\\' ∧ endsLine c = false

/-- Characters in quotes, without any escapes, are read back if each stands for itself. -/
theorem readBody?_unescaped_iff (s : List Char) :
    e.readBody? (s ++ ['\'']) = some s ↔ ∀ c ∈ s, IsPlain c := by
  induction s with
  | nil => simp [readBody?]
  | cons c s ih =>
    rw [List.cons_append, List.forall_mem_cons]
    by_cases hquote : c = '\''
    · subst hquote
      refine iff_of_false (fun h => ?_) fun h => h.1.1 rfl
      simp [readBody?] at h
    by_cases hbackslash : c = '\\'
    · subst hbackslash
      refine iff_of_false (fun h => ?_) fun h => h.1.2.1 rfl
      cases s with
      | nil => simp [readBody?, endsLine] at h
      | cons d s =>
        -- The escape takes two characters for one, so what is read is too short.
        rw [List.cons_append, readBody?] at h
        split_ifs at h
        obtain ⟨w, hw, heq⟩ := Option.map_eq_some_iff.mp h
        have hlt := length_lt_of_readBody? hw
        have hlength := congrArg List.length heq
        simp at hlt hlength
        omega
    · rw [readBody?_bare hquote hbackslash]
      cases hline : endsLine c with
      | true => simp [IsPlain, hline]
      | false =>
        have hplain : IsPlain c := ⟨hquote, hbackslash, hline⟩
        simp [ih, hplain]

/-- No text is a literal that denotes it. -/
theorem not_denotes_self (s : String) : ¬ e.Denotes s s := by
  intro h
  rw [Denotes, read?] at h
  split at h
  · next body hcons =>
    obtain ⟨v, hv, rfl⟩ := Option.map_eq_some_iff.mp h
    have hlt := length_lt_of_readBody? hv
    rw [String.toList_ofList] at hcons
    rw [hcons, List.length_cons] at hlt
    omega
  · cases h

theorem denotes_unescaped_iff (s : String) :
    e.Denotes ("'" ++ s ++ "'") s ↔ ∀ c ∈ s.toList, IsPlain c := by
  have hquoted : "'" ++ s ++ "'" = String.ofList ('\'' :: (s.toList ++ ['\''])) := by
    rw [← String.toList_inj]
    simp
  rw [← readBody?_unescaped_iff (e := e), Denotes, hquoted, read?_ofList, Option.map_eq_some_iff]
  constructor
  · rintro ⟨v, hv, rfl⟩
    simpa using hv
  · exact fun h => ⟨s.toList, h, String.ofList_toList⟩

end Escapes

namespace Naming

/-- The form of a name that needs no quotes. -/
def IsBare (s : String) : Prop := Text.HasForm isBareStart isBarePart s

/-- Names without quotes have the form of a bare name, but for a line feed at the end. -/
theorem isBareName_cases {s : String} (h : isBareName s.toList) :
    IsBare s ∨ ¬ IsBare s ∧ '\n' ∈ s.toList := by
  cases hcons : s.toList with
  | nil =>
    rw [hcons] at h
    cases h
  | cons c rest =>
    rw [hcons, isBareName, Bool.and_eq_true_iff, Bool.or_eq_true_iff] at h
    obtain ⟨hc, hrest⟩ := h
    rw [IsBare, Text.hasForm_iff hcons, ← List.all_eq_true]
    by_cases hall : rest.all isBarePart
    · exact .inl ⟨hc, hall⟩
    · have hlast := beq_iff_eq.mp (Bool.and_eq_true_iff.mp (hrest.resolve_left hall)).1
      exact .inr ⟨fun hbare => hall hbare.2, List.mem_cons_of_mem c (List.mem_of_getLast? hlast)⟩

theorem isBareName_of_isBare {s : String} (h : IsBare s) : isBareName s.toList := by
  obtain ⟨c, rest, hcons, hc, hrest⟩ := h
  rw [hcons, isBareName, hc, List.all_eq_true.mpr hrest]
  rfl

/-- A name that stands for itself as the key of a property: one without quotes is an identifier, and
in quotes nothing needs an escape. -/
def KeepsSpelling (x : Lexicon) (s : String) : Prop :=
  s ≠ "" ∧ (IsBare s ∧ (∀ c ∈ s.toList, x.isPart c) ∨
    ¬ IsBare s ∧ ∀ c ∈ s.toList, Escapes.IsPlain c)

variable {x : Lexicon} {e : Escapes} {s : String}

theorem keyDenotes_self_iff : KeyDenotes x e s s ↔ x.IsIdentifier s := by
  constructor
  · rintro (h | h)
    · exact h
    · exact absurd h (Escapes.not_denotes_self s)
  · exact .bare

theorem keyDenotes_quoted_iff :
    KeyDenotes x e ("'" ++ s ++ "'") s ↔ ∀ c ∈ s.toList, Escapes.IsPlain c := by
  rw [← Escapes.denotes_unescaped_iff (e := e)]
  refine ⟨fun h => ?_, .quoted⟩
  generalize hkey : "'" ++ s ++ "'" = key at h
  cases h with
  | bare =>
    have hlength := congrArg (·.toList.length) hkey
    simp only [String.toList_append, List.length_append, String.reduceToList, List.length_cons,
      List.length_nil] at hlength
    omega
  | quoted h => exact hkey ▸ h

theorem isIdentifier_iff_of_isBare (h : IsBare s) :
    x.IsIdentifier s ↔ ∀ c ∈ s.toList, x.isPart c := by
  obtain ⟨c, rest, hcons, hc, -⟩ := h
  have hstart : x.isStart c ↔ x.isPart c :=
    iff_of_true (x.isStart_of_isBareStart hc) (x.isPart_of_isBareStart hc)
  rw [hcons, List.forall_mem_cons, ← hstart]
  exact Text.hasForm_iff hcons

theorem keyDenotes_propertyKey_iff :
    KeyDenotes x e (propertyKey s) s ↔ KeepsSpelling x s := by
  by_cases hempty : s = ""
  · rw [propertyKey, if_pos (.inl hempty), keyDenotes_self_iff]
    exact iff_of_false (hempty ▸ Text.not_hasForm_empty) fun h => h.1 hempty
  rw [KeepsSpelling, and_iff_right hempty]
  by_cases hname : isBareName s.toList
  · rw [propertyKey, if_pos (.inr hname), keyDenotes_self_iff]
    rcases isBareName_cases hname with hbare | ⟨hbare, hline⟩
    · simp only [hbare, true_and, not_true_eq_false, false_and, or_false]
      exact isIdentifier_iff_of_isBare hbare
    · refine iff_of_false (fun h => x.not_mem_of_isIdentifier h hline) ?_
      rintro (⟨hb, -⟩ | ⟨-, hplain⟩)
      · exact hbare hb
      · exact absurd (hplain _ hline).2.2 (by decide)
  · have hbare : ¬ IsBare s := fun h => hname (isBareName_of_isBare h)
    rw [propertyKey, if_neg (not_or.mpr ⟨hempty, hname⟩), keyDenotes_quoted_iff]
    simp only [hbare, false_and, not_false_eq_true, true_and, false_or]

/-- A name with a quote, a backslash or a line feed is neither an identifier nor free of escapes. -/
theorem not_keepsSpelling {c : Char} (hc : c = '\'' ∨ c = '\\' ∨ c = '\n')
    (hmem : c ∈ s.toList) : ¬ KeepsSpelling x s := by
  have hforeign : c.toNat < 0x80 ∧ (c.isAlphanum || c == '_' || c == '$') = false := by
    rcases hc with rfl | rfl | rfl <;> decide
  rintro ⟨-, ⟨-, hparts⟩ | ⟨-, hplain⟩⟩
  · have hpart := hparts c hmem
    rw [x.part_of_ascii c hforeign.1, hforeign.2] at hpart
    cases hpart
  · obtain ⟨hquote, hbackslash, hline⟩ := hplain c hmem
    rcases hc with rfl | rfl | rfl
    · exact hquote rfl
    · exact hbackslash rfl
    · exact absurd hline (by decide)

end Naming

namespace Model

/-- A property is printed with the key for its name, and this stands for the name where no
character of it needs an escape or is foreign to identifiers, and it is not empty. -/
theorem key_denotes_name_iff (x : Lexicon) (e : Escapes) (m : Model) :
    (∀ parent union, m.signature parent union =
      (if m.isReadOnly then "readonly " else "") ++ Naming.propertyKey m.name ++
        (if m.isRequired then "" else "?") ++ ": " ++ m.typeExpression parent union ++ ";") ∧
    (KeyDenotes x e (Naming.propertyKey m.name) m.name ↔ Naming.KeepsSpelling x m.name) :=
  ⟨fun _ _ => rfl, Naming.keyDenotes_propertyKey_iff⟩

namespace PetKeys

def names : List String := ["it's", "a\\b", "a b\n", "a\n", ""]

/-- Quotes, backslashes and line feeds are not escaped, a line feed at the end is even left without
quotes, and the empty key is written as nothing. -/
theorem keys_of_other_names :
    names.map Naming.propertyKey = ["'it's'", "'a\\b'", "'a b\n'", "a\n", ""] ∧
    ∀ s ∈ names, ¬ KeyDenotes Lexicon.unicode Escapes.plain (Naming.propertyKey s) s := by
  have hforms : ∀ s ∈ names, ¬ Naming.KeepsSpelling Lexicon.unicode s := by
    simp only [names, List.forall_mem_cons]
    refine ⟨?_, ?_, ?_, ?_, fun h => h.1 rfl, fun s hs => absurd hs List.not_mem_nil⟩
    · exact Naming.not_keepsSpelling (.inl rfl) (by decide)
    · exact Naming.not_keepsSpelling (.inr (.inl rfl)) (by decide)
    · exact Naming.not_keepsSpelling (.inr (.inr rfl)) (by decide)
    · exact Naming.not_keepsSpelling (.inr (.inr rfl)) (by decide)
  refine ⟨by decide +kernel, fun s hs hkey => ?_⟩
  exact hforms s hs (Naming.keyDenotes_propertyKey_iff.mp hkey)

end PetKeys

end Model

end ClientGen
