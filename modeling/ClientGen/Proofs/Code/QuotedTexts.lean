import ClientGen.Code.Core.Types
import ClientGen.Code.Expression
import ClientGen.Proofs.Document.References
import ClientGen.Proofs.Document.Segments
import ClientGen.Proofs.Outcome

/-! Texts of a document as literals in single quotes: which of them a reader of the literals gets
back, from the defaults, from the members of enumerations and from the settings. -/

namespace ClientGen

/-- What a character stands for behind a backslash. Quotes and backslashes stand for themselves. -/
structure Escapes where
  meaning : Char → Char
  meaning_quote : meaning '\'' = '\''
  meaning_backslash : meaning '\\' = '\\'

/-- Characters that may not stand in a literal as they are. -/
def endsLine (c : Char) : Bool := c == '\n' || c == '\r'

def OnOneLine (s : String) : Prop := ∀ c ∈ s.toList, endsLine c = false

instance (s : String) : Decidable (OnOneLine s) := List.decidableBAll _ _

namespace Escapes

/-- Every character stands for itself behind a backslash. -/
def plain : Escapes := ⟨id, rfl, rfl⟩

variable (e : Escapes)

/-- Reads characters up to the quote that ends a literal. Nothing may follow it. -/
def readBody? : List Char → Option (List Char)
  | [] => none
  | '\'' :: rest => if rest = [] then some [] else none
  | ['\\'] => none
  | '\\' :: c :: rest => if endsLine c then none else (readBody? rest).map (e.meaning c :: ·)
  | c :: rest => if endsLine c then none else (readBody? rest).map (c :: ·)

/-- Reads a literal in single quotes. -/
def read? (literal : String) : Option String :=
  match literal.toList with
  | '\'' :: body => (e.readBody? body).map String.ofList
  | _ => none

/-- A text is one whole literal, and this stands for `s`. -/
def Denotes (literal s : String) : Prop := e.read? literal = some s

variable {e}

theorem readBody?_escaped {c : Char} (hc : c = '\'' ∨ c = '\\') (rest : List Char) :
    e.readBody? ('\\' :: c :: rest) = (e.readBody? rest).map (c :: ·) := by
  rcases hc with rfl | rfl
  · simp [readBody?, endsLine, e.meaning_quote]
  · simp [readBody?, endsLine, e.meaning_backslash]

theorem readBody?_bare {c : Char} (hquote : c ≠ '\'') (hbackslash : c ≠ '\\') (rest : List Char) :
    e.readBody? (c :: rest) =
      if endsLine c then none else (e.readBody? rest).map (c :: ·) := by
  rw [readBody?]
  · exact fun h => absurd h hquote
  · exact fun h => absurd h hbackslash
  · exact fun _ _ h => absurd h hbackslash

/-- Characters with backslashes before quotes and backslashes. -/
def escaped (s : List Char) : List Char :=
  s.flatMap fun c => if c = '\\' ∨ c = '\'' then ['\\', c] else [c]

/-- Characters with backslashes before quotes only. -/
def guarded (s : List Char) : List Char :=
  s.flatMap fun c => if c = '\'' then ['\\', '\''] else [c]

theorem guarded_cons (c : Char) (s : List Char) :
    guarded (c :: s) = (if c = '\'' then ['\\', '\''] else [c]) ++ guarded s := List.flatMap_cons

theorem guarded_cons_of_ne {c : Char} (hc : c ≠ '\'') (s : List Char) :
    guarded (c :: s) = c :: guarded s := by
  rw [guarded_cons, if_neg hc, List.singleton_append]

theorem guarded_eq_escaped {s : List Char} (h : '\\' ∉ s) : guarded s = escaped s := by
  refine List.flatMap_congr fun c hc => ?_
  have hbackslash : c ≠ '\\' := fun heq => h (heq ▸ hc)
  by_cases hquote : c = '\''
  · rw [if_pos hquote, if_pos (.inr hquote), hquote]
  · rw [if_neg hquote, if_neg (not_or.mpr ⟨hbackslash, hquote⟩)]

/-- Escaped characters are read back, unless a line ends among them. -/
theorem readBody?_escaped_append (s : List Char) :
    e.readBody? (escaped s ++ ['\'']) = if s.any endsLine then none else some s := by
  induction s with
  | nil => simp [escaped, readBody?]
  | cons c s ih =>
    have hcons : escaped (c :: s) =
        (if c = '\\' ∨ c = '\'' then ['\\', c] else [c]) ++ escaped s := List.flatMap_cons
    rw [hcons, List.append_assoc, List.any_cons]
    by_cases hc : c = '\\' ∨ c = '\''
    · have hline : endsLine c = false := by rcases hc with rfl | rfl <;> rfl
      rw [if_pos hc, List.cons_append, List.cons_append, List.nil_append,
        readBody?_escaped hc.symm, ih, hline, Bool.false_or]
      split_ifs <;> rfl
    · obtain ⟨hbackslash, hquote⟩ := not_or.mp hc
      rw [if_neg hc, List.singleton_append, readBody?_bare hquote hbackslash, ih]
      cases endsLine c with
      | true => rfl
      | false =>
        rw [Bool.false_or, if_neg Bool.false_ne_true]
        split_ifs <;> rfl

/-- What is read from characters with backslashes before quotes only is no longer than these, and
shorter where a backslash is among them: this starts an escape, if not the quote after it ends the
literal too early. -/
theorem length_of_readBody?_guarded {v : List Char} : ∀ {s : List Char},
    e.readBody? (guarded s ++ ['\'']) = some v →
      v.length ≤ s.length ∧ ('\\' ∈ s → v.length < s.length)
  | [], h => by
    obtain rfl : [] = v := by simpa [guarded, readBody?] using h
    exact ⟨Nat.le_refl 0, fun hmem => absurd hmem List.not_mem_nil⟩
  | c :: s, h => by
    by_cases hquote : c = '\''
    · rw [guarded_cons, if_pos hquote] at h
      simp only [List.cons_append, List.nil_append, readBody?_escaped (.inl rfl)] at h
      obtain ⟨w, hw, rfl⟩ := Option.map_eq_some_iff.mp h
      obtain ⟨hle, hlt⟩ := length_of_readBody?_guarded hw
      subst hquote
      simpa using ⟨hle, hlt⟩
    rw [guarded_cons_of_ne hquote, List.cons_append] at h
    by_cases hbackslash : c = '\\'
    · subst hbackslash
      cases s with
      | nil => simp [guarded, readBody?, endsLine] at h
      | cons d s =>
        by_cases hnext : d = '\''
        · rw [guarded_cons, if_pos hnext] at h
          simp [readBody?_escaped (.inr rfl), readBody?] at h
        · rw [guarded_cons_of_ne hnext, List.cons_append, readBody?] at h
          split_ifs at h with hline
          obtain ⟨w, hw, rfl⟩ := Option.map_eq_some_iff.mp h
          have hle := (length_of_readBody?_guarded hw).1
          simp only [List.length_cons]
          omega
    · rw [readBody?_bare hquote hbackslash] at h
      split_ifs at h with hline
      obtain ⟨w, hw, rfl⟩ := Option.map_eq_some_iff.mp h
      obtain ⟨hle, hlt⟩ := length_of_readBody?_guarded hw
      have hne : '\\' ≠ c := Ne.symm hbackslash
      simpa [hne] using ⟨hle, hlt⟩

theorem read?_ofList (body : List Char) :
    e.read? (String.ofList ('\'' :: body)) = (e.readBody? body).map String.ofList := by
  simp [read?]

variable {s : String}

theorem denotes_singleQuoted_iff : e.Denotes (singleQuoted s) s ↔ OnOneLine s := by
  have hquoted : singleQuoted s = String.ofList ('\'' :: (escaped s.toList ++ ['\''])) := rfl
  have hline : s.toList.any endsLine = false ↔ OnOneLine s := by simp [OnOneLine]
  rw [Denotes, hquoted, read?_ofList, readBody?_escaped_append, ← hline]
  cases s.toList.any endsLine <;> simp

/-- A setting has the form of any other literal where no backslash is in its text. -/
theorem settingText_eq (s : String) :
    Code.Core.settingText s = String.ofList ('\'' :: (guarded s.toList ++ ['\''])) := by
  rw [Code.Core.settingText, Text.replaceAll_singleton, ← String.toList_inj]
  simp [guarded]

theorem denotes_settingText_iff :
    e.Denotes (Code.Core.settingText s) s ↔ OnOneLine s ∧ '\\' ∉ s.toList := by
  rw [settingText_eq]
  by_cases hbackslash : '\\' ∈ s.toList
  · refine iff_of_false (fun h => ?_) fun h => h.2 hbackslash
    rw [Denotes, read?_ofList] at h
    obtain ⟨v, hv, rfl⟩ := Option.map_eq_some_iff.mp h
    have hlt := (length_of_readBody?_guarded hv).2 hbackslash
    rw [String.toList_ofList] at hlt
    exact Nat.lt_irrefl _ hlt
  · have hquoted : singleQuoted s = String.ofList ('\'' :: (escaped s.toList ++ ['\''])) := rfl
    rw [guarded_eq_escaped hbackslash, ← hquoted, denotes_singleQuoted_iff]
    exact (and_iff_left hbackslash).symm

end Escapes

/-- The line of a field that is set to a literal. -/
def Sets (lines : List String) (field literal : String) : Prop :=
  field ++ ": " ++ literal ++ "," ∈ lines

section Settings

variable (language : Language) (server version : String)

/-- A line that sets neither the address nor the version. -/
def setsOther (line : String) : Bool :=
  line.toList.getLast? != some ',' ||
    (line.toList.head? != some 'B' && line.toList.head? != some 'V')

/-- The address and the version are set in one line each, with the types of the settings before
them. -/
theorem settings_eq : ∃ before after, Code.Core.settings language server version =
    before ++ ["BASE: " ++ Code.Core.settingText server ++ ",",
      "VERSION: " ++ Code.Core.settingText version ++ ","] ++ after ∧
    (before ++ after).all setsOther := by
  refine ⟨(Code.Core.settings language server version).take 11,
    (Code.Core.settings language server version).drop 13, ?_, ?_⟩ <;> cases language <;> rfl

variable {language server version}

theorem sets_iff {field text literal : String}
    (h : (field, text) ∈ [("BASE", server), ("VERSION", version)]) :
    Sets (Code.Core.settings language server version) field literal ↔
      literal = Code.Core.settingText text := by
  obtain ⟨before, after, heq, hothers⟩ := settings_eq language server version
  have hlast : (field ++ ": " ++ literal ++ ",").toList.getLast? = some ',' := by
    rw [String.toList_append]
    exact List.getLast?_concat
  have hother : setsOther (field ++ ": " ++ literal ++ ",") = false := by
    unfold setsOther
    rw [hlast]
    rcases List.mem_pair.mp h with h | h <;> cases h <;> simp
  have hnot : field ++ ": " ++ literal ++ "," ∉ before ++ after := fun hmem =>
    Bool.false_ne_true (hother.symm.trans (List.all_eq_true.mp hothers _ hmem))
  rw [List.mem_append, not_or] at hnot
  have hsets : Sets (Code.Core.settings language server version) field literal ↔
      field ++ ": " ++ literal ++ "," = "BASE: " ++ Code.Core.settingText server ++ "," ∨
        field ++ ": " ++ literal ++ "," = "VERSION: " ++ Code.Core.settingText version ++ "," := by
    simp [Sets, heq, hnot.1, hnot.2]
  rw [hsets]
  rcases List.mem_pair.mp h with h | h <;> cases h <;> simp [String.ext_iff]

end Settings

namespace DefaultLiteral

/-- A text as the default of a schema that is not numeric stands in quotes. -/
theorem ofSchema_text {schema : Node} {s : String}
    (hdefault : schema.get? "default" = some (.str s))
    (hkind : isNumberKeyword ((schema.get? "type").getD .null) = .ok false) :
    ofSchema schema = .ok (some (singleQuoted s)) := by
  have hmember : schema.member "type" = .ok ((schema.get? "type").getD .null) := by
    cases schema with
    | map es => rfl
    | scalar s => cases hdefault
    | list items => cases hdefault
  unfold ofSchema
  rw [Node.mentions_of_get? hdefault, Node.required_of_get? hdefault, hmember]
  simp only [ok_bind, Bool.not_true, Bool.false_eq_true, if_false, hkind]
  rfl

end DefaultLiteral

namespace Escapes

/-- A text is written as a literal that denotes it exactly if it has neither a line feed nor a
carriage return: as a default, and as a member of an enumeration. In the settings it must have no
backslash either, since only quotes are escaped there. -/
theorem denotes_written_text (e : Escapes) (s : String) :
    (∀ schema : Node, schema.get? "default" = some (.str s) →
      DefaultLiteral.isNumberKeyword ((schema.get? "type").getD .null) = .ok false →
      ∃ literal, DefaultLiteral.ofSchema schema = .ok (some literal) ∧
        (e.Denotes literal s ↔ OnOneLine s)) ∧
    (∀ entry : EnumEntry, entry.type = "string" → entry.value = s →
      (e.Denotes entry.literal s ↔ OnOneLine s)) ∧
    ∀ language other, ∀ setting ∈ [("BASE", Code.Core.settings language s other),
        ("VERSION", Code.Core.settings language other s)],
      ∃ literal, (∀ text, Sets setting.2 setting.1 text ↔ text = literal) ∧
        (e.Denotes literal s ↔ OnOneLine s ∧ '\\' ∉ s.toList) := by
  refine ⟨fun schema hdefault hkind => ?_, fun entry htext hvalue => ?_,
    fun language other setting hsetting => ⟨Code.Core.settingText s, fun text => ?_,
      denotes_settingText_iff⟩⟩
  · exact ⟨singleQuoted s, DefaultLiteral.ofSchema_text hdefault hkind, denotes_singleQuoted_iff⟩
  · rw [EnumEntry.literal, if_pos htext, hvalue]
    exact denotes_singleQuoted_iff
  · rcases List.mem_pair.mp hsetting with rfl | rfl
    · exact sets_iff List.mem_cons_self
    · exact sets_iff (List.mem_cons_of_mem _ List.mem_cons_self)

namespace PetMotto

/-- A quote, and a backslash at the end. -/
def motto : String := "a pet's\\"

def schema : Node := .map [(.str "type", .str "string"), (.str "default", .str motto)]

def entry : EnumEntry := { name := "MOTTO", value := motto }

theorem denotes_motto :
    (schema.get? "default" = some (.str motto) ∧
      DefaultLiteral.isNumberKeyword ((schema.get? "type").getD .null) = .ok false ∧
      entry.type = "string" ∧ entry.value = motto) ∧
    (∃ literal, DefaultLiteral.ofSchema schema = .ok (some literal) ∧
      (plain.Denotes literal motto ↔ OnOneLine motto)) ∧
    (plain.Denotes entry.literal motto ↔ OnOneLine motto) ∧
    ∃ literal,
      (∀ text, Sets (Code.Core.settings .typescript motto "1.0") "BASE" text ↔ text = literal) ∧
        (plain.Denotes literal motto ↔ OnOneLine motto ∧ '\\' ∉ motto.toList) := by
  obtain ⟨hdefault, hentry, hsettings⟩ := denotes_written_text plain motto
  exact ⟨⟨rfl, rfl, rfl, rfl⟩, hdefault schema rfl rfl, hentry entry rfl rfl,
    hsettings .typescript "1.0" ("BASE", _) List.mem_cons_self⟩

/-- The backslash at the end escapes the quote that should end the literal of the setting; a line
feed stands in the literal of a default as it is. -/
theorem not_denotes : plain.read? (Code.Core.settingText motto) = none ∧
    plain.read? (singleQuoted "a pet\n") = none := by
  constructor
  · rw [settingText_eq]
    decide +kernel
  · decide +kernel

end PetMotto

end Escapes

end ClientGen
