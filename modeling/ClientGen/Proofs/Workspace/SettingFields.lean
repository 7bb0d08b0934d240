import ClientGen.Proofs.Checked
import ClientGen.Proofs.Document.Keyed
import ClientGen.Workspace.Settings

/-! Settings field by field: where each field stands in a record, and how it is read and written. -/

namespace ClientGen

open FieldReader

inductive OptionField where
  | language
  | transport
  | useUnionTypes
  | useOptions
  | indent
  | exportCore
  | exportModels
  | exportServices
deriving DecidableEq, Repr

namespace OptionField

def Value : OptionField → Type
  | language => Language
  | transport => Transport
  | indent => Indent
  | useUnionTypes | useOptions | exportCore | exportModels | exportServices => Bool

/-- The key of an option in a record. -/
def key : OptionField → String
  | language => "language"
  | transport => "http_client"
  | useUnionTypes => "use_union_types"
  | useOptions => "use_options"
  | indent => "indent"
  | exportCore => "export_core"
  | exportModels => "export_models"
  | exportServices => "export_services"

/-- An option's value where nothing is said of it. -/
def missing : (f : OptionField) → f.Value
  | language => Language.typescript
  | transport => Transport.fetch
  | indent => Indent.spaces4
  | useUnionTypes | useOptions => false
  | exportCore | exportModels | exportServices => true

def reader : (f : OptionField) → FieldReader f.Value
  | language => oneOf Language.words .typescript
  | transport => oneOf Transport.words .fetch
  | indent => oneOf Indent.words .spaces4
  | useUnionTypes | useOptions | exportCore | exportModels | exportServices => truth

/-- The value of an option. -/
def get (o : Options) : (f : OptionField) → f.Value
  | language => o.language
  | transport => o.transport
  | useUnionTypes => o.useUnionTypes
  | useOptions => o.useOptions
  | indent => o.indent
  | exportCore => o.exportCore
  | exportModels => o.exportModels
  | exportServices => o.exportServices

end OptionField

namespace Options

def ofValues (v : (f : OptionField) → f.Value) : Options where
  language := v .language
  transport := v .transport
  useUnionTypes := v .useUnionTypes
  useOptions := v .useOptions
  indent := v .indent
  exportCore := v .exportCore
  exportModels := v .exportModels
  exportServices := v .exportServices

theorem get_ofValues (v : (f : OptionField) → f.Value) (f : OptionField) :
    f.get (ofValues v) = v f := by
  cases f <;> rfl

theorem ext_get {o o' : Options} (h : ∀ f : OptionField, f.get o = f.get o') : o = o' := by
  rw [Options.mk.injEq]
  exact ⟨h .language, h .transport, h .useUnionTypes, h .useOptions, h .indent, h .exportCore,
    h .exportModels, h .exportServices⟩

theorem ofNode_result {node : Node} {o : Options} :
    (ofNode node).result = .ok o ↔ ∃ es : Entries, node = .map es ∧
      ∀ f : OptionField, FirstRead f.reader f.missing [es.get? f.key] (f.get o) := by
  rw [ofNode, record_result]
  simp only [Checked.bind_result, Checked.pure_result, field_result]
  refine exists_congr fun es => and_congr_right fun _ => ?_
  constructor
  · rintro ⟨_, hlanguage, _, htransport, _, hunions, _, hoptions, _, hindent, _, hcore, _, hmodels,
      _, hservices, rfl⟩ f
    cases f
    case language => exact hlanguage
    case transport => exact htransport
    case useUnionTypes => exact hunions
    case useOptions => exact hoptions
    case indent => exact hindent
    case exportCore => exact hcore
    case exportModels => exact hmodels
    case exportServices => exact hservices
  · intro h
    exact ⟨_, h .language, _, h .transport, _, h .useUnionTypes, _, h .useOptions, _, h .indent,
      _, h .exportCore, _, h .exportModels, _, h .exportServices, rfl⟩

/-- Options that are written are read back, each from its own entry. -/
theorem firstRead_fields (o : Options) (f : OptionField) :
    FirstRead f.reader f.missing [o.fields.get? f.key] (f.get o) := by
  obtain ⟨language, transport, unions, options, indent, core, models, services⟩ := o
  cases f
  case language => cases language <;> exact .read rfl
  case transport => cases transport <;> exact .read rfl
  case indent => cases indent <;> exact .read rfl
  all_goals exact .read rfl

end Options

inductive SettingField where
  | input
  | output
  | option (f : OptionField)
deriving DecidableEq, Repr

/-- The entries for options in a record of settings. -/
def Entries.options (es : Entries) : Entries := ((es.get? "options").map Node.entries).getD []

namespace SettingField

def Value : SettingField → Type
  | input | output => Option String
  | option f => f.Value

def missing : (f : SettingField) → f.Value
  | input | output => (none : Option String)
  | option f => f.missing

def reader : (f : SettingField) → FieldReader f.Value
  | input | output => optional text
  | option f => f.reader

def get (settings : Settings) : (f : SettingField) → f.Value
  | input => settings.input
  | output => settings.output
  | option f => f.get settings.options

/-- What a record of settings says of a field. -/
def entry? (es : Entries) : SettingField → Option Node
  | input => es.get? "input"
  | output => es.get? "output"
  | option f => es.options.get? f.key

end SettingField

namespace Settings

def ofValues (v : (f : SettingField) → f.Value) : Settings where
  input := v .input
  output := v .output
  options := .ofValues fun f => v (.option f)

theorem get_ofValues (v : (f : SettingField) → f.Value) (f : SettingField) :
    f.get (ofValues v) = v f := by
  cases f with
  | option f => exact Options.get_ofValues _ f
  | _ => rfl

theorem ext_get {a b : Settings} (h : ∀ f : SettingField, f.get a = f.get b) : a = b := by
  rw [Settings.mk.injEq]
  exact ⟨h .input, h .output, Options.ext_get fun f => h (.option f)⟩

/-- Entries that make settings: no unknown keys, the options in a map of their own, and of each
field nothing or what can be read. -/
structure IsRecord (es : Entries) : Prop where
  known : ∀ e ∈ es, e.1.display ∈ fieldNames
  options : ∀ node, es.get? "options" = some node → node.isMap
  fields : ∀ f : SettingField, ∃ a, FirstRead f.reader f.missing [f.entry? es] a

theorem unknownFields_eq_nil_iff {es : Entries} :
    unknownFields es = [] ↔ ∀ e ∈ es, e.1.display ∈ fieldNames := by
  simp [unknownFields, List.filterMap_eq_nil_iff]

theorem firstRead_options {es : Entries} {o : Options} :
    FirstRead Options.ofNode {} [es.get? "options"] o ↔
      (∀ node, es.get? "options" = some node → node.isMap) ∧
        ∀ f : OptionField, FirstRead f.reader f.missing [es.options.get? f.key] (f.get o) := by
  unfold Entries.options
  cases es.get? "options" with
  | none =>
    rw [FirstRead.cons_none_iff, FirstRead.nil_iff]
    constructor
    · rintro rfl
      refine ⟨nofun, fun f => .silent ?_⟩
      cases f <;> exact .missing
    · rintro ⟨-, h⟩
      apply Options.ext_get
      intro f
      rw [FirstRead.nil_iff.mp (FirstRead.cons_none_iff.mp (h f))]
      cases f <;> rfl
  | some node =>
    rw [FirstRead.cons_some_iff, Options.ofNode_result]
    constructor
    · rintro ⟨es, rfl, h⟩
      refine ⟨fun node hnode => ?_, h⟩
      rw [← Option.some.inj hnode]
      rfl
    · rintro ⟨hmap, h⟩
      cases node with
      | map os => exact ⟨os, rfl, h⟩
      | scalar s => exact absurd (hmap _ rfl) Bool.false_ne_true
      | list items => exact absurd (hmap _ rfl) Bool.false_ne_true

theorem ofNode_result {node : Node} {settings : Settings} :
    (ofNode node).result = .ok settings ↔ ∃ es : Entries, node = .map es ∧ IsRecord es ∧
      ∀ f : SettingField, FirstRead f.reader f.missing [f.entry? es] (f.get settings) := by
  rw [ofNode, record_result]
  simp only [Checked.bind_result, field_result, firstRead_options, Checked.mk_result,
    unknownFields_eq_nil_iff]
  refine exists_congr fun es => and_congr_right fun _ => ?_
  constructor
  · rintro ⟨input, hinput, output, houtput, options, ⟨hmap, hoptions⟩, hknown, rfl⟩
    have hfields (f : SettingField) :
        FirstRead f.reader f.missing [f.entry? es] (f.get ⟨input, output, options⟩) := by
      cases f with
      | input => exact hinput
      | output => exact houtput
      | option f => exact hoptions f
    exact ⟨⟨hknown, hmap, fun f => ⟨_, hfields f⟩⟩, hfields⟩
  · rintro ⟨⟨hknown, hmap, -⟩, h⟩
    exact ⟨_, h .input, _, h .output, _, ⟨hmap, fun f => h (.option f)⟩, hknown, rfl⟩

end Settings

end ClientGen
