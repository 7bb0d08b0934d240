import ClientGen.Text.CharRange
import ClientGen.Text.DecimalDigit
import ClientGen.Text.Identifier
import ClientGen.Text.Point
import ClientGen.Text.Printable
import ClientGen.Text.Replace
import ClientGen.Text.Space
import ClientGen.Text.UpperCase
import ClientGen.Text.Utf8
import ClientGen.Text.WordChar
import ClientGen.Number.Double
import ClientGen.Number.Reader
import ClientGen.Number.Shortest
import ClientGen.Document.Display
import ClientGen.Document.Json.Reader
import ClientGen.Document.Json.Writer
import ClientGen.Document.Node
import ClientGen.Document.Origin
import ClientGen.Document.Pointer
import ClientGen.Document.Yaml.Cursor
import ClientGen.Document.Yaml.Lexer
import ClientGen.Document.Yaml.Reader
import ClientGen.Document.Yaml.Tag
import ClientGen.Document.Yaml.Token
import ClientGen.Document.Yaml.Tree
import ClientGen.Naming
import ClientGen.Naming.Fresh
import ClientGen.Fault
import ClientGen.Checked
import ClientGen.Schema.Builder
import ClientGen.Schema.DefaultLiteral
import ClientGen.Schema.Dialect
import ClientGen.Schema.EnumEntry
import ClientGen.Schema.Model
import ClientGen.Schema.ModelRecord
import ClientGen.Schema.TypeExpr
import ClientGen.Api.Client
import ClientGen.Api.ClientRecord
import ClientGen.Api.Parameter
import ClientGen.Api.Response
import ClientGen.Api.StatusPhrase
import ClientGen.Options
import ClientGen.Code.Core.Request
import ClientGen.Code.Core.Types
import ClientGen.Code.Expression
import ClientGen.Code.Layout
import ClientGen.Code.Lines
import ClientGen.Code.ModelFile
import ClientGen.Code.ServiceFile
import ClientGen.Code.SourceFile
import ClientGen.Wording
import ClientGen.Workspace.ClientFolder
import ClientGen.Workspace.FileTree
import ClientGen.Workspace.Path
import ClientGen.Workspace.Settings
import ClientGen.Workspace.Surroundings
import ClientGen.Command.Arguments
import ClientGen.Command.CommandLine
import ClientGen.Command.Failure
import ClientGen.Command.Report
import ClientGen.Command.Run
import ClientGen.Main
import ClientGen.Proofs.Outcome
import ClientGen.Proofs.Names
import ClientGen.Proofs.Naming.Fresh
import ClientGen.Proofs.Naming.Words
import ClientGen.Proofs.Naming.Identifiers
import ClientGen.Proofs.Schema.TypeExpr
import ClientGen.Proofs.Schema.Built
import ClientGen.Proofs.Schema.Imports
import ClientGen.Proofs.Code.Pieces
import ClientGen.Proofs.Code.FileScope
import ClientGen.Proofs.Document.References
import ClientGen.Proofs.Document.Texts
import ClientGen.Proofs.Schema.Expansion
import ClientGen.Proofs.Schema.NamedSchemas
import ClientGen.Proofs.Schema.MovedSchema
import ClientGen.Proofs.Schema.DialectAgreement
import ClientGen.Proofs.Api.Services
import ClientGen.Proofs.Api.SchemaPlaces
import ClientGen.Proofs.Api.ParameterModels
import ClientGen.Proofs.Api.NamedModels
import ClientGen.Proofs.Api.OperationImports
import ClientGen.Proofs.Api.ReferenceClosure
import ClientGen.Proofs.Api.ServiceNames
import ClientGen.Proofs.Api.Arguments
import ClientGen.Proofs.Api.ClientNames
import ClientGen.Proofs.StableSort
import ClientGen.Proofs.Api.ResponseChoice
import ClientGen.Proofs.Api.ParameterOrder
import ClientGen.Proofs.Code.SourcePaths
import ClientGen.Proofs.Code.SourceListing
import ClientGen.Proofs.Code.IndexExports
import ClientGen.Proofs.Workspace.FileTree
import ClientGen.Proofs.Workspace.ClientFolder
import ClientGen.Proofs.Workspace.Replacement
import ClientGen.Proofs.Command.Generation
import ClientGen.Proofs.Schema.Inside
import ClientGen.Proofs.Schema.ReferenceNames
import ClientGen.Proofs.Schema.EnumNames
import ClientGen.Proofs.Schema.OneShape
import ClientGen.Proofs.Document.Keyed
import ClientGen.Proofs.Schema.Records
import ClientGen.Proofs.Schema.Intersections
import ClientGen.Proofs.Document.Reading
import ClientGen.Proofs.Api.Descriptions
import ClientGen.Proofs.Document.Reordered
import ClientGen.Proofs.Schema.Reordered
import ClientGen.Proofs.Api.ReorderedOperations
import ClientGen.Proofs.Api.SchemaOrder
import ClientGen.Proofs.Text.Splitting
import ClientGen.Proofs.Text.Points
import ClientGen.Proofs.Document.Segments
import ClientGen.Proofs.Number.Integers
import ClientGen.Proofs.Document.Chains
import ClientGen.Proofs.Document.Places
import ClientGen.Proofs.Api.Defaults
import ClientGen.Proofs.Code.CallSignatures
import ClientGen.Proofs.Number.Nearest
import ClientGen.Proofs.Number.NumberTexts
import ClientGen.Proofs.Schema.NumericDefaults
import ClientGen.Proofs.Schema.NullableTypes
import ClientGen.Proofs.Code.DictionaryParameters
import ClientGen.Proofs.Api.RequiredFields
import ClientGen.Proofs.Code.QuotedTexts
import ClientGen.Proofs.Schema.DescribedMembers
import ClientGen.Proofs.Schema.GenericTypes
import ClientGen.Proofs.Number.Ratios
import ClientGen.Proofs.Number.Rounding
import ClientGen.Proofs.Number.ShortestDecimal
import ClientGen.Proofs.Number.ReadBack
import ClientGen.Proofs.Schema.ListedMembers
import ClientGen.Proofs.Schema.ModelNames
import ClientGen.Proofs.Code.Layout
import ClientGen.Proofs.Naming.TemplateTexts
import ClientGen.Proofs.Code.Formatting
import ClientGen.Proofs.Code.LineNesting
import ClientGen.Proofs.Code.MatchedIndentation
import ClientGen.Proofs.Naming.Letters
import ClientGen.Proofs.Code.PropertyKeys
import ClientGen.Proofs.Code.EnumKeys
import ClientGen.Proofs.Code.EnumNamespaces
import ClientGen.Proofs.Naming.CommentTexts
import ClientGen.Proofs.Api.OperationNames
import ClientGen.Proofs.Checked
import ClientGen.Proofs.Workspace.SettingFields
import ClientGen.Proofs.Workspace.Precedence
