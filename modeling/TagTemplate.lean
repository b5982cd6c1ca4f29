import TagTemplate.Attribute.Grammar
import TagTemplate.Attribute.Value
import TagTemplate.CommandLine.Options
import TagTemplate.CommandLine.Reference
import TagTemplate.CommandLine.Run
import TagTemplate.Datatype
import TagTemplate.Decimal.Double
import TagTemplate.Decimal.Integer
import TagTemplate.Decimal.Reader
import TagTemplate.Decimal.Shortest
import TagTemplate.Document.Basic
import TagTemplate.Document.Fragment
import TagTemplate.Document.Kind
import TagTemplate.Document.Node
import TagTemplate.Document.Preparation
import TagTemplate.Evaluation
import TagTemplate.Event
import TagTemplate.Expression
import TagTemplate.Function
import TagTemplate.Generator
import TagTemplate.Handler
import TagTemplate.Main
import TagTemplate.NameMap
import TagTemplate.ParseError
import TagTemplate.Pattern.Basic
import TagTemplate.Pattern.CharClass
import TagTemplate.Pattern.Reader
import TagTemplate.Proofs.Body.Around
import TagTemplate.Proofs.Body.Calls
import TagTemplate.Proofs.Body.Items
import TagTemplate.Proofs.Body.Lists
import TagTemplate.Proofs.Body.Phrases
import TagTemplate.Proofs.Body.Quoting
import TagTemplate.Proofs.Body.Tokens
import TagTemplate.Proofs.Document.Coupling
import TagTemplate.Proofs.Document.Hearing
import TagTemplate.Proofs.Document.Links
import TagTemplate.Proofs.Document.Nodes
import TagTemplate.Proofs.Document.Outline
import TagTemplate.Proofs.Document.Pieces
import TagTemplate.Proofs.Document.Planting
import TagTemplate.Proofs.Document.Rift
import TagTemplate.Proofs.Document.Tiling
import TagTemplate.Proofs.Document.Tree
import TagTemplate.Proofs.Document.Visits
import TagTemplate.Proofs.Pattern.Brackets
import TagTemplate.Proofs.Pattern.Emptiness
import TagTemplate.Proofs.Pattern.Enclosing
import TagTemplate.Proofs.Pattern.Lookahead
import TagTemplate.Proofs.Pattern.Notation
import TagTemplate.Proofs.Pattern.Reading
import TagTemplate.Proofs.Pattern.Search
import TagTemplate.Proofs.Pattern.Signs
import TagTemplate.Proofs.Pattern.Windows
import TagTemplate.Proofs.Render.Acts
import TagTemplate.Proofs.Render.Clock
import TagTemplate.Proofs.Render.Confinement
import TagTemplate.Proofs.Render.Depth
import TagTemplate.Proofs.Render.Echoes
import TagTemplate.Proofs.Render.Entries
import TagTemplate.Proofs.Render.Events
import TagTemplate.Proofs.Render.Expressions
import TagTemplate.Proofs.Render.Forest
import TagTemplate.Proofs.Render.Fragments
import TagTemplate.Proofs.Render.Heard
import TagTemplate.Proofs.Render.Histories
import TagTemplate.Proofs.Render.Joining
import TagTemplate.Proofs.Render.Layers
import TagTemplate.Proofs.Render.LayoutOrder
import TagTemplate.Proofs.Render.Leaves
import TagTemplate.Proofs.Render.Limits
import TagTemplate.Proofs.Render.Locality
import TagTemplate.Proofs.Render.Mirrors
import TagTemplate.Proofs.Render.Modules
import TagTemplate.Proofs.Render.Moves
import TagTemplate.Proofs.Render.Origins
import TagTemplate.Proofs.Render.OtherSettings
import TagTemplate.Proofs.Render.Pages
import TagTemplate.Proofs.Render.Plans
import TagTemplate.Proofs.Render.Repetition
import TagTemplate.Proofs.Render.Resolution
import TagTemplate.Proofs.Render.Rounds
import TagTemplate.Proofs.Render.Settling
import TagTemplate.Proofs.Render.Sites
import TagTemplate.Proofs.Render.Steps
import TagTemplate.Proofs.Render.Termination
import TagTemplate.Proofs.Render.Towers
import TagTemplate.Proofs.Render.Transport
import TagTemplate.Proofs.Render.TwinPages
import TagTemplate.Proofs.Render.Twins
import TagTemplate.Proofs.Render.Weaving
import TagTemplate.Proofs.Render.Wording
import TagTemplate.Proofs.Report.Places
import TagTemplate.Proofs.Scanning.Adjacent
import TagTemplate.Proofs.Scanning.Advance
import TagTemplate.Proofs.Scanning.Balance
import TagTemplate.Proofs.Scanning.Bodies
import TagTemplate.Proofs.Scanning.Builtin
import TagTemplate.Proofs.Scanning.Clock
import TagTemplate.Proofs.Scanning.Contexts
import TagTemplate.Proofs.Scanning.Delimiters
import TagTemplate.Proofs.Scanning.Directives
import TagTemplate.Proofs.Scanning.Errors
import TagTemplate.Proofs.Scanning.Filling
import TagTemplate.Proofs.Scanning.Groups
import TagTemplate.Proofs.Scanning.Nesting
import TagTemplate.Proofs.Scanning.Patches
import TagTemplate.Proofs.Scanning.Quotes
import TagTemplate.Proofs.Scanning.RawBlocks
import TagTemplate.Proofs.Scanning.Registration
import TagTemplate.Proofs.Scanning.RoundTrip
import TagTemplate.Proofs.Scanning.Script
import TagTemplate.Proofs.Scanning.Shifts
import TagTemplate.Proofs.Scanning.TagByTag
import TagTemplate.Proofs.Scanning.TagText
import TagTemplate.Proofs.Scanning.Tracks
import TagTemplate.Proofs.Scanning.Unclosed
import TagTemplate.Proofs.Scanning.Unified
import TagTemplate.Proofs.Scanning.Yields
import TagTemplate.Proofs.Source.Paths
import TagTemplate.Proofs.Source.Roots
import TagTemplate.Proofs.Text.Base64
import TagTemplate.Proofs.Text.Splitting
import TagTemplate.Proofs.Text.Trimming
import TagTemplate.Proofs.Value.Amounts
import TagTemplate.Proofs.Value.Comparisons
import TagTemplate.Proofs.Value.Doubles
import TagTemplate.Proofs.Value.Maps
import TagTemplate.Proofs.Value.Ranges
import TagTemplate.Proofs.Value.Removal
import TagTemplate.Proofs.Value.Rounding
import TagTemplate.References
import TagTemplate.Render.Actions
import TagTemplate.Render.Comparison
import TagTemplate.Render.Control
import TagTemplate.Render.Node
import TagTemplate.Render.Page
import TagTemplate.Render.Slots
import TagTemplate.Render.State
import TagTemplate.Report
import TagTemplate.Scope
import TagTemplate.Settings
import TagTemplate.SettingsFile
import TagTemplate.Source.Files
import TagTemplate.Source.Loader
import TagTemplate.Span
import TagTemplate.Tag.Body
import TagTemplate.Tag.Builtin
import TagTemplate.Tag.Definition
import TagTemplate.Tag.GroupName
import TagTemplate.Tag.Registry
import TagTemplate.Tag.Scanner
import TagTemplate.Template
import TagTemplate.Text.Base64
import TagTemplate.Text.Basic
import TagTemplate.Text.Case
import TagTemplate.Text.CodePoint
import TagTemplate.Text.CodeRange
import TagTemplate.Text.Fingerprint
import TagTemplate.Text.Folding
import TagTemplate.Text.Letters
import TagTemplate.Text.Lines
import TagTemplate.Text.Position
import TagTemplate.Text.Quoted
import TagTemplate.Text.WhiteSpace
import TagTemplate.Text.Width
import TagTemplate.Token
import TagTemplate.Toml.Basic
import TagTemplate.Toml.Moment
import TagTemplate.Toml.Quoted
import TagTemplate.Toml.Reader
import TagTemplate.Toml.Scalar
import TagTemplate.Toml.Table
import TagTemplate.Toolkit
import TagTemplate.Validator
import TagTemplate.Value
