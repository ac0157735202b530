import Vendoring.Checkout
import Vendoring.Cli.Command
import Vendoring.Cli.Grid
import Vendoring.Cli.Help
import Vendoring.Cli.Reach
import Vendoring.Cli.Request
import Vendoring.Compare
import Vendoring.Confirmation
import Vendoring.Decimal.Binary64
import Vendoring.Digest
import Vendoring.Fragments
import Vendoring.Json
import Vendoring.Json.Reader
import Vendoring.Json.Writer
import Vendoring.LineDiff.Edit
import Vendoring.LineDiff.Settle
import Vendoring.LineDiff.Shortest
import Vendoring.LineDiff.Unified
import Vendoring.Main
import Vendoring.Manifest
import Vendoring.Manifest.Document
import Vendoring.Manifest.Shape
import Vendoring.Mapping
import Vendoring.Mapping.Builtin
import Vendoring.Mapping.Exchange
import Vendoring.Mapping.Lemmas
import Vendoring.Naming
import Vendoring.Path
import Vendoring.Pipeline
import Vendoring.Proofs.Confirmation.Prompts
import Vendoring.Proofs.Mapping.Lookup
import Vendoring.Proofs.Mapping.Seen
import Vendoring.Proofs.Mapping.Targets
import Vendoring.Proofs.Mapping.Validation
import Vendoring.Proofs.Path.Components
import Vendoring.Proofs.Path.Names
import Vendoring.Proofs.Path.Spelling
import Vendoring.Proofs.Pipeline.Accounting
import Vendoring.Proofs.Pipeline.Confinement
import Vendoring.Proofs.Pipeline.Gate
import Vendoring.Proofs.Pipeline.Idempotence
import Vendoring.Proofs.Pipeline.Trace
import Vendoring.Proofs.Rule.EntryPoint
import Vendoring.Proofs.Rule.HelpFunction
import Vendoring.Proofs.Rule.Occurrence
import Vendoring.Proofs.Rule.Pass
import Vendoring.Proofs.Rule.Pattern
import Vendoring.Proofs.Rule.Substitutions
import Vendoring.Proofs.Rule.UsageRemainder
import Vendoring.Proofs.Rule.UsageText
import Vendoring.Proofs.Settings.Built
import Vendoring.Proofs.Settings.History
import Vendoring.Proofs.Settings.Layout
import Vendoring.Proofs.Settings.Override
import Vendoring.Proofs.Stamp.Apply
import Vendoring.Proofs.Stamp.Law
import Vendoring.Proofs.Stamp.Lines
import Vendoring.Proofs.Stamp.Repetition
import Vendoring.Proofs.Sync.Comparison
import Vendoring.Proofs.Sync.LineEnds
import Vendoring.Proofs.Sync.Locality
import Vendoring.Proofs.Sync.Rehearsal
import Vendoring.Proofs.Sync.Repetition
import Vendoring.Proofs.Sync.Soundness
import Vendoring.Proofs.Sync.Sources
import Vendoring.Proofs.Transformer.Adapter
import Vendoring.Proofs.Transformer.EntryPoint
import Vendoring.Proofs.Transformer.Header
import Vendoring.Proofs.Transformer.LineEnds
import Vendoring.Proofs.Transformer.Lines
import Vendoring.Proofs.Transformer.Selection
import Vendoring.Proofs.Tree.Entry
import Vendoring.Proofs.Tree.Growth
import Vendoring.Proofs.Tree.Keeping
import Vendoring.Proofs.Tree.Kind
import Vendoring.Proofs.Tree.Making
import Vendoring.Proofs.Tree.Walk
import Vendoring.Proofs.Update.Anywhere
import Vendoring.Proofs.Update.Atomicity
import Vendoring.Proofs.Update.Beside
import Vendoring.Proofs.Update.Effect
import Vendoring.Proofs.Update.Parallel
import Vendoring.Proofs.Update.Settled
import Vendoring.Proofs.Update.Staging
import Vendoring.Proofs.Update.Trail
import Vendoring.Proofs.VersionControl.Label
import Vendoring.Rule
import Vendoring.Settings
import Vendoring.Stamp
import Vendoring.Sync
import Vendoring.Text.CodePoints
import Vendoring.Text.Line
import Vendoring.Text.Printable
import Vendoring.Text.Quoted
import Vendoring.Text.Space
import Vendoring.Text.Substitution
import Vendoring.Text.Template
import Vendoring.Text.Utf8
import Vendoring.Text.Width
import Vendoring.Text.Word
import Vendoring.Transformer
import Vendoring.Tree
import Vendoring.Tree.Change
import Vendoring.Tree.Node
import Vendoring.Update
import Vendoring.VersionControl
import Vendoring.Yaml.Cursor
import Vendoring.Yaml.Event
import Vendoring.Yaml.Lexer
import Vendoring.Yaml.Property
import Vendoring.Yaml.Scalar
import Vendoring.Yaml.ScalarKind
import Vendoring.Yaml.Token
