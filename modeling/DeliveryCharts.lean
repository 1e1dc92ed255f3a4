import DeliveryCharts.Chart
import DeliveryCharts.Chart.Render
import DeliveryCharts.Cli.Arguments
import DeliveryCharts.Cli.Display
import DeliveryCharts.Cli.Failure
import DeliveryCharts.Cli.Run
import DeliveryCharts.Coerce
import DeliveryCharts.Decimal.Binary64
import DeliveryCharts.Decimal.Shortest
import DeliveryCharts.Diff.Block
import DeliveryCharts.Diff.Compact
import DeliveryCharts.Diff.Hunk
import DeliveryCharts.Diff.Middle
import DeliveryCharts.Diff.Script
import DeliveryCharts.Digest.NameId
import DeliveryCharts.Digest.Sha1
import DeliveryCharts.Error
import DeliveryCharts.Files.Path
import DeliveryCharts.Files.Tree
import DeliveryCharts.Json.Basic
import DeliveryCharts.Json.Fault
import DeliveryCharts.Json.Printer
import DeliveryCharts.Json.Reader
import DeliveryCharts.Json.Shape
import DeliveryCharts.Main
import DeliveryCharts.Manifest.Application
import DeliveryCharts.Manifest.Document
import DeliveryCharts.Manifest.Kind
import DeliveryCharts.Manifest.Load
import DeliveryCharts.Manifest.Pipeline
import DeliveryCharts.Manifest.Set
import DeliveryCharts.Manifest.Stream
import DeliveryCharts.Platform.Classify
import DeliveryCharts.Platform.Client
import DeliveryCharts.Platform.Object
import DeliveryCharts.Platform.Reconcile
import DeliveryCharts.Platform.Spin
import DeliveryCharts.Platform.Store
import DeliveryCharts.Proofs.Chart.Installation
import DeliveryCharts.Proofs.Coerce
import DeliveryCharts.Proofs.Decimal.Range
import DeliveryCharts.Proofs.Diff.Patch
import DeliveryCharts.Proofs.Diff.Script
import DeliveryCharts.Proofs.Files.Tree
import DeliveryCharts.Proofs.Json.Canonical
import DeliveryCharts.Proofs.Json.Decoding
import DeliveryCharts.Proofs.Json.Depth
import DeliveryCharts.Proofs.Json.Levels
import DeliveryCharts.Proofs.Json.Members
import DeliveryCharts.Proofs.Json.Reading
import DeliveryCharts.Proofs.Json.Reordering
import DeliveryCharts.Proofs.Json.Shape
import DeliveryCharts.Proofs.Json.Source
import DeliveryCharts.Proofs.Json.Tokens
import DeliveryCharts.Proofs.Json.Tree
import DeliveryCharts.Proofs.Manifest.Compiled
import DeliveryCharts.Proofs.Manifest.Directory
import DeliveryCharts.Proofs.Manifest.Independence
import DeliveryCharts.Proofs.Manifest.Parts
import DeliveryCharts.Proofs.Manifest.Payload
import DeliveryCharts.Proofs.Manifest.Recompilation
import DeliveryCharts.Proofs.Manifest.Specs
import DeliveryCharts.Proofs.Manifest.Stored
import DeliveryCharts.Proofs.Platform.Classification
import DeliveryCharts.Proofs.Platform.Convergence
import DeliveryCharts.Proofs.Platform.Deletion
import DeliveryCharts.Proofs.Platform.Detection
import DeliveryCharts.Proofs.Platform.Difference
import DeliveryCharts.Proofs.Platform.Failure
import DeliveryCharts.Proofs.Platform.Order
import DeliveryCharts.Proofs.Platform.Ownership
import DeliveryCharts.Proofs.Platform.Reconciliation
import DeliveryCharts.Proofs.Platform.Requests
import DeliveryCharts.Proofs.Platform.Transcript
import DeliveryCharts.Proofs.Record
import DeliveryCharts.Proofs.Stage.Binding
import DeliveryCharts.Proofs.Stage.Codec
import DeliveryCharts.Proofs.Stage.Derived
import DeliveryCharts.Proofs.Stage.Prefix
import DeliveryCharts.Proofs.Stage.Reference
import DeliveryCharts.Proofs.Stage.Resolution
import DeliveryCharts.Proofs.Stage.Shared
import DeliveryCharts.Proofs.Stage.Specs
import DeliveryCharts.Proofs.Stage.Unclaimed
import DeliveryCharts.Proofs.Stage.WellFormed
import DeliveryCharts.Proofs.Template.Commuting
import DeliveryCharts.Proofs.Template.Conversion
import DeliveryCharts.Proofs.Template.Cutting
import DeliveryCharts.Proofs.Template.Embedding
import DeliveryCharts.Proofs.Template.Encoding
import DeliveryCharts.Proofs.Template.Layout
import DeliveryCharts.Proofs.Template.Merge
import DeliveryCharts.Proofs.Template.Naming
import DeliveryCharts.Proofs.Template.Placeless
import DeliveryCharts.Proofs.Template.Placing
import DeliveryCharts.Proofs.Template.Quoting
import DeliveryCharts.Proofs.Template.Relabelling
import DeliveryCharts.Proofs.Template.Reporting
import DeliveryCharts.Proofs.Template.Span
import DeliveryCharts.Proofs.Template.Suggestion
import DeliveryCharts.Proofs.Text.Base64
import DeliveryCharts.Proofs.Text.Blank
import DeliveryCharts.Proofs.Text.Casing
import DeliveryCharts.Proofs.Text.Lines
import DeliveryCharts.Proofs.Text.Numeral
import DeliveryCharts.Proofs.Text.Utf8
import DeliveryCharts.Proofs.Values.Assignment
import DeliveryCharts.Proofs.Values.Layers
import DeliveryCharts.Proofs.Values.Merge
import DeliveryCharts.Proofs.Values.Overlay
import DeliveryCharts.Proofs.Values.Typing
import DeliveryCharts.Proofs.Yaml.Blocks
import DeliveryCharts.Proofs.Yaml.Documents
import DeliveryCharts.Proofs.Yaml.Embedding
import DeliveryCharts.Proofs.Yaml.Entry
import DeliveryCharts.Proofs.Yaml.Folding
import DeliveryCharts.Proofs.Yaml.Indentation
import DeliveryCharts.Proofs.Yaml.Inline
import DeliveryCharts.Proofs.Yaml.Line
import DeliveryCharts.Proofs.Yaml.Literal
import DeliveryCharts.Proofs.Yaml.Nodes
import DeliveryCharts.Proofs.Yaml.Numbers
import DeliveryCharts.Proofs.Yaml.Onward
import DeliveryCharts.Proofs.Yaml.Properties
import DeliveryCharts.Proofs.Yaml.Quotes
import DeliveryCharts.Proofs.Yaml.Scalars
import DeliveryCharts.Proofs.Yaml.Sequel
import DeliveryCharts.Proofs.Yaml.Stream
import DeliveryCharts.Proofs.Yaml.Styles
import DeliveryCharts.Proofs.Yaml.Trees
import DeliveryCharts.Record
import DeliveryCharts.Stage.Artifact
import DeliveryCharts.Stage.Bake
import DeliveryCharts.Stage.Basic
import DeliveryCharts.Stage.Binding
import DeliveryCharts.Stage.Delete
import DeliveryCharts.Stage.Deploy
import DeliveryCharts.Stage.Header
import DeliveryCharts.Stage.Jenkins
import DeliveryCharts.Stage.ManualJudgment
import DeliveryCharts.Stage.NestedPipeline
import DeliveryCharts.Stage.Options
import DeliveryCharts.Stage.Policy
import DeliveryCharts.Stage.Resolve
import DeliveryCharts.Stage.RunJob
import DeliveryCharts.Stage.Wait
import DeliveryCharts.Template.Evaluate
import DeliveryCharts.Template.Expr
import DeliveryCharts.Template.Fault
import DeliveryCharts.Template.Filter.Collection
import DeliveryCharts.Template.Filter.Manifest
import DeliveryCharts.Template.Filter.Table
import DeliveryCharts.Template.Filter.Text
import DeliveryCharts.Template.Function
import DeliveryCharts.Template.Hint
import DeliveryCharts.Template.Machine
import DeliveryCharts.Template.Markup
import DeliveryCharts.Template.Names
import DeliveryCharts.Template.Operation
import DeliveryCharts.Template.Order
import DeliveryCharts.Template.Pretty
import DeliveryCharts.Template.Problem
import DeliveryCharts.Template.Read.Basic
import DeliveryCharts.Template.Read.Expr
import DeliveryCharts.Template.Read.Stmt
import DeliveryCharts.Template.Render
import DeliveryCharts.Template.Stmt
import DeliveryCharts.Template.Take
import DeliveryCharts.Template.Test
import DeliveryCharts.Template.Token
import DeliveryCharts.Template.Value
import DeliveryCharts.Text.Alphanumeric
import DeliveryCharts.Text.Base64
import DeliveryCharts.Text.Blank
import DeliveryCharts.Text.CaseTables
import DeliveryCharts.Text.Casing
import DeliveryCharts.Text.EditDistance
import DeliveryCharts.Text.Lines
import DeliveryCharts.Text.Numeral
import DeliveryCharts.Text.Printable
import DeliveryCharts.Text.Utf8
import DeliveryCharts.Values.Arguments
import DeliveryCharts.Values.Basic
import DeliveryCharts.Width
import DeliveryCharts.Yaml.Cursor
import DeliveryCharts.Yaml.Document
import DeliveryCharts.Yaml.Graph
import DeliveryCharts.Yaml.Node
import DeliveryCharts.Yaml.Reader
import DeliveryCharts.Yaml.Scan
import DeliveryCharts.Yaml.Value
import DeliveryCharts.Yaml.Writer
