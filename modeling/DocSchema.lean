import DocSchema.Access.Condition
import DocSchema.Access.Policy
import DocSchema.Access.Rules
import DocSchema.Assoc
import DocSchema.Calendar
import DocSchema.Capacity
import DocSchema.CommandLine.Arguments
import DocSchema.CommandLine.Call
import DocSchema.CommandLine.Fault
import DocSchema.CommandLine.Page
import DocSchema.CommandLine.Run
import DocSchema.Config.Basic
import DocSchema.Config.Fault
import DocSchema.Config.Load
import DocSchema.Config.Template
import DocSchema.Index
import DocSchema.Json
import DocSchema.Json.Grammar
import DocSchema.Json.Reader
import DocSchema.Main
import DocSchema.Number.Binary64
import DocSchema.Number.Decimal
import DocSchema.Number.Rounding
import DocSchema.Number.Spelling
import DocSchema.Proofs.Access.Agreement
import DocSchema.Proofs.Access.Choice
import DocSchema.Proofs.Access.Layout
import DocSchema.Proofs.Assoc
import DocSchema.Proofs.Capacity.Estimates
import DocSchema.Proofs.Capacity.Figures
import DocSchema.Proofs.Config.Accepted
import DocSchema.Proofs.Config.Inline
import DocSchema.Proofs.Config.Loading
import DocSchema.Proofs.Config.Silent
import DocSchema.Proofs.Except
import DocSchema.Proofs.Index.Manifest
import DocSchema.Proofs.Index.Order
import DocSchema.Proofs.Index.Paths
import DocSchema.Proofs.Json.Compact
import DocSchema.Proofs.Json.Finite
import DocSchema.Proofs.Json.Grammar
import DocSchema.Proofs.Json.Portable
import DocSchema.Proofs.Json.Reading
import DocSchema.Proofs.Json.Rearranged
import DocSchema.Proofs.Json.RoundTrip
import DocSchema.Proofs.Json.Scalars
import DocSchema.Proofs.Json.Sorted
import DocSchema.Proofs.Json.Unambiguous
import DocSchema.Proofs.Json.Values
import DocSchema.Proofs.Number.Accuracy
import DocSchema.Proofs.Number.Nearest
import DocSchema.Proofs.Number.Shortest
import DocSchema.Proofs.Report.Alignment
import DocSchema.Proofs.Report.Breaks
import DocSchema.Proofs.Report.DefaultCells
import DocSchema.Proofs.Report.Finite
import DocSchema.Proofs.Report.KeyOrder
import DocSchema.Proofs.Report.Pages
import DocSchema.Proofs.Report.Record
import DocSchema.Proofs.Report.RowReading
import DocSchema.Proofs.Report.TableRows
import DocSchema.Proofs.Report.Tables
import DocSchema.Proofs.Run.Agreement
import DocSchema.Proofs.Run.Compilation
import DocSchema.Proofs.Run.Delivery
import DocSchema.Proofs.Run.Export
import DocSchema.Proofs.Run.Footprint
import DocSchema.Proofs.Run.Reporting
import DocSchema.Proofs.Run.Routes
import DocSchema.Proofs.Run.Session
import DocSchema.Proofs.Run.Stop
import DocSchema.Proofs.Run.Writing
import DocSchema.Proofs.Schema.Canonical
import DocSchema.Proofs.Schema.Defaults
import DocSchema.Proofs.Schema.Influence
import DocSchema.Proofs.Schema.Load
import DocSchema.Proofs.Schema.Numbers
import DocSchema.Proofs.Schema.Outline
import DocSchema.Proofs.Schema.Portable
import DocSchema.Proofs.Schema.Spelling
import DocSchema.Proofs.Schema.Texts
import DocSchema.Proofs.Schema.Violations
import DocSchema.Proofs.Text.Base64
import DocSchema.Proofs.Text.Blank
import DocSchema.Proofs.Text.Lines
import DocSchema.Proofs.Text.Parts
import DocSchema.Proofs.Text.Span
import DocSchema.Proofs.Workspace.Edit
import DocSchema.Proofs.Workspace.Footprint
import DocSchema.Proofs.Workspace.Replace
import DocSchema.Proofs.Yaml.BlockTexts
import DocSchema.Proofs.Yaml.Cursor
import DocSchema.Proofs.Yaml.Documents
import DocSchema.Proofs.Yaml.Flow
import DocSchema.Proofs.Yaml.FlowNodes
import DocSchema.Proofs.Yaml.FlowScalars
import DocSchema.Proofs.Yaml.LongKeys
import DocSchema.Proofs.Yaml.Numbers
import DocSchema.Proofs.Yaml.Plain
import DocSchema.Proofs.Yaml.PortableJson
import DocSchema.Proofs.Yaml.Proper
import DocSchema.Proofs.Yaml.Quoted
import DocSchema.Proofs.Yaml.Spacing
import DocSchema.Proofs.Yaml.Steps
import DocSchema.Proofs.Yaml.Writer.Bytes
import DocSchema.Proofs.Yaml.Writer.Double
import DocSchema.Proofs.Yaml.Writer.Floats
import DocSchema.Proofs.Yaml.Writer.Plain
import DocSchema.Proofs.Yaml.Writer.Single
import DocSchema.Proofs.Yaml.Writer.Texts
import DocSchema.Proofs.Yaml.Writer.Values
import DocSchema.Report.Basic
import DocSchema.Report.Format
import DocSchema.Report.Markdown
import DocSchema.Report.Record
import DocSchema.Report.Table
import DocSchema.Report.Workbook
import DocSchema.Run.Export
import DocSchema.Run.Job
import DocSchema.Run.Session
import DocSchema.Schema.Document
import DocSchema.Schema.Fault
import DocSchema.Schema.Load
import DocSchema.Schema.Model
import DocSchema.Schema.Ownership
import DocSchema.Schema.Violation
import DocSchema.Text.Base64
import DocSchema.Text.Blank
import DocSchema.Text.CodeRange
import DocSchema.Text.Hex
import DocSchema.Text.LetterCase
import DocSchema.Text.Lines
import DocSchema.Text.Lowercase
import DocSchema.Text.Printable
import DocSchema.Text.Quoted
import DocSchema.Text.Search
import DocSchema.Text.Terminal
import DocSchema.Text.Utf8
import DocSchema.Value
import DocSchema.Workspace.Basic
import DocSchema.Workspace.Edit
import DocSchema.Workspace.Path
import DocSchema.Yaml.Character
import DocSchema.Yaml.Cursor
import DocSchema.Yaml.Fault
import DocSchema.Yaml.Node
import DocSchema.Yaml.Node.Parser
import DocSchema.Yaml.Reader
import DocSchema.Yaml.Scalar
import DocSchema.Yaml.Tag
import DocSchema.Yaml.Timestamp
import DocSchema.Yaml.Token
import DocSchema.Yaml.Token.Block
import DocSchema.Yaml.Token.Lexer
import DocSchema.Yaml.Token.Plain
import DocSchema.Yaml.Token.Quoted
import DocSchema.Yaml.Token.Tag
import DocSchema.Yaml.Writer
import DocSchema.Yaml.Writer.Page
import DocSchema.Yaml.Writer.Style
