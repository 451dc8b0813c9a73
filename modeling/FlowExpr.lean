import FlowExpr.Analysis.Analyze
import FlowExpr.Analysis.Checks
import FlowExpr.Analysis.Diagnostic
import FlowExpr.Call.Arguments
import FlowExpr.Call.Depth
import FlowExpr.Call.Find
import FlowExpr.Call.NameAt
import FlowExpr.Call.Quote
import FlowExpr.Call.Site
import FlowExpr.Editor.Completion
import FlowExpr.Editor.Hover
import FlowExpr.Editor.Report
import FlowExpr.Function.Builtin
import FlowExpr.Function.Descriptor
import FlowExpr.Function.Literal
import FlowExpr.Function.Registry
import FlowExpr.Function.Signature
import FlowExpr.Highlight.Classify
import FlowExpr.Highlight.Encode
import FlowExpr.Highlight.Recognizer
import FlowExpr.Highlight.Token
import FlowExpr.Server.Client
import FlowExpr.Server.Documents
import FlowExpr.Server.Message
import FlowExpr.Server.Session
import FlowExpr.Settings.Basic
import FlowExpr.Settings.FileTree
import FlowExpr.Settings.Locate
import FlowExpr.Text.Blank
import FlowExpr.Text.Case
import FlowExpr.Text.CharSet
import FlowExpr.Text.Fields
import FlowExpr.Text.LineTable
import FlowExpr.Text.Offset
import FlowExpr.Text.Units
import FlowExpr.Text.Word
import FlowExpr.Toml.Assignment
import FlowExpr.Toml.Document
import FlowExpr.Toml.Lexeme
import FlowExpr.Toml.Reader
import FlowExpr.Toml.Scalar
import FlowExpr.Toml.Value
import FlowExpr.Proofs.Call.Level
import FlowExpr.Proofs.Call.Candidates
import FlowExpr.Proofs.Call.Written
import FlowExpr.Proofs.Call.ByteSearch
import FlowExpr.Proofs.Call.Argument
import FlowExpr.Proofs.Call.ArgumentList
import FlowExpr.Proofs.Call.Forest
import FlowExpr.Proofs.Analysis.Appended
import FlowExpr.Proofs.Analysis.Locality
import FlowExpr.Proofs.Analysis.StringContents
import FlowExpr.Proofs.Server.Step
import FlowExpr.Proofs.Highlight.Decode
import FlowExpr.Proofs.Server.LastEdit
import FlowExpr.Proofs.Server.SettledChecks
import FlowExpr.Proofs.Function.LastDefinition
import FlowExpr.Proofs.Analysis.Filter
import FlowExpr.Proofs.Editor.Ranges
import FlowExpr.Proofs.Editor.Hover
import FlowExpr.Proofs.Server.LastOpened
import FlowExpr.Proofs.Call.Plain
import FlowExpr.Proofs.Editor.Snippet
import FlowExpr.Proofs.Highlight.Calls
import FlowExpr.Proofs.Call.Rejoined
import FlowExpr.Proofs.Editor.Completion
import FlowExpr.Proofs.Analysis.DistinctSpans
import FlowExpr.Proofs.Analysis.NameCase
import FlowExpr.Proofs.Function.Descriptor
import FlowExpr.Proofs.Function.Widening
import FlowExpr.Proofs.Text.LinePartition
import FlowExpr.Proofs.Text.Columns
import FlowExpr.Proofs.Function.LiteralGrammar
import FlowExpr.Proofs.Settings.Nearest
import FlowExpr.Proofs.Text.Sliceable
import FlowExpr.Proofs.Call.SlotFinder
import FlowExpr.Proofs.Call.CheckedReaders
