import FlatChart.SortedMap
import FlatChart.SortedMap.Lookup
import FlatChart.Quotation.Glyph
import FlatChart.Quotation
import FlatChart.Number.Binary64
import FlatChart.Number.Decimal
import FlatChart.Number.Literal
import FlatChart.Json.Value
import FlatChart.Json.Document
import FlatChart.Json.ReadError
import FlatChart.Json.Reader.Lexical
import FlatChart.Json.Reader.Value
import FlatChart.Json.Reader.Field
import FlatChart.Function
import FlatChart.Chart.Basic
import FlatChart.Chart.Writing
import FlatChart.Chart.Reading
import FlatChart.Chart.Violation
import FlatChart.Tree.Attribute
import FlatChart.Tree.Element
import FlatChart.Tree.Node
import FlatChart.Tree.Compile
import FlatChart.Builder.Basic
import FlatChart.Builder.Invocation
import FlatChart.Builder.Session
import FlatChart.Machine
import FlatChart.Proofs.SortedMap
import FlatChart.Proofs.Number.Spelling
import FlatChart.Proofs.Number.Rounding
import FlatChart.Proofs.Number.Shortest
import FlatChart.Proofs.Json.Layout
import FlatChart.Proofs.Json.Lexical
import FlatChart.Proofs.Json.Pieces
import FlatChart.Proofs.Json.Nesting
import FlatChart.Proofs.Json.Reading
import FlatChart.Proofs.Json.Settled
import FlatChart.Proofs.Json.Expected
import FlatChart.Proofs.Json.Altered
import FlatChart.Proofs.Json.Decoding
import FlatChart.Proofs.Json.Acceptance
import FlatChart.Proofs.Json.Unambiguous
import FlatChart.Proofs.Json.Given
import FlatChart.Proofs.Json.Tokens
import FlatChart.Proofs.Json.WellFormed
import FlatChart.Proofs.Json.Schema
import FlatChart.Proofs.Chart.Data
import FlatChart.Proofs.Chart.Decoding
import FlatChart.Proofs.Chart.Layout
import FlatChart.Proofs.Chart.Altered
import FlatChart.Proofs.Chart.WellFormed
import FlatChart.Proofs.Chart.Schema
import FlatChart.Proofs.Chart.Modify
import FlatChart.Proofs.Chart.Pairs
import FlatChart.Proofs.Chart.Violations
import FlatChart.Proofs.Chart.RoundTrip
import FlatChart.Proofs.Chart.FixedPoint
import FlatChart.Proofs.Chart.Labels
import FlatChart.Proofs.Chart.Equality
import FlatChart.Proofs.Builder.Invocation
import FlatChart.Proofs.Builder.Log
import FlatChart.Proofs.Builder.Focused
import FlatChart.Proofs.Builder.Typestate
import FlatChart.Proofs.Builder.Chain
import FlatChart.Proofs.Builder.Idle
import FlatChart.Proofs.Builder.Data
import FlatChart.Proofs.Tree.Unwired
import FlatChart.Proofs.Tree.Compile
import FlatChart.Proofs.Tree.Declarations
import FlatChart.Proofs.Tree.Children
import FlatChart.Proofs.Tree.Grouping
import FlatChart.Proofs.Tree.Splicing
import FlatChart.Proofs.Tree.LastTransition
import FlatChart.Proofs.Tree.LastState
import FlatChart.Proofs.Tree.Range
import FlatChart.Proofs.Pipeline
import FlatChart.Proofs.Wiring
import FlatChart.Proofs.Assignments
import FlatChart.Proofs.Tree.Alike
import FlatChart.Proofs.Tree.AlikeCharts
import FlatChart.Proofs.Machine.Run
import FlatChart.Proofs.Machine.Final
import FlatChart.Proofs.Machine.Observers
import FlatChart.Proofs.Addressing
import FlatChart.Proofs.Tree.Violations
import FlatChart.Proofs.Builder.Violations
