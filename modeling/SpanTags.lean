import SpanTags.Text.Basic
import SpanTags.Text.Quoted
import SpanTags.Text.Encoding
import SpanTags.Number.Layout
import SpanTags.Ordered
import SpanTags.Payload.Display
import SpanTags.Json.Reader
import SpanTags.Tag.Walk
import SpanTags.Redaction
import SpanTags.Json.Printer
import SpanTags.Tag.Body
import SpanTags.Tracing
import SpanTags.Yaml.Style.Quoted
import SpanTags.Yaml.Style.Block
import SpanTags.Yaml.Lexer
import SpanTags.Yaml.Tag
import SpanTags.Yaml.Node
import SpanTags.Yaml.Scalar
import SpanTags.Yaml.Item
import SpanTags.Settings.Load
import SpanTags.Service.Exchange
import SpanTags.Proofs.Json.Line
import SpanTags.Proofs.Json.Numeral
import SpanTags.Proofs.Json.Reading
import SpanTags.Proofs.Json.Writing
import SpanTags.Proofs.Log.Secrecy
import SpanTags.Proofs.Log.Writing
import SpanTags.Proofs.Mask.Admission
import SpanTags.Proofs.Number.Decimal
import SpanTags.Proofs.Number.Extent
import SpanTags.Proofs.Number.Grid
import SpanTags.Proofs.Number.Overflow
import SpanTags.Proofs.Number.Whole
import SpanTags.Proofs.Ordered
import SpanTags.Proofs.Ordered.Occurrence
import SpanTags.Proofs.Payload.Decoded
import SpanTags.Proofs.Payload.Nodes
import SpanTags.Proofs.Payload.Position
import SpanTags.Proofs.Payload.Secret
import SpanTags.Proofs.Redaction.Sanitizing
import SpanTags.Proofs.Rule.Branches
import SpanTags.Proofs.Rule.Frontier
import SpanTags.Proofs.Rule.Matching
import SpanTags.Proofs.Rule.Parsing
import SpanTags.Proofs.Rule.Semantics
import SpanTags.Proofs.Rule.Separation
import SpanTags.Proofs.Rule.Source
import SpanTags.Proofs.Rule.Splitting
import SpanTags.Proofs.Rule.Tree
import SpanTags.Proofs.Service.Assignments
import SpanTags.Proofs.Service.Capacity
import SpanTags.Proofs.Service.Creation
import SpanTags.Proofs.Service.DryRun
import SpanTags.Proofs.Service.Grouping
import SpanTags.Proofs.Service.Overwriting
import SpanTags.Proofs.Service.Preview
import SpanTags.Proofs.Service.Query
import SpanTags.Proofs.Service.Target
import SpanTags.Proofs.Service.Transparency
import SpanTags.Proofs.Session
import SpanTags.Proofs.Settings
import SpanTags.Proofs.Settings.Level
import SpanTags.Proofs.Span
import SpanTags.Proofs.Tag.Path
import SpanTags.Proofs.Text.Utf8
import SpanTags.Proofs.Tracing
import SpanTags.Proofs.Walk.Advance
import SpanTags.Proofs.Walk.Arrival
import SpanTags.Proofs.Walk.Asking
import SpanTags.Proofs.Walk.Bounds
import SpanTags.Proofs.Walk.Flattening
import SpanTags.Proofs.Walk.Inclusion
import SpanTags.Proofs.Walk.Numbers
import SpanTags.Proofs.Walk.Orderly
import SpanTags.Proofs.Walk.Overlooked
import SpanTags.Proofs.Walk.Places
import SpanTags.Proofs.Walk.Raising
import SpanTags.Proofs.Walk.Secrecy
import SpanTags.Proofs.Walk.Selection
import SpanTags.Proofs.Walk.Step
import SpanTags.Proofs.Walk.TagSet
import SpanTags.Proofs.Walk.Thorough
import SpanTags.Proofs.Walk.Trimming
import SpanTags.Proofs.Walk.Uniqueness
import SpanTags.Proofs.Walk.Visit
import SpanTags.Proofs.Walk.WellFormed
import SpanTags.Proofs.Rule.Grammar
import SpanTags.Proofs.Rule.Rendering
import SpanTags.Proofs.Rule.Addressing
import SpanTags.Proofs.Rule.NormalForm
import SpanTags.Proofs.Settings.Precedence
import SpanTags.Proofs.Settings.Rules
import SpanTags.Proofs.Tag.PathRule
