import ViewRendering.Cache
import ViewRendering.Command
import ViewRendering.CommandLine
import ViewRendering.ContentType
import ViewRendering.Decimal.Layout
import ViewRendering.Decimal.Shortest
import ViewRendering.Dict
import ViewRendering.Emission
import ViewRendering.Event
import ViewRendering.Failure
import ViewRendering.FileFailure
import ViewRendering.FileTree
import ViewRendering.Files
import ViewRendering.Http.Fault
import ViewRendering.Http.Header
import ViewRendering.Http.Request
import ViewRendering.Http.Response
import ViewRendering.Http.Uri
import ViewRendering.Locals
import ViewRendering.LogFilter
import ViewRendering.Main
import ViewRendering.Markup.Segment
import ViewRendering.Markup.Translation
import ViewRendering.Options
import ViewRendering.Partial.Directive
import ViewRendering.Partial.Expansion
import ViewRendering.Partial.Expression
import ViewRendering.Path
import ViewRendering.Program
import ViewRendering.Proofs.Command.Framing
import ViewRendering.Proofs.Command.Precedence
import ViewRendering.Proofs.Command.Work
import ViewRendering.Proofs.ContentType.Characters
import ViewRendering.Proofs.ContentType.Meaning
import ViewRendering.Proofs.ContentType.MediaType
import ViewRendering.Proofs.ContentType.Pieces
import ViewRendering.Proofs.ContentType.QuotedValues
import ViewRendering.Proofs.ContentType.Rewriting
import ViewRendering.Proofs.ContentType.Stability
import ViewRendering.Proofs.Dict.Order
import ViewRendering.Proofs.Http.Snapshot
import ViewRendering.Proofs.Locals.Agreement
import ViewRendering.Proofs.Locals.Precedence
import ViewRendering.Proofs.Markup.Cursor
import ViewRendering.Proofs.Markup.Halting
import ViewRendering.Proofs.Markup.Openings
import ViewRendering.Proofs.Markup.OutputTags
import ViewRendering.Proofs.Markup.Protection
import ViewRendering.Proofs.Markup.Reading
import ViewRendering.Proofs.Partial.Concatenation
import ViewRendering.Proofs.Partial.Decision
import ViewRendering.Proofs.Partial.Finding
import ViewRendering.Proofs.Partial.Grammar
import ViewRendering.Proofs.Partial.LookupFree
import ViewRendering.Proofs.Partial.OpenTag
import ViewRendering.Proofs.Partial.Pieces
import ViewRendering.Proofs.Partial.Recursion
import ViewRendering.Proofs.Partial.Shape
import ViewRendering.Proofs.Partial.Substitution
import ViewRendering.Proofs.Partial.TagAgreement
import ViewRendering.Proofs.Partial.Warnings
import ViewRendering.Proofs.Path.Acceptance
import ViewRendering.Proofs.Path.Containment
import ViewRendering.Proofs.Service.Containment
import ViewRendering.Proofs.Service.Emission
import ViewRendering.Proofs.Service.ErrorLine
import ViewRendering.Proofs.Service.Layout
import ViewRendering.Proofs.Service.Loading
import ViewRendering.Proofs.Service.RawSection
import ViewRendering.Proofs.Service.Reserved
import ViewRendering.Proofs.Service.Resolution
import ViewRendering.Proofs.Session.Accounting
import ViewRendering.Proofs.Session.Attribution
import ViewRendering.Proofs.Session.Run
import ViewRendering.Proofs.Session.Snapshot
import ViewRendering.Proofs.Session.Transparency
import ViewRendering.Proofs.Settings.Reading
import ViewRendering.Proofs.Settings.RoundTrip
import ViewRendering.Proofs.Template.Arguments
import ViewRendering.Proofs.Template.CallForms
import ViewRendering.Proofs.Template.Escaping
import ViewRendering.Proofs.Template.ExpressionReading
import ViewRendering.Proofs.Template.MissingName
import ViewRendering.Proofs.Template.NodeReading
import ViewRendering.Proofs.Template.PageRendering
import ViewRendering.Proofs.Template.RawSection
import ViewRendering.Proofs.Template.RootCause
import ViewRendering.Proofs.Template.Suggestion
import ViewRendering.Proofs.Template.Tolerance
import ViewRendering.Proofs.Text.Distance
import ViewRendering.Proofs.Text.Occurrence
import ViewRendering.Proofs.Text.Octets
import ViewRendering.Proofs.Text.Parts
import ViewRendering.Proofs.Text.Reader
import ViewRendering.Proofs.Toml.Order
import ViewRendering.Service
import ViewRendering.Session
import ViewRendering.Settings
import ViewRendering.Settings.File
import ViewRendering.Settings.Table
import ViewRendering.Template.Argument
import ViewRendering.Template.Calculation
import ViewRendering.Template.Compiled
import ViewRendering.Template.Engine
import ViewRendering.Template.Evaluation
import ViewRendering.Template.Expression
import ViewRendering.Template.ExpressionReader
import ViewRendering.Template.Fault
import ViewRendering.Template.Filters
import ViewRendering.Template.Functions
import ViewRendering.Template.Lexeme
import ViewRendering.Template.Node
import ViewRendering.Template.NodeReader
import ViewRendering.Template.Output
import ViewRendering.Template.Rendering
import ViewRendering.Template.Scope
import ViewRendering.Template.Suggestion
import ViewRendering.Template.Testers
import ViewRendering.Text.Case
import ViewRendering.Text.CaseTable
import ViewRendering.Text.Cluster
import ViewRendering.Text.Distance
import ViewRendering.Text.Quoted
import ViewRendering.Text.Reader
import ViewRendering.Text.Scan
import ViewRendering.Text.Space
import ViewRendering.Text.SpelledTable
import ViewRendering.Text.Utf8
import ViewRendering.Text.WordTable
import ViewRendering.Toml.Document
import ViewRendering.Toml.Moment
import ViewRendering.Toml.Scalar
import ViewRendering.Toml.Table
import ViewRendering.Value
import ViewRendering.Value.Json
