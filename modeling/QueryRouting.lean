import QueryRouting.Backend.Database
import QueryRouting.Backend.Executor
import QueryRouting.Backend.Failure
import QueryRouting.Backend.Postgres
import QueryRouting.Backend.SqlServer
import QueryRouting.Backend.SqlType
import QueryRouting.Backend.Sqlite
import QueryRouting.Backend.Sqlite.Cell
import QueryRouting.Backend.Sqlite.Numeral
import QueryRouting.Backend.Sqlite.Token
import QueryRouting.Backend.TypeRegistry
import QueryRouting.Chain.Argument
import QueryRouting.Chain.Context
import QueryRouting.Chain.Failure
import QueryRouting.Chain.QueryMap
import QueryRouting.Chain.Step
import QueryRouting.Json.Basic
import QueryRouting.Json.Embedded
import QueryRouting.Json.Number
import QueryRouting.Json.Path
import QueryRouting.Json.Printer
import QueryRouting.Json.Reader
import QueryRouting.Json.Token
import QueryRouting.Keyed
import QueryRouting.Message.Form
import QueryRouting.Message.Headers
import QueryRouting.Message.Method
import QueryRouting.Message.Percent
import QueryRouting.Message.Request
import QueryRouting.Message.Response
import QueryRouting.Message.Status
import QueryRouting.Message.Target
import QueryRouting.Number.Double
import QueryRouting.Number.Extended
import QueryRouting.Number.Literal
import QueryRouting.Number.Shortest
import QueryRouting.Number.Word
import QueryRouting.Proofs.Backend.Postgres
import QueryRouting.Proofs.Backend.SqlServer
import QueryRouting.Proofs.Backend.Sqlite
import QueryRouting.Proofs.Backend.TypeRegistry
import QueryRouting.Proofs.Chain.Accounts
import QueryRouting.Proofs.Chain.Argument
import QueryRouting.Proofs.Chain.Deferral
import QueryRouting.Proofs.Chain.Drain
import QueryRouting.Proofs.Chain.Frame
import QueryRouting.Proofs.Chain.HeaderEdits
import QueryRouting.Proofs.Chain.LastDeclared
import QueryRouting.Proofs.Chain.Lookup
import QueryRouting.Proofs.Chain.Query
import QueryRouting.Proofs.Chain.QueryMap
import QueryRouting.Proofs.Chain.QueryOrder
import QueryRouting.Proofs.Chain.Response
import QueryRouting.Proofs.Chain.Statement
import QueryRouting.Proofs.Json.Lexicon
import QueryRouting.Proofs.Json.Reading
import QueryRouting.Proofs.Json.Walk
import QueryRouting.Proofs.Keyed
import QueryRouting.Proofs.Message.Body
import QueryRouting.Proofs.Message.Buffering
import QueryRouting.Proofs.Message.Form
import QueryRouting.Proofs.Message.Headers
import QueryRouting.Proofs.Number.Literal
import QueryRouting.Proofs.Number.Rounding
import QueryRouting.Proofs.Query.Annotation
import QueryRouting.Proofs.Query.Description
import QueryRouting.Proofs.Query.Division
import QueryRouting.Proofs.Query.Grammar
import QueryRouting.Proofs.Query.Rewriting
import QueryRouting.Proofs.Route.Agenda
import QueryRouting.Proofs.Route.Answer
import QueryRouting.Proofs.Route.Binding
import QueryRouting.Proofs.Route.BoundPrefix
import QueryRouting.Proofs.Route.Concatenation
import QueryRouting.Proofs.Route.Configured
import QueryRouting.Proofs.Route.Encoding
import QueryRouting.Proofs.Route.FallThrough
import QueryRouting.Proofs.Route.Fallback
import QueryRouting.Proofs.Route.FlowTable
import QueryRouting.Proofs.Route.Grouping
import QueryRouting.Proofs.Route.Handling
import QueryRouting.Proofs.Route.Hooks
import QueryRouting.Proofs.Route.Interleaving
import QueryRouting.Proofs.Route.Params
import QueryRouting.Proofs.Route.PatternGrammar
import QueryRouting.Proofs.Route.Precedence
import QueryRouting.Proofs.Route.Records
import QueryRouting.Proofs.Route.Registration
import QueryRouting.Proofs.Route.Result
import QueryRouting.Proofs.Route.SentResponse
import QueryRouting.Proofs.Route.Traces
import QueryRouting.Proofs.Service.BodyLimit
import QueryRouting.Proofs.Service.Counters
import QueryRouting.Proofs.Service.RequestId
import QueryRouting.Proofs.Settings.Bindable
import QueryRouting.Proofs.Settings.Check
import QueryRouting.Proofs.Settings.Edit
import QueryRouting.Proofs.Settings.Faults
import QueryRouting.Proofs.Text.Bytes
import QueryRouting.Proofs.Text.Numeral
import QueryRouting.Proofs.Text.Pieces
import QueryRouting.Proofs.Traversal
import QueryRouting.Query.Descriptor
import QueryRouting.Query.Failure
import QueryRouting.Query.Placeholder
import QueryRouting.Query.Reference
import QueryRouting.Query.Template
import QueryRouting.Route.Exchange
import QueryRouting.Route.MethodMatcher
import QueryRouting.Route.Pattern
import QueryRouting.Route.Router
import QueryRouting.Route.Table
import QueryRouting.Service.LogFilter
import QueryRouting.Service.Metrics
import QueryRouting.Service.Server
import QueryRouting.Settings.Decode
import QueryRouting.Settings.Load
import QueryRouting.Settings.Schema
import QueryRouting.Settings.SocketAddress
import QueryRouting.Settings.Validation
import QueryRouting.Text.Blank
import QueryRouting.Text.Bytes
import QueryRouting.Text.Extender
import QueryRouting.Text.Invisible
import QueryRouting.Text.Numeral
import QueryRouting.Text.Pieces
import QueryRouting.Text.Quoted
import QueryRouting.Text.Ranges
import QueryRouting.Toml.Document
import QueryRouting.Toml.Quoted
import QueryRouting.Toml.Scalar
import QueryRouting.Toml.Table
