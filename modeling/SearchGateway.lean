import SearchGateway.Admin.Command
import SearchGateway.Admin.Flags
import SearchGateway.Admin.Help
import SearchGateway.Admin.ListOption
import SearchGateway.Admin.Run
import SearchGateway.Admin.Similar
import SearchGateway.Admin.Table
import SearchGateway.Backend.Address
import SearchGateway.Backend.FacetCounts
import SearchGateway.Backend.Hit
import SearchGateway.Backend.Ip
import SearchGateway.Backend.Scroll
import SearchGateway.Backend.Store
import SearchGateway.Backend.Wire
import SearchGateway.Config.Options
import SearchGateway.Config.Tree
import SearchGateway.Config.Weak
import SearchGateway.Failure
import SearchGateway.Filter.Alias
import SearchGateway.Filter.Literal
import SearchGateway.Filter.Operator
import SearchGateway.Filter.ParseError
import SearchGateway.Filter.Parser
import SearchGateway.Filter.Scanner
import SearchGateway.Filter.Shape
import SearchGateway.Filter.Tree
import SearchGateway.Http.Binding
import SearchGateway.Http.Connection
import SearchGateway.Http.Encoding
import SearchGateway.Http.Handler
import SearchGateway.Http.Response
import SearchGateway.Http.Route
import SearchGateway.Http.Server
import SearchGateway.Http.Target
import SearchGateway.Index.FieldKind
import SearchGateway.Index.Metadata
import SearchGateway.Index.Registry
import SearchGateway.Json.Pretty
import SearchGateway.Json.Seek
import SearchGateway.Json.Value
import SearchGateway.Json.WellFormed
import SearchGateway.Log
import SearchGateway.Main
import SearchGateway.Metrics.Sample
import SearchGateway.Metrics.Tags
import SearchGateway.Number.Binary64
import SearchGateway.Number.Integer
import SearchGateway.Number.Layout
import SearchGateway.Number.Numeral
import SearchGateway.Number.Shortest
import SearchGateway.Ordering
import SearchGateway.Query.Clause
import SearchGateway.Query.Compile
import SearchGateway.Query.Facets
import SearchGateway.Query.FreeText
import SearchGateway.Query.Lowering
import SearchGateway.Query.Request
import SearchGateway.Query.Wildcard
import SearchGateway.SearchRequest
import SearchGateway.Stream
import SearchGateway.Text.Blank
import SearchGateway.Text.Bytes
import SearchGateway.Text.Duration
import SearchGateway.Text.LowerCase
import SearchGateway.Text.NameSet
import SearchGateway.Text.Percent
import SearchGateway.Text.Printable
import SearchGateway.Text.Quoted
import SearchGateway.Yaml.Cursor
import SearchGateway.Yaml.Node
import SearchGateway.Yaml.Scalar
import SearchGateway.Yaml.Timestamp
import SearchGateway.Yaml.Token
import SearchGateway.Yaml.Tokens
import SearchGateway.Yaml.Value
import SearchGateway.Proofs.Filter.Structure
import SearchGateway.Proofs.Query.Meaning
import SearchGateway.Proofs.Query.Entries
import SearchGateway.Proofs.Query.Preservation
import SearchGateway.Proofs.Filter.Literals
import SearchGateway.Proofs.Filter.Grammar
import SearchGateway.Proofs.Number.Rounding
import SearchGateway.Proofs.Filter.Words
import SearchGateway.Proofs.Filter.Canonical
import SearchGateway.Proofs.Filter.Printing
import SearchGateway.Proofs.Filter.RoundTrip
import SearchGateway.Proofs.Filter.Tokens
import SearchGateway.Proofs.Query.Polarity
import SearchGateway.Proofs.Query.Compiled
import SearchGateway.Proofs.Query.FreeText
import SearchGateway.Proofs.Backend.Address
import SearchGateway.Proofs.Backend.Scroll
import SearchGateway.Proofs.Backend.Uses
import SearchGateway.Proofs.Index.Registry
import SearchGateway.Proofs.Index.Sharing
import SearchGateway.Proofs.Query.Defaults
import SearchGateway.Proofs.Backend.FacetCounts
import SearchGateway.Proofs.Filter.Parentheses
import SearchGateway.Proofs.Query.Redundancy
import SearchGateway.Proofs.Query.Packaging
import SearchGateway.Proofs.Json.Content
import SearchGateway.Proofs.Json.Quoting
import SearchGateway.Proofs.Json.Numerals
import SearchGateway.Proofs.Json.Printing
import SearchGateway.Proofs.Json.Faithful
import SearchGateway.Proofs.Query.Encoding
import SearchGateway.Proofs.Query.Sendable
import SearchGateway.Proofs.Query.Faults
import SearchGateway.Proofs.Index.Validation
import SearchGateway.Proofs.Query.Parts
import SearchGateway.Proofs.Query.Grounding
import SearchGateway.Proofs.Query.Limits
import SearchGateway.Proofs.Query.Containers
import SearchGateway.Proofs.Query.Wildcard
import SearchGateway.Proofs.Query.Source
import SearchGateway.Proofs.Query.Coverage
import SearchGateway.Proofs.Text.Words
import SearchGateway.Proofs.Ordering
import SearchGateway.Proofs.Stream.Accounting
import SearchGateway.Proofs.Stream.Lines
import SearchGateway.Proofs.Text.Bytes
import SearchGateway.Proofs.Http.Streaming
import SearchGateway.Proofs.Query.Naming
import SearchGateway.Proofs.Query.SearchFields
import SearchGateway.Proofs.Query.Boosts
import SearchGateway.Proofs.Filter.Integers
import SearchGateway.Proofs.Filter.Aliases
import SearchGateway.Proofs.Metrics.Tags
import SearchGateway.Proofs.Filter.Calls
import SearchGateway.Proofs.Filter.Traces
import SearchGateway.Proofs.Query.Rings
import SearchGateway.Proofs.Filter.Progress
