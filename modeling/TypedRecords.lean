import TypedRecords.Catalog
import TypedRecords.Config
import TypedRecords.Converters
import TypedRecords.Cursor
import TypedRecords.Entity
import TypedRecords.Error
import TypedRecords.FaultChannel
import TypedRecords.Identity
import TypedRecords.Json.Decoder
import TypedRecords.Json.Exact
import TypedRecords.Json.Numeral
import TypedRecords.Json.Queries
import TypedRecords.Json.Reader
import TypedRecords.Json.Records
import TypedRecords.Json.Schemas
import TypedRecords.Json.Tree
import TypedRecords.Json.Writer
import TypedRecords.Lifecycle
import TypedRecords.Manager
import TypedRecords.Manager.Fetch
import TypedRecords.Manager.Write
import TypedRecords.Mapping
import TypedRecords.Number.Decimal
import TypedRecords.Number.DecimalReader
import TypedRecords.Number.Double
import TypedRecords.Number.DoubleText
import TypedRecords.Number.Positional
import TypedRecords.Number.Shortest
import TypedRecords.Number.Word
import TypedRecords.Query.Filter
import TypedRecords.Query.PageQuery
import TypedRecords.Query.Path
import TypedRecords.Query.Predicate
import TypedRecords.Query.Search
import TypedRecords.Record
import TypedRecords.Reference
import TypedRecords.Scalar
import TypedRecords.Scalar.Member
import TypedRecords.Scalar.Slot
import TypedRecords.Schema
import TypedRecords.Schema.Declaration
import TypedRecords.Store
import TypedRecords.Store.Scripted
import TypedRecords.Text.Blank
import TypedRecords.Text.Digits
import TypedRecords.Time.Calendar
import TypedRecords.Time.Instant
import TypedRecords.Time.Rfc3339
import TypedRecords.Value
import TypedRecords.Proofs.Outcome
import TypedRecords.Proofs.Query.Compile
import TypedRecords.Proofs.Query.Search
import TypedRecords.Proofs.Mapping.Reading
import TypedRecords.Proofs.Schema
import TypedRecords.Proofs.Mapping.WriteBack
import TypedRecords.Proofs.Scalar.Member
import TypedRecords.Proofs.Mapping.RoundTrip
import TypedRecords.Proofs.Record
import TypedRecords.Proofs.Mapping.JoinPlace
import TypedRecords.Proofs.Json.Text
import TypedRecords.Proofs.Json.Decoding
import TypedRecords.Proofs.Json.Queries
import TypedRecords.Proofs.Manager.Events
import TypedRecords.Proofs.Manager.Fetch
import TypedRecords.Proofs.Cursor
import TypedRecords.Proofs.Schema.Replay
import TypedRecords.Proofs.Schema.LinkName
import TypedRecords.Proofs.Mapping.KeptLookup
import TypedRecords.Proofs.Manager.ReadOnly
import TypedRecords.Proofs.Manager.Insert
import TypedRecords.Proofs.Query.WellFormed
import TypedRecords.Proofs.Mapping.Depth
import TypedRecords.Proofs.Mapping.ReadBack
import TypedRecords.Proofs.Manager.Verbatim
import TypedRecords.Proofs.Record.Extraction
import TypedRecords.Proofs.Query.Joins
import TypedRecords.Proofs.Query.KeyConditions
import TypedRecords.Proofs.Mapping.Selection
import TypedRecords.Proofs.Mapping.Lifecycle
import TypedRecords.Proofs.Mapping.Failure
import TypedRecords.Proofs.Mapping.Scope
import TypedRecords.Proofs.Mapping.Calls
import TypedRecords.Proofs.Cursor.Moves
import TypedRecords.Proofs.Mapping.Sharing
import TypedRecords.Proofs.Manager.Cast
import TypedRecords.Proofs.FaultChannel
import TypedRecords.Proofs.Manager.Untyped
import TypedRecords.Proofs.Text.Digits
import TypedRecords.Proofs.Identity
import TypedRecords.Proofs.Time.Calendar
import TypedRecords.Proofs.Time.Rfc3339
import TypedRecords.Proofs.Scalar.ConditionText
import TypedRecords.Proofs.Number.Decimal
import TypedRecords.Proofs.Number.Plain
import TypedRecords.Proofs.Scalar.AmountText
import TypedRecords.Proofs.Scalar.Projection
import TypedRecords.Proofs.Scalar.WholeNumber
