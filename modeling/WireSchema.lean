import WireSchema.Arithmetic
import WireSchema.Binary64.Basic
import WireSchema.Binary64.Literal
import WireSchema.Binary64.Shortest
import WireSchema.CommandLine.Arguments
import WireSchema.CommandLine.Command
import WireSchema.CommandLine.Documents
import WireSchema.CommandLine.Execution
import WireSchema.CommandLine.Run
import WireSchema.Conversion
import WireSchema.Decimal
import WireSchema.FileSystem
import WireSchema.FileTree
import WireSchema.Filter.Basic
import WireSchema.Filter.Parser
import WireSchema.Filter.Token
import WireSchema.FilterLanguage
import WireSchema.Glob.Basic
import WireSchema.Glob.Matches
import WireSchema.Glob.Parser
import WireSchema.Json.Basic
import WireSchema.Json.Location
import WireSchema.Json.Number
import WireSchema.Json.Pointer
import WireSchema.Json.Printer
import WireSchema.Json.QuotedText
import WireSchema.Json.Reader
import WireSchema.Json.SyntaxError
import WireSchema.Json.Token
import WireSchema.Json.Written
import WireSchema.KeyMap
import WireSchema.Main
import WireSchema.Members
import WireSchema.Proofs.CommandLine.InputDocuments
import WireSchema.Proofs.CommandLine.Lines
import WireSchema.Proofs.CommandLine.Origins
import WireSchema.Proofs.CommandLine.RoundTrip
import WireSchema.Proofs.CommandLine.Transcription
import WireSchema.Proofs.Conformance
import WireSchema.Proofs.Decimal
import WireSchema.Proofs.ErrorPlaces
import WireSchema.Proofs.FileSystem
import WireSchema.Proofs.Gathering
import WireSchema.Proofs.Items
import WireSchema.Proofs.Json.Exchanging
import WireSchema.Proofs.Json.Induction
import WireSchema.Proofs.Json.Parts
import WireSchema.Proofs.Json.Printing
import WireSchema.Proofs.Json.Reading
import WireSchema.Proofs.Json.Scanning
import WireSchema.Proofs.Json.Showing
import WireSchema.Proofs.Json.Texts
import WireSchema.Proofs.Members.Corresponding
import WireSchema.Proofs.Members.Insertion
import WireSchema.Proofs.Members.Rekeying
import WireSchema.Proofs.Members.Translation
import WireSchema.Proofs.Members.Viewing
import WireSchema.Proofs.Pointer
import WireSchema.Proofs.Renaming.Applied
import WireSchema.Proofs.Renaming.Bijection
import WireSchema.Proofs.Renaming.Codec
import WireSchema.Proofs.Renaming.Conflicts
import WireSchema.Proofs.Renaming.Crossing
import WireSchema.Proofs.Renaming.Decoding
import WireSchema.Proofs.Renaming.Encoding
import WireSchema.Proofs.Renaming.Failing
import WireSchema.Proofs.Renaming.FixedPoint
import WireSchema.Proofs.Renaming.KeyMap
import WireSchema.Proofs.Renaming.Meeting
import WireSchema.Proofs.Renaming.Reshaping
import WireSchema.Proofs.Renaming.Shape
import WireSchema.Proofs.Renaming.SourceAndTarget
import WireSchema.Proofs.Renaming.Stacked
import WireSchema.Proofs.RoundTrip.Codecs
import WireSchema.Proofs.RoundTrip.Documents
import WireSchema.Proofs.RoundTrip.Inverse
import WireSchema.Proofs.RoundTrip.Normalizing
import WireSchema.Proofs.RoundTrip.Returning
import WireSchema.Proofs.RoundTrip.ThroughJson
import WireSchema.Proofs.RoundTrip.Tidying
import WireSchema.Proofs.Runs
import WireSchema.Proofs.Schema.Parts
import WireSchema.Proofs.Schema.Views
import WireSchema.Proofs.SchemaDocument.Grammar
import WireSchema.Proofs.SchemaDocument.Leaves
import WireSchema.Proofs.SchemaDocument.Mistakes
import WireSchema.Proofs.SchemaDocument.Reading
import WireSchema.Proofs.SchemaDocument.Records
import WireSchema.Proofs.SchemaDocument.RepeatedNames
import WireSchema.Proofs.SchemaDocument.Schemas
import WireSchema.Proofs.SchemaDocument.Structs
import WireSchema.Proofs.SchemaDocument.Tuples
import WireSchema.Proofs.SchemaDocument.UnknownKinds
import WireSchema.Proofs.Timestamp.Calendar
import WireSchema.Proofs.Timestamp.Rewriting
import WireSchema.Proofs.Timestamp.RoundTrip
import WireSchema.Proofs.Transcoding.Agreement
import WireSchema.Proofs.Transcoding.Anchoring
import WireSchema.Proofs.Transcoding.Arity
import WireSchema.Proofs.Transcoding.Errors
import WireSchema.Proofs.Transcoding.Following
import WireSchema.Proofs.Transcoding.Locality
import WireSchema.Proofs.Transcoding.Outcome
import WireSchema.Proofs.Transcoding.Outputs
import WireSchema.Proofs.Transcoding.Tracing
import WireSchema.Proofs.TwoRuns.Renamed
import WireSchema.Proofs.TwoRuns.SameValues
import WireSchema.Proofs.TwoRuns.Translations
import WireSchema.Proofs.TwoRuns.UndeclaredKeys
import WireSchema.Proofs.TwoRuns.Walks
import WireSchema.Proofs.Value.DistinctKeys
import WireSchema.Proofs.Value.Places
import WireSchema.Proofs.Value.Same
import WireSchema.Proofs.Value.SameUpToOrder
import WireSchema.Proofs.Value.ThroughJson
import WireSchema.Schema.Basic
import WireSchema.Schema.Renaming
import WireSchema.Schema.Transcoding
import WireSchema.Schema.View
import WireSchema.SchemaDocument.Basic
import WireSchema.SchemaDocument.Problem
import WireSchema.SchemaDocument.Reader
import WireSchema.SchemaDocument.Record
import WireSchema.SchemaDocument.Skipped
import WireSchema.Side
import WireSchema.Splitting
import WireSchema.Text.Blank
import WireSchema.Text.Invisible
import WireSchema.Text.Shown
import WireSchema.Timestamp.Basic
import WireSchema.Timestamp.Calendar
import WireSchema.Timestamp.Parser
import WireSchema.Timestamp.Printer
import WireSchema.TranscodingError
import WireSchema.Value
