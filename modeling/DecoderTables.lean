import DecoderTables.Catalog.BuildError
import DecoderTables.Catalog.Decoder
import DecoderTables.Catalog.FlagSet
import DecoderTables.Catalog.Indexed
import DecoderTables.Catalog.Instruction
import DecoderTables.Catalog.Intake
import DecoderTables.Catalog.Splitter
import DecoderTables.Command.Arguments
import DecoderTables.Command.Run
import DecoderTables.Decimal.Binary64
import DecoderTables.Decimal.Notation
import DecoderTables.Decimal.Shortest
import DecoderTables.Diff
import DecoderTables.Document.Basic
import DecoderTables.Document.Reader
import DecoderTables.Files.Disk
import DecoderTables.Files.Host
import DecoderTables.Files.Path
import DecoderTables.Generator
import DecoderTables.Golden.Basic
import DecoderTables.Golden.Difference
import DecoderTables.Golden.Reader
import DecoderTables.Golden.Run
import DecoderTables.Header.Decoders
import DecoderTables.Header.Instructions
import DecoderTables.Header.Layout
import DecoderTables.Header.Options
import DecoderTables.Identifier
import DecoderTables.Json.Printer
import DecoderTables.Json.ReadError
import DecoderTables.Json.Reader.Basic
import DecoderTables.Json.Reader.Ignored
import DecoderTables.Json.Reader.Numeral
import DecoderTables.Json.Reader.Text
import DecoderTables.Json.Reader.Value
import DecoderTables.Json.Value
import DecoderTables.Listing
import DecoderTables.Main
import DecoderTables.Notice
import DecoderTables.Pattern.Basic
import DecoderTables.Pattern.Predicate
import DecoderTables.Pattern.Run
import DecoderTables.Pattern.Scan
import DecoderTables.Pattern.Word
import DecoderTables.Proofs.BinaryDigits
import DecoderTables.Proofs.Catalog.Accepted
import DecoderTables.Proofs.Catalog.Faults
import DecoderTables.Proofs.Catalog.Filling
import DecoderTables.Proofs.Catalog.Fit
import DecoderTables.Proofs.Catalog.Indexed
import DecoderTables.Proofs.Catalog.PascalCase
import DecoderTables.Proofs.Catalog.SnakeCase
import DecoderTables.Proofs.Command.Display
import DecoderTables.Proofs.Command.Status
import DecoderTables.Proofs.Document.Acceptance
import DecoderTables.Proofs.Document.Entries
import DecoderTables.Proofs.Document.Members
import DecoderTables.Proofs.Document.RoundTrip
import DecoderTables.Proofs.Document.Sections
import DecoderTables.Proofs.Document.Written
import DecoderTables.Proofs.Files.Aborted
import DecoderTables.Proofs.Files.Attempts
import DecoderTables.Proofs.Files.Changes
import DecoderTables.Proofs.Files.Directories
import DecoderTables.Proofs.Files.Failure
import DecoderTables.Proofs.Files.Hosts
import DecoderTables.Proofs.Files.Installation
import DecoderTables.Proofs.Files.Observation
import DecoderTables.Proofs.Files.Places
import DecoderTables.Proofs.Files.Rendering
import DecoderTables.Proofs.Files.Repetition
import DecoderTables.Proofs.Files.Separation
import DecoderTables.Proofs.Files.Staleness
import DecoderTables.Proofs.Files.Steps
import DecoderTables.Proofs.Golden.Numbering
import DecoderTables.Proofs.Golden.Outcomes
import DecoderTables.Proofs.Golden.Reading
import DecoderTables.Proofs.Golden.Rows
import DecoderTables.Proofs.Golden.Running
import DecoderTables.Proofs.Golden.TokenStarts
import DecoderTables.Proofs.Header.Assertion
import DecoderTables.Proofs.Header.Callback
import DecoderTables.Proofs.Header.Clauses
import DecoderTables.Proofs.Header.Declarations
import DecoderTables.Proofs.Header.Dispatch
import DecoderTables.Proofs.Header.Functions
import DecoderTables.Proofs.Header.Initialiser
import DecoderTables.Proofs.Header.Members
import DecoderTables.Proofs.Header.Nesting
import DecoderTables.Proofs.Header.Opacity
import DecoderTables.Proofs.Header.Scope
import DecoderTables.Proofs.Header.Selection
import DecoderTables.Proofs.Header.Token
import DecoderTables.Proofs.Header.Uniqueness
import DecoderTables.Proofs.Json.Answer
import DecoderTables.Proofs.Json.Grammar
import DecoderTables.Proofs.Json.Integers
import DecoderTables.Proofs.Json.Merging
import DecoderTables.Proofs.Json.Reading
import DecoderTables.Proofs.Json.Skipping
import DecoderTables.Proofs.Json.Strings
import DecoderTables.Proofs.Json.Unambiguity
import DecoderTables.Proofs.Json.Values
import DecoderTables.Proofs.Json.Writing
import DecoderTables.Proofs.Listing.Colours
import DecoderTables.Proofs.Listing.Columns
import DecoderTables.Proofs.Orders
import DecoderTables.Proofs.Pattern.Agreement
import DecoderTables.Proofs.Pattern.Decomposition
import DecoderTables.Proofs.Pattern.Mask
import DecoderTables.Proofs.Pattern.Minimality
import DecoderTables.Proofs.Pattern.Runs
import DecoderTables.Proofs.Pattern.Separation
import DecoderTables.Proofs.Pattern.Validity
import DecoderTables.Proofs.Pattern.Word
import DecoderTables.Proofs.Results
import DecoderTables.Proofs.Selector.Coverage
import DecoderTables.Proofs.Selector.Digits
import DecoderTables.Proofs.Selector.Keys
import DecoderTables.Proofs.Selector.Resolution
import DecoderTables.Proofs.Stages
import DecoderTables.Proofs.Tables.Built
import DecoderTables.Proofs.Tables.Consistency
import DecoderTables.Proofs.Tables.EarliestFault
import DecoderTables.Proofs.Tables.Equality
import DecoderTables.Proofs.Tables.Images
import DecoderTables.Proofs.Tables.Indexed
import DecoderTables.Proofs.Tables.Opacity
import DecoderTables.Proofs.Tables.Rearrangement
import DecoderTables.Proofs.Tables.View
import DecoderTables.Proofs.Text.Bytes
import DecoderTables.Proofs.Text.Difference
import DecoderTables.Proofs.Text.Pieces
import DecoderTables.Proofs.Text.Upper
import DecoderTables.Proofs.Text.Words
import DecoderTables.Selector
import DecoderTables.Tables
import DecoderTables.Tables.Indexed
import DecoderTables.Text.Blank
import DecoderTables.Text.Line
import DecoderTables.Text.Printable
import DecoderTables.Text.Quoted
import DecoderTables.Text.Upper
import DecoderTables.Text.Utf8
