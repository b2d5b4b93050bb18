import EscrowFeed.Bytes
import EscrowFeed.Success
import EscrowFeed.WideInt
import EscrowFeed.Json.Basic
import EscrowFeed.Json.Lexeme
import EscrowFeed.Json.Reader
import EscrowFeed.Json.Printer
import EscrowFeed.Field.Basic
import EscrowFeed.Field.Reading
import EscrowFeed.Upsert
import EscrowFeed.Event.Kind
import EscrowFeed.Event.Identity
import EscrowFeed.Event.Basic
import EscrowFeed.Event.Record
import EscrowFeed.Wire.Basic
import EscrowFeed.Wire.Unknown
import EscrowFeed.Envelope.Error
import EscrowFeed.Envelope.Decoder
import EscrowFeed.Envelope.Encoder
import EscrowFeed.Store.Basic
import EscrowFeed.Store.Table
import EscrowFeed.Store.Outlet
import EscrowFeed.Store.Lines
import EscrowFeed.Feed.Entry
import EscrowFeed.Feed.Summary
import EscrowFeed.Feed.Journal
import EscrowFeed.Feed.Batch
import EscrowFeed.Feed.Ingest
import EscrowFeed.Files.Path
import EscrowFeed.Files.Access
import EscrowFeed.Files.Tree
import EscrowFeed.Text.Printable
import EscrowFeed.Text.Quoted
import EscrowFeed.Settings.Basic
import EscrowFeed.Settings.Reader
import EscrowFeed.Command
import EscrowFeed.Main
import EscrowFeed.Proofs.Hex
import EscrowFeed.Proofs.WideInt
import EscrowFeed.Proofs.Decimal.Reading
import EscrowFeed.Proofs.Decimal.Canonical
import EscrowFeed.Proofs.Members
import EscrowFeed.Proofs.Json.Grammar
import EscrowFeed.Proofs.Json.Lexemes
import EscrowFeed.Proofs.Json.Language
import EscrowFeed.Proofs.Field.Coercion
import EscrowFeed.Proofs.Field.Schema
import EscrowFeed.Proofs.Event.Schema
import EscrowFeed.Proofs.Feed.Classification
import EscrowFeed.Proofs.Feed.Faults
import EscrowFeed.Proofs.Feed.Summary
import EscrowFeed.Proofs.Feed.Batch
import EscrowFeed.Proofs.Json.RoundTrip
import EscrowFeed.Proofs.Field.Lookup
import EscrowFeed.Proofs.Field.Cell
import EscrowFeed.Proofs.Store.Lines
import EscrowFeed.Proofs.Feed.Recovery
import EscrowFeed.Proofs.Wire.Grammar
import EscrowFeed.Proofs.Wire.Readers
import EscrowFeed.Proofs.Envelope.Language
import EscrowFeed.Proofs.Envelope.Shortest
import EscrowFeed.Proofs.Envelope.Concatenation
import EscrowFeed.Proofs.Event.Identity
import EscrowFeed.Proofs.Store.Saving
import EscrowFeed.Proofs.Store.Table
import EscrowFeed.Proofs.Feed.Records
import EscrowFeed.Proofs.Feed.Ingest
import EscrowFeed.Proofs.Feed.DryRun
import EscrowFeed.Proofs.Store.Loading
import EscrowFeed.Proofs.Feed.Session
import EscrowFeed.Proofs.Store.History
import EscrowFeed.Proofs.Feed.Phases
import EscrowFeed.Proofs.Store.Limit
import EscrowFeed.Proofs.Files.Tree
import EscrowFeed.Proofs.Files.Directories
import EscrowFeed.Proofs.Command.Stages
import EscrowFeed.Proofs.Command.Output
import EscrowFeed.Proofs.Command.DryRun
import EscrowFeed.Proofs.Feed.Journal
import EscrowFeed.Proofs.Json.Nested
import EscrowFeed.Proofs.Store.RowTree
import EscrowFeed.Proofs.Field.ReadOrder
import EscrowFeed.Proofs.Store.Columns
import EscrowFeed.Proofs.Store.JoinedKeys
import EscrowFeed.Proofs.Settings.Grammar
import EscrowFeed.Proofs.Settings.Language
