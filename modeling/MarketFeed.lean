import MarketFeed.Book.Basic
import MarketFeed.Book.Table
import MarketFeed.Books
import MarketFeed.Bytes
import MarketFeed.Capture.Batch
import MarketFeed.Capture.Buffer
import MarketFeed.Capture.Error
import MarketFeed.Capture.File
import MarketFeed.Capture.Header
import MarketFeed.Capture.Producer
import MarketFeed.Clock.Elapsed
import MarketFeed.Clock.Instant
import MarketFeed.Command.Analyze
import MarketFeed.Command.Arguments
import MarketFeed.Command.Failure
import MarketFeed.Command.Replay
import MarketFeed.Config
import MarketFeed.Count
import MarketFeed.Datagram.Decoder
import MarketFeed.Decimal.Binary64
import MarketFeed.Decimal.Numeral
import MarketFeed.Decimal.Rounding
import MarketFeed.Decimal.Shortest
import MarketFeed.Files
import MarketFeed.Files.Change
import MarketFeed.Files.Folder
import MarketFeed.Files.Path
import MarketFeed.Keyed
import MarketFeed.Log.Checksum
import MarketFeed.Log.Codec
import MarketFeed.Log.Frame
import MarketFeed.Log.Stream
import MarketFeed.Main
import MarketFeed.Message
import MarketFeed.Message.Basic
import MarketFeed.Message.Codes
import MarketFeed.Message.Layout
import MarketFeed.Output.Csv
import MarketFeed.Output.EventLog
import MarketFeed.Output.Outputs
import MarketFeed.Output.Staging
import MarketFeed.Packet.Filter
import MarketFeed.Packet.Header
import MarketFeed.Price
import MarketFeed.Proofs.Book.Exchange
import MarketFeed.Proofs.Book.Fragments
import MarketFeed.Proofs.Book.Levels
import MarketFeed.Proofs.Book.Orders
import MarketFeed.Proofs.Book.Sound
import MarketFeed.Proofs.Book.Volumes
import MarketFeed.Proofs.Books
import MarketFeed.Proofs.Capture.Arena
import MarketFeed.Proofs.Capture.Delivery
import MarketFeed.Proofs.Capture.Exact
import MarketFeed.Proofs.Capture.Offset
import MarketFeed.Proofs.Capture.Ranges
import MarketFeed.Proofs.Capture.Reading
import MarketFeed.Proofs.Capture.Records
import MarketFeed.Proofs.Capture.Runs
import MarketFeed.Proofs.Capture.Twins
import MarketFeed.Proofs.Datagram.Bounds
import MarketFeed.Proofs.Datagram.Calls
import MarketFeed.Proofs.Datagram.DeclaredSize
import MarketFeed.Proofs.Datagram.EntryCount
import MarketFeed.Proofs.Datagram.Grammar
import MarketFeed.Proofs.Datagram.Isolation
import MarketFeed.Proofs.Datagram.Listeners
import MarketFeed.Proofs.Datagram.Listening
import MarketFeed.Proofs.Datagram.Padding
import MarketFeed.Proofs.Datagram.Steps
import MarketFeed.Proofs.Datagram.Strides
import MarketFeed.Proofs.Datagram.Telling
import MarketFeed.Proofs.Datagram.Walk
import MarketFeed.Proofs.Keyed
import MarketFeed.Proofs.Log.Checksum
import MarketFeed.Proofs.Log.Cut
import MarketFeed.Proofs.Log.Damage
import MarketFeed.Proofs.Log.Live
import MarketFeed.Proofs.Log.RoundTrip
import MarketFeed.Proofs.Log.Sequence
import MarketFeed.Proofs.Message.Layouts
import MarketFeed.Proofs.Output.Abandonment
import MarketFeed.Proofs.Output.Columns
import MarketFeed.Proofs.Output.Completion
import MarketFeed.Proofs.Output.Rows
import MarketFeed.Proofs.Output.Tables
import MarketFeed.Proofs.Packet.Faults
import MarketFeed.Proofs.Session.Accounting
import MarketFeed.Proofs.Session.Reference
import MarketFeed.Proofs.Session.Rounds
import MarketFeed.Proofs.Session.Stopping
import MarketFeed.Proofs.Session.Turns
import MarketFeed.Proofs.Snapshot
import MarketFeed.Proofs.Snapshot.LastEntries
import MarketFeed.Proofs.Text.Utf8
import MarketFeed.Proofs.Words
import MarketFeed.Session.Run
import MarketFeed.Session.Schedule
import MarketFeed.Snapshot
import MarketFeed.SystemFault
import MarketFeed.Text
import MarketFeed.Text.Dump
import MarketFeed.Text.Hidden
import MarketFeed.Text.Quoted
import MarketFeed.Text.Utf8
