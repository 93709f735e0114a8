import MarketFeed.Command.Arguments
import MarketFeed.Command.Failure
import MarketFeed.Log.Stream
import MarketFeed.Files.Folder
import MarketFeed.SystemFault
import MarketFeed.Text.Quoted
import MarketFeed.Books
import MarketFeed.Book.Table
import MarketFeed.Clock.Instant

/-!
# Replaying an Event Log

The command that reads a log and rebuilds the books from it.

Every record is applied to the books as its message was when the log was
written. On demand each record is printed as it is read, and the book of its
security as it is afterwards. A header may only stand at the front. What was
printed before the log turns out to be damaged stays printed.

## Main definitions

* `ReplayOptions`, `ReplayOptions.parse`: What the command is told.
* `Replay`: The books so far and what was printed.
* `Replay.take`, `Replay.run`: One frame, and a whole log.
* `Replay.execute`: The command.
-/

namespace MarketFeed

/-- What the command is told. -/
structure ReplayOptions where
  /-- The log's file. -/
  input : String
  /-- Whether to print the book after each record. -/
  dump : Bool := false
  /-- How many levels of each side to print. -/
  top : Nat := 5
  /-- Whether to print each record. -/
  printEvents : Bool := false
  deriving DecidableEq, Repr

namespace ReplayOptions

/-- The options that the command knows. -/
def specs : List OptionSpec :=
  [{ name := "input", letter := some 'i' }, { name := "dump", takesValue := false },
    { name := "top" }, { name := "print-events", takesValue := false }]

/-- What the arguments tell the command. -/
def parse (arguments : List String) : Except UsageError ReplayOptions := do
  let given ← Arguments.parse specs arguments
  let input ← Arguments.requiredPath given "input"
  let top ← Arguments.naturalOr given "top" 5
  return { input
           dump := Arguments.has given "dump"
           top
           printEvents := Arguments.has given "print-events" }

end ReplayOptions

namespace LogRecord

/-- A word of a line and its value. -/
def labelled (label value : String) : String := label ++ "=" ++ value

/-- The best price of a side, which may have none. -/
def bestPrice (side : List BookEntry) : String :=
  Price.text ((side.head?.map (·.orderPrice)).getD Price.absent)

/-- The line that is printed for a record. -/
def line (r : LogRecord) : String :=
  let nat (n : Nat) := toString n
  let int (n : Int) := toString n
  let stamp (security : Int32) :=
    [labelled "seq" (nat r.seq.toNat), labelled "msg" (nat r.envelope.sequenceNumber.toNat),
      labelled "ts" (Instant.text r.envelope.sendingTime), labelled "sec" (int security.toInt)]
  let order (id : Int64) (action : Action) (side : Side) (price : Int64) :=
    [labelled "id" (int id.toInt), action.text, side.text, labelled "price" (Price.text price)]
  " ".intercalate <|
    match r.event with
    | .update u =>
      "UPDATE" :: stamp u.securityId ++ order u.orderId u.action u.side u.orderPrice ++
        [labelled "qty" (int u.orderVolume.toInt)]
    | .execution x =>
      "EXEC" :: stamp x.securityId ++ order x.orderId x.action x.side x.orderPrice ++
        [labelled "remaining" (int x.remainingQuantity.toInt),
          labelled "trade_price" (Price.text x.tradePrice),
          labelled "trade_qty" (int x.tradeVolume.toInt)]
    | .snapshot header bids asks =>
      "SNAPSHOT" :: stamp header.securityId ++
        [labelled "rpt_seq" (nat header.rptSeq.toNat), labelled "bids" (nat bids.length),
          labelled "asks" (nat asks.length), labelled "best_bid" (bestPrice bids),
          labelled "best_ask" (bestPrice asks)]

end LogRecord

/-- A replay on its way. -/
structure Replay where
  /-- The books so far. -/
  books : Books := {}
  /-- How many frames have been read. -/
  frames : Nat := 0
  /-- The results that were printed, in order. -/
  printed : Array String := #[]
  /-- The remarks that were printed, in order. -/
  remarks : Array String := #[]

namespace Replay

/-- Apply a record to the books. -/
def apply (r : LogRecord) (bs : Books) : Books := bs.apply r.envelope r.event.toMessage

/-- What is printed of a header. -/
def headerLine (h : LogHeader) : String :=
  "Header: v" ++ toString h.version.toNat ++ " source=" ++ h.source ++ " link_type=" ++
    toString h.linkType.toNat ++ " created=" ++ toString h.created.toNat ++ "ns\n"

/-- What is printed of a book after a record. -/
def bookText (o : ReplayOptions) (seq : UInt64) (security : Int32) (book : Book) : String :=
  "seq=" ++ toString seq.toNat ++ " security=" ++ toString security.toInt ++ " | top" ++
    toString o.top ++ " bids / asks:\n" ++ book.table o.top ++ "---\n"

/-- Print a text, if it is wanted. -/
def print (s : Replay) (wanted : Bool) (text : String) : Replay :=
  if wanted then { s with printed := s.printed.push text } else s

/-- Take a record. -/
def takeRecord (o : ReplayOptions) (r : LogRecord) (s : Replay) : Replay :=
  let s := s.print o.printEvents (r.line ++ "\n")
  let s := { s with books := apply r s.books }
  let security := r.event.securityId
  match s.books.get? security with
  | none => s
  | some book => s.print o.dump (bookText o r.seq security book)

/-- Take a header, which must be the first frame. -/
def takeHeader (o : ReplayOptions) (h : LogHeader) (s : Replay) : Except Failure Replay :=
  if s.frames = 1 then
    .ok (if o.dump then { s with remarks := s.remarks.push (headerLine h) } else s)
  else .error { sentence := "unexpected header at frame " ++ toString s.frames }

/-- Take one frame. -/
def take (o : ReplayOptions) (frame : LogFrame) (s : Replay) : Except Failure Replay :=
  let s := { s with frames := s.frames + 1 }
  match frame with
  | .header h => takeHeader o h s
  | .record r => .ok (takeRecord o r s)

/-- Take frames one after the other, up to the first that cannot be taken. -/
def run (o : ReplayOptions) : List LogFrame → Replay → Replay × Option Failure
  | [], s => (s, none)
  | frame :: rest, s =>
    match take o frame s with
    | .ok s => run o rest s
    | .error failure => (s, some failure)

/-- What is printed at the end of a log. -/
def closing (s : Replay) : String :=
  "Read " ++ toString s.frames ++ " frames. Final state: " ++ toString s.books.size ++
    " books, " ++ toString s.books.orderCount ++ " resting orders.\n"

/-- Take a whole log. A damaged log fails with the number of the frame that
    could not be read. -/
def runLog (o : ReplayOptions) (log : Bytes) : Replay × Option Failure :=
  let (frames, error) := Log.readAll log
  match run o frames {}, error with
  | (s, some failure), _ => (s, some failure)
  | (s, none), some e => (s, some (.within ("frame " ++ toString s.frames) e.chain))
  | (s, none), none => ({ s with remarks := s.remarks.push s.closing }, none)

/-- The command. It is given what was found under the log's path. A folder
    can be opened like a file, and is refused when its first frame is read. -/
def execute (o : ReplayOptions) (found : Except SystemFault Entry) : Replay × Option Failure :=
  match found with
  | .error fault => ({}, some (.within ("open " ++ Text.quoted o.input) [fault.message]))
  | .ok .folder => ({}, some (.within "frame 0" [SystemFault.isFolder.message]))
  | .ok (.file log) => runLog o log

end Replay

end MarketFeed
