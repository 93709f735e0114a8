import MarketFeed.Output.Staging
import MarketFeed.Message
import MarketFeed.Price
import MarketFeed.Clock.Instant
import MarketFeed.Text.Utf8

/-!
# Messages as Tables

Three tables of comma-separated columns, one for each kind of message.

An update and an execution are a row each. A snapshot is a row for each of
its levels, the bids first and then the offers, and the levels of either side
are counted from zero. Every row opens with the number and the time of the
datagram. Rows are written one by one, each to its table, and counted as they
are.

A row is the list of its columns. No column holds a comma or a line break:
they are numbers, names of actions and sides, and times.

The three files are begun together and take their final names together, in a
fixed order. If one cannot, those before it have done so and the others keep
their staging names.

## Main definitions

* `CsvTables`: The rows of the three tables.
* `CsvTables.record`: One more row of a table.
* `CsvTables.listener`: The listener that adds the rows of each message.
* `CsvTables.text`: A table with its heading.
* `CsvTables.create`, `CsvTables.finish`, `CsvTables.abandon`: The life of
  the three files.

## Theorems

* `rows_record`, `rowsOf_record`: A row is counted, and it is written behind
  the others of its table.
-/

namespace MarketFeed

/-- The tables that messages are written to. -/
inductive CsvTable
  /-- The changes to orders. -/
  | updates
  /-- The trades. -/
  | executions
  /-- The levels of the snapshots. -/
  | snapshots
  deriving DecidableEq, Repr

namespace CsvTable

/-- The name of the table's file. -/
def fileName : CsvTable → String
  | .updates => "order_updates.csv"
  | .executions => "order_executions.csv"
  | .snapshots => "order_book_snapshots.csv"

/-- The headings of the columns. -/
def columns : CsvTable → List String
  | .updates =>
    ["sequence_number", "sending_time", "security_id", "rpt_seq", "order_id", "action", "side",
      "price", "volume", "md_flags_set", "md_flags_set2"]
  | .executions =>
    ["sequence_number", "sending_time", "security_id", "rpt_seq", "order_id", "action", "side",
      "price", "remaining_quantity", "trade_price", "trade_volume", "trader_id"]
  | .snapshots =>
    ["sequence_number", "sending_time", "security_id", "rpt_seq", "last_msg_seq_num_processed",
      "side", "level", "order_id", "price", "volume", "trade_id"]

/-- The tables in the order in which their files are begun and completed. -/
def all : List CsvTable := [.updates, .executions, .snapshots]

end CsvTable

namespace Csv

/-- An unsigned number of 32 bits. -/
def u32 (n : UInt32) : String := toString n.toNat

/-- An unsigned number of 64 bits. -/
def u64 (n : UInt64) : String := toString n.toNat

/-- A signed number of 32 bits. -/
def i32 (n : Int32) : String := toString n.toInt

/-- A signed number of 64 bits. -/
def i64 (n : Int64) : String := toString n.toInt

/-- The columns that open every row. -/
def stamp (e : Envelope) : List String := [u32 e.sequenceNumber, Instant.text e.sendingTime]

/-- The row of a change to an order. -/
def updateRow (e : Envelope) (u : OrderUpdate) : List String :=
  stamp e ++
    [i32 u.securityId, u32 u.rptSeq, i64 u.orderId, u.action.text, u.side.text,
      Price.text u.orderPrice, i64 u.orderVolume, u64 u.flags, u64 u.flags2]

/-- The row of a trade. -/
def executionRow (e : Envelope) (x : OrderExecution) : List String :=
  stamp e ++
    [i32 x.securityId, u32 x.rptSeq, i64 x.orderId, x.action.text, x.side.text,
      Price.text x.orderPrice, i64 x.remainingQuantity, Price.text x.tradePrice,
      i64 x.tradeVolume, i64 x.traderId]

/-- The row of one level of a snapshot. -/
def levelRow (e : Envelope) (h : SnapshotHeader) (level : Nat) (entry : BookEntry) :
    List String :=
  stamp e ++
    [i32 h.securityId, u32 h.rptSeq, u32 h.lastMsgSeqNumProcessed, entry.side.text,
      toString level, i64 entry.orderId, Price.text entry.orderPrice, i64 entry.orderVolume,
      i64 entry.tradeId]

/-- The rows of one side of a snapshot. -/
def sideRows (e : Envelope) (h : SnapshotHeader) (side : List BookEntry) : List (List String) :=
  side.mapIdx (levelRow e h)

/-- The rows of a snapshot: the bids, then the offers. -/
def snapshotRows (e : Envelope) (s : Snapshot) : List (List String) :=
  sideRows e s.header s.bidEntries ++ sideRows e s.header s.askEntries

/-- The columns of a row with commas between them. -/
def rowText (row : List String) : String := ",".intercalate row

end Csv

/-- The rows written so far, and their count. -/
structure CsvTables where
  /-- The rows of the changes to orders. -/
  updates : Array (List String) := #[]
  /-- The rows of the trades. -/
  executions : Array (List String) := #[]
  /-- The rows of the snapshots' levels. -/
  snapshots : Array (List String) := #[]
  /-- How many rows have been written to any table. -/
  rows : Nat := 0
  deriving DecidableEq, Repr

namespace CsvTables

/-- The rows of one table. -/
def rowsOf (t : CsvTables) : CsvTable → Array (List String)
  | .updates => t.updates
  | .executions => t.executions
  | .snapshots => t.snapshots

/-- Add a row to a table. -/
def record (table : CsvTable) (row : List String) (t : CsvTables) : CsvTables :=
  match table with
  | .updates => { t with updates := t.updates.push row, rows := t.rows + 1 }
  | .executions => { t with executions := t.executions.push row, rows := t.rows + 1 }
  | .snapshots => { t with snapshots := t.snapshots.push row, rows := t.rows + 1 }

/-- Add the rows of a message. -/
def hear (e : Envelope) (m : Message) (t : CsvTables) : CsvTables :=
  match m with
  | .update u => t.record .updates (Csv.updateRow e u)
  | .execution x => t.record .executions (Csv.executionRow e x)
  | .snapshot s => (Csv.snapshotRows e s).foldl (fun t row => t.record .snapshots row) t

/-- The listener that adds the rows of each message. -/
def listener : Listener CsvTables := hear

/-- The text of a table: its heading and its rows, a line each. -/
def text (t : CsvTables) (table : CsvTable) : String :=
  Text.lines ((table.columns :: (t.rowsOf table).toList).map Csv.rowText)

/-- Begin the three files. The first that cannot be begun ends this, and
    those before it stay as they are, without content. -/
def create (path : String) : Storing CsvTables :=
  (Folder.stage path CsvTable.updates.fileName).andThen fun _ =>
    (Folder.stage path CsvTable.executions.fileName).andThen fun _ =>
      (Folder.stage path CsvTable.snapshots.fileName).andThen fun _ => .done {}

/-- Write all rows under the staging names. -/
def flush (t : CsvTables) (f : Folder) : Folder :=
  CsvTable.all.foldl
    (fun f table => f.fill table.fileName (Utf8.encode (t.text table).toList)) f

/-- Write all rows, and let the files take their final names one after the
    other. Gives the number of rows. -/
def finish (path : String) (t : CsvTables) : Storing Nat := fun f =>
  ((Folder.commit path CsvTable.updates.fileName).andThen fun _ =>
    (Folder.commit path CsvTable.executions.fileName).andThen fun _ =>
      (Folder.commit path CsvTable.snapshots.fileName).andThen fun _ => .done t.rows) (t.flush f)

/-- Give up the three files. -/
def abandon (f : Folder) : Folder :=
  CsvTable.all.foldl (fun f table => f.discard table.fileName) f

/-- A row of any table counts once. -/
theorem rows_record (table : CsvTable) (row : List String) (t : CsvTables) :
    (t.record table row).rows = t.rows + 1 := by
  cases table <;> rfl

/-- A row goes behind the rows of its own table. -/
theorem rowsOf_record (table other : CsvTable) (row : List String) (t : CsvTables) :
    (t.record table row).rowsOf other
      = if other = table then (t.rowsOf other).push row else t.rowsOf other := by
  cases table <;> cases other <;> rfl

end CsvTables

end MarketFeed
