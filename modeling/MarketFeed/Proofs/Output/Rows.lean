import Mathlib.Data.List.Basic
import MarketFeed.Proofs.Output.Columns
import MarketFeed.Proofs.Text.Utf8

/-!
# Rows of a Table

What one row tells, and how the rows of a file are found again.

A reader of a table knows its headings. The column of a row under a heading is
read as a number, an action or a side, and what is read is the field of the
message that the heading names. Prices and times are shown as they are written
everywhere; they are not read back, since a price has been rounded.

A file is cut into lines and its lines are cut into columns. There is nothing
to tell a separator from a character of a column, so this gives the rows that
were written only because no column is broken by one. It is for the same reason
that a row cannot be taken for two.

## Main definitions

* `Csv.Line`: What one row is about.
* `Csv.Line.ofMessage`: The lines of a message.
* `Csv.Line.Shown`: A row shows what it is about.
* `Csv.read?`: The rows of a file.

## Theorems

* `Line.shown_row`: The row of a line shows it.
* `Line.length_row`, `Line.unbroken_row`: It has a column for each heading, and
  every column is in one piece.
* `read?_lines`: The rows of a file are those that were written.
-/

namespace MarketFeed

namespace Csv

/-! ## What a row shows -/

/-- The column of a row that stands under a heading. -/
def column? (table : CsvTable) (heading : String) (row : List String) : Option String :=
  (table.columns.zip row).lookup heading

/-- The column of a row under a heading is read as this value. -/
def Shows {α : Type} (table : CsvTable) (row : List String) (heading : String)
    (read? : String → Option α) (value : α) : Prop :=
  (column? table heading row).bind read? = some value

theorem shows_of_column {α : Type} {table : CsvTable} {row : List String} {heading column : String}
    {read? : String → Option α} {value : α} (hcolumn : column? table heading row = some column)
    (hread : read? column = some value) : Shows table row heading read? value := by
  rw [Shows, hcolumn, Option.bind_some, hread]

/-- The columns that open a row show the number and the time of the datagram. -/
structure ShowsStamp (table : CsvTable) (e : Envelope) (row : List String) : Prop where
  sequenceNumber : Shows table row "sequence_number" u32? e.sequenceNumber
  sendingTime : column? table "sending_time" row = some (Instant.text e.sendingTime)

/-- The row shows a change to an order. -/
structure ShowsUpdate (e : Envelope) (u : OrderUpdate) (row : List String) : Prop
    extends ShowsStamp .updates e row where
  securityId : Shows .updates row "security_id" i32? u.securityId
  rptSeq : Shows .updates row "rpt_seq" u32? u.rptSeq
  orderId : Shows .updates row "order_id" i64? u.orderId
  action : Shows .updates row "action" Action.ofText? u.action
  side : Shows .updates row "side" Side.ofText? u.side
  price : column? .updates "price" row = some (Price.text u.orderPrice)
  volume : Shows .updates row "volume" i64? u.orderVolume
  flags : Shows .updates row "md_flags_set" u64? u.flags
  flags2 : Shows .updates row "md_flags_set2" u64? u.flags2

/-- The row shows a trade. -/
structure ShowsExecution (e : Envelope) (x : OrderExecution) (row : List String) : Prop
    extends ShowsStamp .executions e row where
  securityId : Shows .executions row "security_id" i32? x.securityId
  rptSeq : Shows .executions row "rpt_seq" u32? x.rptSeq
  orderId : Shows .executions row "order_id" i64? x.orderId
  action : Shows .executions row "action" Action.ofText? x.action
  side : Shows .executions row "side" Side.ofText? x.side
  price : column? .executions "price" row = some (Price.text x.orderPrice)
  remainingQuantity : Shows .executions row "remaining_quantity" i64? x.remainingQuantity
  tradePrice : column? .executions "trade_price" row = some (Price.text x.tradePrice)
  tradeVolume : Shows .executions row "trade_volume" i64? x.tradeVolume
  traderId : Shows .executions row "trader_id" i64? x.traderId

/-- The row shows a level of a snapshot. -/
structure ShowsLevel (e : Envelope) (h : SnapshotHeader) (number : Nat) (entry : BookEntry)
    (row : List String) : Prop extends ShowsStamp .snapshots e row where
  securityId : Shows .snapshots row "security_id" i32? h.securityId
  rptSeq : Shows .snapshots row "rpt_seq" u32? h.rptSeq
  lastMsgSeqNumProcessed :
    Shows .snapshots row "last_msg_seq_num_processed" u32? h.lastMsgSeqNumProcessed
  side : Shows .snapshots row "side" Side.ofText? entry.side
  level : Shows .snapshots row "level" integer? number
  orderId : Shows .snapshots row "order_id" i64? entry.orderId
  price : column? .snapshots "price" row = some (Price.text entry.orderPrice)
  volume : Shows .snapshots row "volume" i64? entry.orderVolume
  tradeId : Shows .snapshots row "trade_id" i64? entry.tradeId

/-! ## What a row is about -/

/-- What a row is about. -/
inductive Line
  /-- A change to an order. -/
  | update (e : Envelope) (u : OrderUpdate)
  /-- A trade. -/
  | execution (e : Envelope) (x : OrderExecution)
  /-- A level of a snapshot with its number. -/
  | level (e : Envelope) (h : SnapshotHeader) (number : Nat) (entry : BookEntry)

namespace Line

/-- The lines of a message. A snapshot has one for each of its levels, the bids
    first, and either side is counted from zero. -/
def ofMessage (e : Envelope) : Message → List Line
  | .update u => [.update e u]
  | .execution x => [.execution e x]
  | .snapshot s =>
    (s.bidEntries.zipIdx ++ s.askEntries.zipIdx).map fun (entry, number) =>
      .level e s.header number entry

/-- The table that a line belongs to. -/
def table : Line → CsvTable
  | .update _ _ => .updates
  | .execution _ _ => .executions
  | .level _ _ _ _ => .snapshots

/-- The row that is written for a line. -/
def row : Line → List String
  | .update e u => updateRow e u
  | .execution e x => executionRow e x
  | .level e h number entry => levelRow e h number entry

/-- A row shows the line. -/
def Shown : Line → List String → Prop
  | .update e u => ShowsUpdate e u
  | .execution e x => ShowsExecution e x
  | .level e h number entry => ShowsLevel e h number entry

/-- A line can be read off its row. -/
theorem shown_row (line : Line) : line.Shown line.row := by
  -- Each column shows its own field, and is read back by the parser of its
  -- type.
  cases line with
  | update e u =>
      exact
        { sequenceNumber := shows_of_column rfl (u32?_u32 _)
          sendingTime := rfl
          securityId := shows_of_column rfl (i32?_i32 _)
          rptSeq := shows_of_column rfl (u32?_u32 _)
          orderId := shows_of_column rfl (i64?_i64 _)
          action := shows_of_column rfl (Action.ofText?_text _)
          side := shows_of_column rfl (Side.ofText?_text _)
          price := rfl
          volume := shows_of_column rfl (i64?_i64 _)
          flags := shows_of_column rfl (u64?_u64 _)
          flags2 := shows_of_column rfl (u64?_u64 _) }
  | execution e x =>
      exact
        { sequenceNumber := shows_of_column rfl (u32?_u32 _)
          sendingTime := rfl
          securityId := shows_of_column rfl (i32?_i32 _)
          rptSeq := shows_of_column rfl (u32?_u32 _)
          orderId := shows_of_column rfl (i64?_i64 _)
          action := shows_of_column rfl (Action.ofText?_text _)
          side := shows_of_column rfl (Side.ofText?_text _)
          price := rfl
          remainingQuantity := shows_of_column rfl (i64?_i64 _)
          tradePrice := rfl
          tradeVolume := shows_of_column rfl (i64?_i64 _)
          traderId := shows_of_column rfl (i64?_i64 _) }
  | level e h number entry =>
      exact
        { sequenceNumber := shows_of_column rfl (u32?_u32 _)
          sendingTime := rfl
          securityId := shows_of_column rfl (i32?_i32 _)
          rptSeq := shows_of_column rfl (u32?_u32 _)
          lastMsgSeqNumProcessed := shows_of_column rfl (u32?_u32 _)
          side := shows_of_column rfl (Side.ofText?_text _)
          level := shows_of_column rfl (integer?_natural _)
          orderId := shows_of_column rfl (i64?_i64 _)
          price := rfl
          volume := shows_of_column rfl (i64?_i64 _)
          tradeId := shows_of_column rfl (i64?_i64 _) }

theorem length_row (line : Line) : line.row.length = line.table.columns.length := by
  cases line <;>
    simp only [row, table, updateRow, executionRow, levelRow, stamp, CsvTable.columns,
      List.length_append, List.length_cons, List.length_nil]

/-- No column of a row has a break in it. -/
theorem unbroken_row (line : Line) : ∀ column ∈ line.row, Unbroken column := by
  cases line <;>
    simp only [row, updateRow, executionRow, levelRow, stamp, u32, u64, i32, i64, List.cons_append,
      List.nil_append, List.forall_mem_cons, unbroken_natural, unbroken_decimal, unbroken_instant,
      unbroken_price, unbroken_action, unbroken_side, List.not_mem_nil, false_imp_iff,
      implies_true, and_self]

end Line

/-! ## Cutting a file -/

/-- The lines of a text, each of which ends with a line feed. -/
def lines? (text : List Char) : Option (List (List Char)) :=
  let pieces := text.splitOn '\n'
  if pieces.getLast? = some [] then some pieces.dropLast else none

/-- The columns of a line. -/
def columns (line : List Char) : List String := (line.splitOn ',').map String.ofList

/-- The rows of a file. -/
def read? (content : Bytes) : Option (List (List String)) :=
  match Utf8.decode content with
  | .ok text => (lines? text).map (·.map columns)
  | .error _ => none

variable {rows : List (List String)} {row : List String}

/-- Lines that were written are read back. -/
theorem lines?_lines {texts : List String} (h : ∀ text ∈ texts, '\n' ∉ text.toList) :
    lines? (Text.lines texts).toList = some (texts.map String.toList) := by
  -- Behind the last line feed the text is cut once more, which leaves an empty
  -- piece.
  have hpieces : (Text.lines texts).toList.splitOn '\n' = texts.map String.toList ++ [[]] := by
    rw [Text.lines, String.toList_join]
    induction texts with
    | nil => rfl
    | cons text rest ih =>
        obtain ⟨htext, hrest⟩ := List.forall_mem_cons.mp h
        rw [List.map_cons, List.flatMap_cons, String.toList_append, List.append_assoc,
          List.map_cons, List.cons_append, ← ih hrest]
        exact List.splitOn_append_cons_self_of_not_mem htext _
  simp only [lines?, hpieces, List.getLast?_concat, if_true, List.dropLast_concat]

/-- Columns that were written are read back. -/
theorem columns_rowText (hne : row ≠ []) (h : ∀ column ∈ row, Unbroken column) :
    columns (rowText row).toList = row := by
  have hcommas : ∀ column ∈ row.map String.toList, ',' ∉ column := by
    intro column hcolumn hcomma
    obtain ⟨text, htext, rfl⟩ := List.mem_map.mp hcolumn
    exact h text htext ',' hcomma (by decide)
  have hcut : (rowText row).toList.splitOn ',' = row.map String.toList := by
    rw [rowText, String.toList_intercalate]
    exact List.splitOn_intercalate ',' hcommas (mt List.map_eq_nil_iff.mp hne)
  rw [columns, hcut, List.map_map]
  exact List.map_id'' (fun _ => String.ofList_toList) row

theorem lineFeed_not_mem_rowText (h : ∀ column ∈ row, Unbroken column) :
    '\n' ∉ (rowText row).toList := by
  have hfeed : ∀ column ∈ row, '\n' ∉ column.toList := fun column hcolumn hc =>
    h column hcolumn '\n' hc (by decide)
  clear h
  induction row with
  | nil => decide
  | cons column rest ih =>
      obtain ⟨hcolumn, hrest⟩ := List.forall_mem_cons.mp hfeed
      cases rest with
      | nil => rwa [rowText, String.intercalate_singleton]
      | cons next rest =>
          rw [rowText, String.intercalate_cons_cons, String.toList_append, String.toList_append,
            List.mem_append, List.mem_append]
          exact not_or.mpr ⟨not_or.mpr ⟨hcolumn, by decide⟩, ih hrest⟩

/-- Rows that were written are read back, column by column. -/
theorem read?_lines (hne : ∀ row ∈ rows, row ≠ [])
    (h : ∀ row ∈ rows, ∀ column ∈ row, Unbroken column) :
    read? (Utf8.encode (Text.lines (rows.map rowText)).toList) = some rows := by
  have hfeed : ∀ text ∈ rows.map rowText, '\n' ∉ text.toList := by
    intro text htext
    obtain ⟨row, hrow, rfl⟩ := List.mem_map.mp htext
    exact lineFeed_not_mem_rowText (h row hrow)
  simp only [read?, Utf8.decode_encode, lines?_lines hfeed, Option.map_some, List.map_map]
  refine congrArg some ((List.map_congr_left fun row hrow => ?_).trans (List.map_id rows))
  exact columns_rowText (hne row hrow) (h row hrow)

end Csv

end MarketFeed
