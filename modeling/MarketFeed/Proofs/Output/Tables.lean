import Mathlib.Data.List.Forall2
import MarketFeed.Proofs.Datagram.Listening
import MarketFeed.Proofs.Output.Completion
import MarketFeed.Proofs.Output.Rows
import MarketFeed.Proofs.Snapshot.LastEntries

/-!
# What Finished Tables Hold

The files of the tables after any messages, as a reader finds them.

A message is a list of lines, and a line goes to one table. So whatever
messages come in whatever order, each table has the rows of its own lines in
the order in which the messages were told, and nothing of a line is in another
table. Every line is counted once when it is written, whichever table it goes
to, and so the count is the number of rows in the three files together.

The lines of a snapshot carry the place of their entry on its side. A snapshot
that was built from entries has the best price of a side at place zero.

Other things may happen in the folder between the beginning of the tables and
their completion. The files that are being written are left alone, and what
happens to others is of no concern, unless it makes the system refuse one of the
tables its final name. Then there is an error instead of a number.

## Main definitions

* `Folder.Bystander`: Something that happens beside files being written.
* `CsvTables.recordAll`: The rows of lines, written one after the other.
* `CsvTables.linesOf`: What the rows of a table are about.
* `CsvTables.write`: The life of the tables, from beginning to completion.
* `Folder.HoldsTable`: A folder holds the file of a table with these rows.

## Theorems

* `hear_eq_recordAll`, `replay_eq_recordAll`: Messages are their lines.
* `rowsOf_recordAll`, `rows_recordAll`: What is written of lines, and counted.
* `create_cases`, `finish_cases`: The tables go through, or a file is refused.
* `tables_show_messages`: Finished tables show the messages that were told.
-/

namespace MarketFeed

open Csv

/-! ## Refused files -/

namespace Folder

variable {α : Type} {path : String} {f f' : Folder} {e : OutputError}

/-- Creating fails because of a file that cannot be staged. -/
theorem Begins.exists_unstageable {names : List String}
    (h : Begins path names f ((.error e : Except OutputError α), f')) :
    ∃ name ∈ names, Unstageable path f name := by
  obtain ⟨begun, left, rfl, -, hstops⟩ := h
  cases left with
  | nil => exact hstops.ended.elim
  | cons name rest =>
      exact ⟨name, List.mem_append_right begun List.mem_cons_self, hstops.ended⟩

/-- Finishing fails because of a file that cannot take its name. -/
theorem Completes.exists_uncommittable {files : List (String × Bytes)}
    (h : Completes path files f ((.error e : Except OutputError α), f')) :
    ∃ file ∈ files, Uncommittable path f file.1 := by
  obtain ⟨done, left, rfl, -, hstops⟩ := h
  cases left with
  | nil => exact hstops.ended.elim
  | cons file rest => exact ⟨file, List.mem_append_right done List.mem_cons_self, hstops.ended⟩

/-- Something that happens in a folder while these files are being written. It
    may concern any name but those under which they are. -/
structure Bystander (names : List String) where
  /-- What happens. -/
  act : Folder → Folder
  /-- The files that are being written stay what they are. -/
  leaves : ∀ f, ∀ name ∈ names, (act f).lookup? (staging name) = f.lookup? (staging name)

/-- The folder holds the file of a table. It is read as the heading and these
    rows, which have a column for each heading and no column in pieces. -/
structure HoldsTable (f : Folder) (table : CsvTable) (rows : List (List String)) : Prop where
  read : ∃ content, f.lookup? table.fileName = some (.file content) ∧
    Csv.read? content = some (table.columns :: rows)
  complete : ∀ row ∈ rows, row.length = table.columns.length
  unbroken : ∀ row ∈ rows, ∀ column ∈ row, Unbroken column

end Folder

namespace Snapshot

/-- Either side of the snapshot is in the order of its prices, the best first. -/
def BestFirst (s : Snapshot) : Prop :=
  s.bidEntries.Pairwise (fun first next => next.orderPrice < first.orderPrice) ∧
    s.askEntries.Pairwise fun first next => first.orderPrice < next.orderPrice

/-- A sound snapshot has the best entries in front. -/
theorem Sound.bestFirst {s : Snapshot} (h : s.Sound) : s.BestFirst :=
  ⟨h.bids.pairwise_values.imp of_decide_eq_true, h.asks.pairwise_values.imp of_decide_eq_true⟩

end Snapshot

namespace CsvTables

open Folder

variable {path : String} {t : CsvTables} {f : Folder}

/-! ## Lines -/

/-- Write the rows of lines, each to its table. -/
def recordAll (lines : List Line) (t : CsvTables) : CsvTables :=
  lines.foldl (fun t line => t.record line.table line.row) t

/-- The lines of messages that were told, as far as they belong to a table. -/
def linesOf (table : CsvTable) (told : List (Envelope × Message)) : List Line :=
  (told.flatMap fun one => Line.ofMessage one.1 one.2).filter (·.table = table)

/-- A snapshot has one row for each of its entries. -/
theorem snapshotRows_eq_map (e : Envelope) (s : Snapshot) :
    snapshotRows e s = (Line.ofMessage e (.snapshot s)).map Line.row := by
  have hside : ∀ side : List BookEntry, sideRows e s.header side
      = side.zipIdx.map fun place => (Line.level e s.header place.2 place.1).row :=
    fun side => List.mapIdx_eq_zipIdx_map
  rw [snapshotRows, hside, hside, ← List.map_append, Line.ofMessage, List.map_map]
  rfl

/-- The rows of a snapshot all go to one table. -/
theorem table_of_mem_ofMessage_snapshot {e : Envelope} {s : Snapshot} {line : Line}
    (h : line ∈ Line.ofMessage e (.snapshot s)) : line.table = .snapshots := by
  obtain ⟨place, -, rfl⟩ := List.mem_map.mp h
  rfl

theorem hear_eq_recordAll (e : Envelope) (m : Message) (t : CsvTables) :
    t.hear e m = recordAll (Line.ofMessage e m) t := by
  cases m with
  | update u => rfl
  | execution x => rfl
  | snapshot s =>
      rw [hear, snapshotRows_eq_map, List.foldl_map, recordAll]
      refine List.foldl_ext _ _ _ fun t line hline => ?_
      rw [table_of_mem_ofMessage_snapshot hline]

/-- Hearing messages is recording the lines of all of them. -/
theorem replay_eq_recordAll (told : List (Envelope × Message)) (t : CsvTables) :
    listener.replay told t = recordAll (told.flatMap fun one => Line.ofMessage one.1 one.2) t := by
  induction told generalizing t with
  | nil => rfl
  | cons one rest ih =>
      rw [List.flatMap_cons, recordAll, List.foldl_append, ← recordAll, ← recordAll,
        ← hear_eq_recordAll, ← ih]
      rfl

/-- Of the lines each table gets its own, in order. -/
theorem rowsOf_recordAll (lines : List Line) (table : CsvTable) (t : CsvTables) :
    ((recordAll lines t).rowsOf table).toList
      = (t.rowsOf table).toList ++ (lines.filter (·.table = table)).map Line.row := by
  induction lines generalizing t with
  | nil => exact (List.append_nil _).symm
  | cons line rest ih =>
      rw [recordAll, List.foldl_cons, ← recordAll, ih, rowsOf_record, List.filter_cons]
      by_cases htable : line.table = table
      · rw [if_pos htable.symm, if_pos (decide_eq_true htable), List.map_cons,
          Array.toList_push, List.append_assoc, List.singleton_append]
      · rw [if_neg fun heq => htable heq.symm, if_neg fun heq => htable (of_decide_eq_true heq)]

theorem rows_recordAll (lines : List Line) (t : CsvTables) :
    (recordAll lines t).rows = t.rows + lines.length := by
  induction lines generalizing t with
  | nil => rfl
  | cons line rest ih =>
      rw [recordAll, List.foldl_cons, ← recordAll, ih, rows_record, List.length_cons]
      omega

/-- Every line belongs to one table. -/
theorem length_eq_sum_tables (lines : List Line) :
    lines.length = (lines.filter (·.table = .updates)).length
      + (lines.filter (·.table = .executions)).length
      + (lines.filter (·.table = .snapshots)).length := by
  induction lines with
  | nil => rfl
  | cons line rest ih =>
      cases hline : line.table <;>
        simp only [List.filter_cons, hline, List.length_cons, ih, decide_true, decide_false,
          reduceCtorEq, if_true, Bool.false_eq_true, if_false] <;> omega

/-! ## Files -/

/-- The rows that the tables have of messages. -/
theorem rowsOf_replay (table : CsvTable) (told : List (Envelope × Message)) :
    ((listener.replay told {}).rowsOf table).toList = (linesOf table told).map Line.row := by
  rw [replay_eq_recordAll, rowsOf_recordAll]
  cases table <;> rfl

/-- The rows that are counted are those of the three tables. -/
theorem rows_replay (told : List (Envelope × Message)) :
    (listener.replay told {}).rows = (linesOf .updates told).length
      + (linesOf .executions told).length + (linesOf .snapshots told).length := by
  rw [replay_eq_recordAll, rows_recordAll]
  exact (Nat.zero_add _).trans (length_eq_sum_tables _)

/-- Creating the tables fails only if a file of theirs cannot be staged. -/
theorem create_cases (path : String) (f : Folder) :
    (∃ g, create path f = (.ok {}, g)) ∨
      ∃ e g, create path f = (.error e, g) ∧
        ∃ table : CsvTable, Unstageable path f table.fileName := by
  have hcreate : create path f
      = ((stageAll path names f).1.map fun _ => {}, (stageAll path names f).2) := by
    rw [create_eq, Storing.andThen_done]
  have hbegins := begins_stageAll path names f
  generalize stageAll path names f = outcome at hcreate hbegins
  obtain ⟨result, g⟩ := outcome
  cases result with
  | ok done => exact .inl ⟨g, hcreate⟩
  | error e =>
      obtain ⟨name, hname, hrefused⟩ := hbegins.exists_unstageable
      obtain ⟨table, -, rfl⟩ := List.mem_map.mp hname
      exact .inr ⟨e, g, hcreate, table, hrefused⟩

/-- Finishing the tables fails only if a file of theirs cannot take its name. -/
theorem finish_cases (path : String) (t : CsvTables) (f : Folder) :
    (∃ f', t.finish path f = (.ok t.rows, f') ∧ Completed f f' t.files []) ∨
      ∃ e f', t.finish path f = (.error e, f') ∧
        ∃ table : CsvTable, Uncommittable path f table.fileName := by
  have hfinish : t.finish path f
      = ((finishAll path t.files f).1.map fun _ => t.rows, (finishAll path t.files f).2) := by
    rw [finish_eq, Storing.andThen_done]
  have hcompletes := completes_finishAll path t.apart_files f
  generalize finishAll path t.files f = outcome at hfinish hcompletes
  obtain ⟨result, f'⟩ := outcome
  cases result with
  | ok done => exact .inl ⟨f', hfinish, hcompletes.of_ok⟩
  | error e =>
      obtain ⟨file, hfile, hrefused⟩ := hcompletes.exists_uncommittable
      obtain ⟨table, -, rfl⟩ := List.mem_map.mp hfile
      exact .inr ⟨e, f', hfinish, table, hrefused⟩

/-- A file that has its final name holds the rows of its table. -/
theorem holdsTable_of_completed {f' : Folder} {lines : CsvTable → List Line}
    (h : Completed f f' t.files [])
    (hrows : ∀ table, (t.rowsOf table).toList = (lines table).map Line.row)
    (htable : ∀ table, ∀ line ∈ lines table, line.table = table) (table : CsvTable) :
    HoldsTable f' table ((lines table).map Line.row) := by
  have hcomplete : ∀ row ∈ (lines table).map Line.row, row.length = table.columns.length := by
    intro row hrow
    obtain ⟨line, hline, rfl⟩ := List.mem_map.mp hrow
    rw [line.length_row, htable table line hline]
  have hunbroken : ∀ row ∈ (lines table).map Line.row, ∀ column ∈ row, Unbroken column := by
    intro row hrow
    obtain ⟨line, -, rfl⟩ := List.mem_map.mp hrow
    exact line.unbroken_row
  have hheading : 0 < table.columns.length ∧ ∀ column ∈ table.columns, Unbroken column := by
    cases table <;> decide
  have hplaced := h.placed (table.fileName, Utf8.encode (t.text table).toList)
    (List.mem_map.mpr ⟨table, by cases table <;> decide, rfl⟩)
  refine ⟨⟨_, hplaced, ?_⟩, hcomplete, hunbroken⟩
  rw [text, hrows table]
  refine read?_lines (List.forall_mem_cons.mpr ⟨?_, fun row hrow => ?_⟩)
    (List.forall_mem_cons.mpr ⟨hheading.2, hunbroken⟩)
  · exact List.ne_nil_of_length_pos hheading.1
  · exact List.ne_nil_of_length_pos (hcomplete row hrow ▸ hheading.1)

/-! ## From messages to files -/

/-- The life of tables. They are begun, hear messages while other things happen
    in the folder, and are completed. Gives the number of rows. -/
def write (path : String) (told : List (Envelope × Message)) (meanwhile : Bystander names) :
    Storing Nat :=
  (create path).andThen fun t f => (listener.replay told t).finish path (meanwhile.act f)

/-- Finished tables are read as rows that show the messages told, line by line
    and in their order, and their number is what is counted and given. They are
    finished unless the system refuses one of their files. -/
theorem tables_show_messages (path : String) (told : List (Envelope × Message))
    (meanwhile : Bystander names) (f : Folder) :
    (∃ (n : Nat) (f' : Folder) (rows : CsvTable → List (List String)),
        write path told meanwhile f = (.ok n, f') ∧
        (∀ table, HoldsTable f' table (rows table)) ∧
        (∀ table, List.Forall₂ Line.Shown (linesOf table told) (rows table)) ∧
        (∀ one ∈ told, ∀ s, one.2 = .snapshot s → s.Sound → s.BestFirst) ∧
        n = (rows .updates).length + (rows .executions).length + (rows .snapshots).length ∧
        (listener.replay told {}).rows = n) ∨
      ∃ e f', write path told meanwhile f = (.error e, f') ∧
        ∃ table : CsvTable, Unstageable path f table.fileName ∨
          Uncommittable path (meanwhile.act (create path f).2) table.fileName := by
  -- Writing fails where a file cannot be created or cannot be placed, and
  -- nowhere between.
  rcases create_cases path f with ⟨g, hcreate⟩ | ⟨e, g, hcreate, table, hrefused⟩
  · have hwrite : write path told meanwhile f
        = (listener.replay told {}).finish path (meanwhile.act g) := by
      rw [write, Storing.andThen, hcreate]
    rw [hwrite, hcreate]
    rcases finish_cases path (listener.replay told {}) (meanwhile.act g) with
      ⟨f', hfinish, hcompleted⟩ | ⟨e, f', hfinish, table, hrefused⟩
    · refine .inl ⟨_, f', fun table => (linesOf table told).map Line.row, hfinish,
        holdsTable_of_completed hcompleted (fun table => rowsOf_replay table told)
          (fun table line hline => of_decide_eq_true (List.mem_filter.mp hline).2),
        fun table => ?_, fun one _ s _ hsound => hsound.bestFirst, ?_, rfl⟩
      · exact List.forall₂_map_right_iff.mpr (List.forall₂_same.mpr fun line _ => line.shown_row)
      · simp only [List.length_map]
        exact rows_replay told
    · exact .inr ⟨e, f', hfinish, table, .inr hrefused⟩
  · refine .inr ⟨e, g, ?_, table, .inl hrefused⟩
    rw [write, Storing.andThen, hcreate]

/-- A snapshot whose bids came in the wrong order. -/
def strangeBook : Snapshot :=
  let entry (price : Int64) (side : Side) : BookEntry :=
    { orderId := 5, transactTime := 0, orderPrice := price, orderVolume := 1, tradeId := -1
      flags := 0, flags2 := 0, side }
  .ofEntries {} [entry 99 .bid, entry 101 .bid, entry 105 .offer]

/-- A change whose codes have no names, and a snapshot. -/
def strangeTold : List (Envelope × Message) :=
  [({ sequenceNumber := 7, sendingTime := 1696917600000449184 },
      .update
        { orderId := -3, orderPrice := Price.absent, orderVolume := 2, flags := 1, flags2 := 0
          securityId := -9, rptSeq := 4, action := .unknown 200, side := .unknown 0x5a }),
    ({ sequenceNumber := 8 }, .snapshot strangeBook)]

/-- An older file of changes comes into the folder. -/
def olderUpdates : Bystander names where
  act f := f.put CsvTable.updates.fileName (.file [1, 2, 3])
  leaves f name hname := by
    refine lookup?_put_of_ne (fun heq => ?_) _ f
    have hapart : ∀ name ∈ names, CsvTable.updates.fileName ≠ staging name := by decide
    exact hapart name hname heq

theorem tables_show_messages_strangeTold :
    ∃ (f' : Folder) (rows : CsvTable → List (List String)) (row : List String),
      write "out" strangeTold olderUpdates {} = (.ok 4, f') ∧
        (∀ table, HoldsTable f' table (rows table)) ∧
        rows .updates = [row] ∧ (rows .executions).length = 0 ∧ (rows .snapshots).length = 3 ∧
        strangeBook.BestFirst ∧
        Shows .updates row "action" Action.ofText? (.unknown 200) ∧
        Shows .updates row "side" Side.ofText? (.unknown 0x5a) := by
  have hdone : (write "out" strangeTold olderUpdates {}).1.isOk = true := by decide +kernel
  rcases tables_show_messages "out" strangeTold olderUpdates {} with
    ⟨n, f', rows, hwrite, hholds, hshown, hbest, -, hrows⟩ | ⟨e, f', hwrite, -⟩
  · obtain rfl : 4 = n := hrows
    obtain ⟨row, rest, hrow, hrest, hupdates⟩ := List.forall₂_cons_left_iff.mp (hshown .updates)
    rw [List.forall₂_nil_left_iff.mp hrest] at hupdates
    exact ⟨f', rows, row, hwrite, hholds, hupdates, (hshown .executions).length_eq.symm,
      (hshown .snapshots).length_eq.symm,
      hbest _ (.tail _ (.head _)) strangeBook rfl (Snapshot.sound_ofEntries _ _),
      hrow.action, hrow.side⟩
  · rw [hwrite] at hdone
    cases hdone

end CsvTables

end MarketFeed
