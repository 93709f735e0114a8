import MarketFeed.Output.Csv
import MarketFeed.Output.EventLog
import MarketFeed.Files

/-!
# The Outputs of a Run

The tables and the log of one run, either of which may be wanted or not.

The outputs are begun before the run and share its fate: they are completed
after a run that went through, and given up after one that did not. The
tables come first in both. If the log cannot be begun the tables are given
up, and if the tables cannot be completed the log is.

The folder of the outputs is made, with all around it, for the first output
that is wanted. For the second one it is there already.

## Main definitions

* `OutputPlan`: Which outputs are wanted.
* `OutputPlan.prepare`: Make their folder.
* `Outputs`: The outputs that have been begun.
* `Outputs.create`, `Outputs.finish`, `Outputs.abandon`: Their life.
* `Outputs.listener`: The listener that tells both.
* `Outputs.names`: The names in the folder that outputs use.
-/

namespace MarketFeed

/-- Which outputs of a run are wanted, and where. -/
structure OutputPlan where
  /-- The folder. -/
  path : String
  /-- Whether tables are wanted. -/
  csv : Bool := false
  /-- Whether a log is wanted. -/
  eventLog : Bool := false
  /-- The capture that the log is made from. -/
  source : String := ""
  /-- The kind of link of that capture. -/
  linkType : UInt32 := 0
  /-- When the log is made, in nanoseconds since 1970. -/
  created : Nat := 0
  deriving DecidableEq, Repr

/-- The outputs that have been begun. -/
structure Outputs where
  /-- The tables. -/
  csv : Option CsvTables := none
  /-- The log. -/
  log : Option EventLog := none
  deriving DecidableEq, Repr

/-- The output that could not be begun or completed. -/
inductive OutputKind
  /-- The tables. -/
  | csv
  /-- The log. -/
  | log
  deriving DecidableEq, Repr

namespace OutputPlan

/-- The path of the folder as the system is given it. -/
def folder (plan : OutputPlan) : String := Path.trim plan.path

/-- The first output that is wanted. -/
def first (plan : OutputPlan) : Option OutputKind :=
  if plan.csv then some .csv else if plan.eventLog then some .log else none

/-- Make the folder of the outputs, if there are to be any. -/
def prepare (plan : OutputPlan) (files : Files) :
    Except (OutputKind × OutputError) Unit × Files :=
  match plan.first with
  | none => (.ok (), files)
  | some kind =>
    match files.makeFolders plan.folder with
    | (.error fault, files) => (.error (kind, .create plan.folder fault), files)
    | (.ok (), files) => (.ok (), files)

end OutputPlan

namespace Outputs

/-- The names under which outputs stand in the folder, when they are complete
    and until then. -/
def names : List String :=
  (CsvTable.all.map CsvTable.fileName ++ [EventLog.fileName]).flatMap fun name =>
    [name, Folder.staging name]

/-- Tell both outputs a message, the tables first. -/
def hear (e : Envelope) (m : Message) (o : Outputs) : Outputs :=
  let both := Listener.pair (.optional CsvTables.listener) (.optional EventLog.listener)
  let (csv, log) := both e m (o.csv, o.log)
  { csv, log }

/-- The listener that tells both outputs. -/
def listener : Listener Outputs := hear

/-- Give up the outputs. -/
def abandon (o : Outputs) (f : Folder) : Folder :=
  let f := match o.csv with
    | some _ => CsvTables.abandon f
    | none => f
  match o.log with
  | some log => log.abandon f
  | none => f

/-- Begin the tables, if they are wanted. -/
def createCsv (plan : OutputPlan) (f : Folder) : Except OutputError (Option CsvTables) × Folder :=
  if plan.csv then
    match CsvTables.create plan.path f with
    | (.ok csv, f) => (.ok (some csv), f)
    | (.error e, f) => (.error e, f)
  else (.ok none, f)

/-- Begin the log, if it is wanted. -/
def createLog (plan : OutputPlan) (f : Folder) : Except OutputError (Option EventLog) × Folder :=
  if plan.eventLog then
    match EventLog.create plan.path EventLog.fileName plan.source plan.linkType plan.created f with
    | (.ok log, f) => (.ok (some log), f)
    | (.error e, f) => (.error e, f)
  else (.ok none, f)

/-- Begin the outputs that are wanted. -/
def create (plan : OutputPlan) (f : Folder) :
    Except (OutputKind × OutputError) Outputs × Folder :=
  match createCsv plan f with
  | (.error e, f) => (.error (.csv, e), f)
  | (.ok csv, f) =>
    match createLog plan f with
    | (.error e, f) => (.error (.log, e), abandon { csv } f)
    | (.ok log, f) => (.ok { csv, log }, f)

/-- Complete the tables, if there are any. Gives the number of their rows. -/
def finishCsv (path : String) (o : Outputs) (f : Folder) :
    Except OutputError (Option Nat) × Folder :=
  match o.csv with
  | none => (.ok none, f)
  | some csv =>
    match csv.finish path f with
    | (.ok rows, f) => (.ok (some rows), f)
    | (.error e, f) => (.error e, f)

/-- Complete the log, if there is one. Gives the number of its records. -/
def finishLog (path : String) (o : Outputs) (f : Folder) :
    Except OutputError (Option Nat) × Folder :=
  match o.log with
  | none => (.ok none, f)
  | some log =>
    match log.finish path f with
    | (.ok records, f) => (.ok (some records), f)
    | (.error e, f) => (.error e, f)

/-- Complete the outputs. Gives the numbers of rows and of records. -/
def finish (path : String) (o : Outputs) (f : Folder) :
    Except (OutputKind × OutputError) (Option Nat × Option Nat) × Folder :=
  match o.finishCsv path f with
  | (.error e, f) => (.error (.csv, e), abandon { log := o.log } f)
  | (.ok rows, f) =>
    match o.finishLog path f with
    | (.error e, f) => (.error (.log, e), f)
    | (.ok records, f) => (.ok (rows, records), f)

end Outputs

end MarketFeed
