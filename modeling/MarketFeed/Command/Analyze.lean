import MarketFeed.Command.Arguments
import MarketFeed.Command.Failure
import MarketFeed.Session.Run
import MarketFeed.Output.Outputs
import MarketFeed.Books
import MarketFeed.Book.Table

/-!
# Analyzing a Capture

The command that decodes a capture, writes the outputs that are wanted, and
prints what it found.

The capture is opened before anything is written, and the outputs are begun
before anything is decoded. Whatever fails ends the command; nothing is
printed unless everything went through. The settings for the command's own
journal are accepted and have no bearing on the result.

## Main definitions

* `AnalyzeOptions`, `AnalyzeOptions.parse`: What the command is told.
* `Analysis`: What the command found.
* `Analyze.execute`: The command.
* `Analysis.text?`: What the command prints.

## Theorems

* `execute_unopened`: Without a capture nothing is written.
-/

namespace MarketFeed

/-- What the command is told. -/
structure AnalyzeOptions where
  /-- The capture file. -/
  file : String
  /-- The folder of the outputs. -/
  outDir : String := "out"
  /-- Whether tables are wanted. -/
  csv : Bool := false
  /-- Whether a log is wanted. -/
  eventLog : Bool := false
  /-- How much to read at a time, in units of 2 ^ 20 octets. -/
  chunkMiB : Nat := 16
  /-- The bound on the queue, if there is one. -/
  queueCapacity : Option Nat := none
  /-- How many microseconds to sleep between two looks at the queue. -/
  pollMicros : Nat := 1000
  /-- Whether to wait at the queue instead. -/
  blocking : Bool := false
  /-- How many levels of each side to print. -/
  bookDepth : Nat := 5
  deriving DecidableEq, Repr

namespace AnalyzeOptions

/-- The options that the command knows. -/
def specs : List OptionSpec :=
  [{ name := "file", letter := some 'f' }, { name := "out-dir" },
    { name := "csv", takesValue := false }, { name := "event-log", takesValue := false },
    { name := "chunk-mb" }, { name := "queue-capacity" }, { name := "poll-interval-us" },
    { name := "blocking", takesValue := false }, { name := "book-depth" },
    { name := "log-level" }, { name := "json-logs", takesValue := false }]

/-- What the arguments tell the command. -/
def parse (arguments : List String) : Except UsageError AnalyzeOptions := do
  let given ← Arguments.parse specs arguments
  let file ← Arguments.requiredPath given "file"
  let outDir ← Arguments.pathOr given "out-dir" "out"
  let chunkMiB ← Arguments.naturalOr given "chunk-mb" 16
  let queueCapacity ← Arguments.natural? given "queue-capacity"
  let pollMicros ← Arguments.naturalOr given "poll-interval-us" 1000
  let bookDepth ← Arguments.naturalOr given "book-depth" 5
  return { file
           outDir
           csv := Arguments.has given "csv"
           eventLog := Arguments.has given "event-log"
           chunkMiB
           queueCapacity
           pollMicros
           blocking := Arguments.has given "blocking"
           bookDepth }

/-- The settings of the run. A chunk larger than 64 bits can count is cut to
    what they can. -/
def config (o : AnalyzeOptions) : Config :=
  let poll := if o.blocking then .blocking else .ofMicros o.pollMicros
  (({} : Config).withChunkSize (min (o.chunkMiB * 1048576) (UInt64.size - 1)))
    |>.withQueueCapacity o.queueCapacity
    |>.withPoll poll

end AnalyzeOptions

/-- What the command found. -/
structure Analysis where
  /-- The counts of the run. -/
  report : RunReport
  /-- The books at the end. -/
  books : Books

namespace Analysis

/-- The lines on one book. -/
def bookText (depth : Nat) (security : Int32) (book : Book) : String :=
  "security " ++ toString security.toInt ++ " (" ++ toString book.orderCount ++
    " orders, rpt_seq " ++ toString book.lastRptSeq.toNat ++ ") | top" ++ toString depth ++
    " bids / asks:\n" ++ book.table depth ++ "---\n"

/-- What the command prints: the counts with the time the run took, and then
    every book. -/
def text? (a : Analysis) (depth : Nat) (elapsed : String) : Option String :=
  (a.report.text? elapsed).map fun report =>
    report ++ "\n" ++
      String.join (a.books.entries.map fun (security, book) => bookText depth security book)

end Analysis

namespace Analyze

/-- The outputs that the command is told to write. -/
def plan (o : AnalyzeOptions) (linkType : UInt32) (created : Nat) : OutputPlan where
  path := o.outDir
  csv := o.csv
  eventLog := o.eventLog
  source := o.file
  linkType
  created

/-- The failure of an output that could not be begun. -/
def createFailure : OutputKind × OutputError → Failure
  | (.csv, e) => .within "create CSV outputs" e.chain
  | (.log, e) => .ofChain e.chain

/-- The failure of an output that could not be completed. -/
def finishFailure : OutputKind × OutputError → Failure
  | (.csv, e) => .within "finish CSV outputs" e.chain
  | (.log, e) => .within "finish event log" e.chain

/-- Decode an open capture into outputs that have been begun, and complete or
    give up the outputs. -/
def decode (o : AnalyzeOptions) (buffer : Buffer) (outputs : Outputs) (f : Folder) :
    Except Failure Analysis × Folder :=
  let listen := Listener.pair Outputs.listener Books.listener
  match Run.execute o.config listen buffer (outputs, Books.empty) with
  | .error e => (.error (.within ("process " ++ Text.quoted o.file) e.chain), outputs.abandon f)
  | .ok ((outputs, books), report) =>
    match outputs.finish o.outDir f with
    | (.error e, f) => (.error (finishFailure e), f)
    | (.ok _, f) => (.ok { report, books }, f)

/-- Decode an open capture into the outputs of a plan. -/
def decodeInto (o : AnalyzeOptions) (buffer : Buffer) (plan : OutputPlan) (f : Folder) :
    Except Failure Analysis × Folder :=
  match Outputs.create plan f with
  | (.error e, f) => (.error (createFailure e), f)
  | (.ok outputs, f) => decode o buffer outputs f

/-- The command. It is given the time and the file system, and gives the file
    system back. -/
def execute (o : AnalyzeOptions) (created : Nat) (files : Files) :
    Except Failure Analysis × Files :=
  match Run.open? o.file (files.find o.file) o.config with
  | .error e => (.error (.within ("open capture " ++ Text.quoted o.file) e.chain), files)
  | .ok buffer =>
    let plan := plan o buffer.header.linkType created
    match plan.prepare files with
    | (.error e, files) => (.error (createFailure e), files)
    | (.ok (), files) => files.onFolder plan.folder (decodeInto o buffer plan)

/-- A capture that cannot be opened leaves everything as it is, whatever is the
    matter with it. -/
theorem execute_unopened {o : AnalyzeOptions} {files : Files} {e : CaptureError}
    (h : Run.open? o.file (files.find o.file) o.config = .error e) (created : Nat) :
    (execute o created files).2 = files := by
  rw [execute, h]

end Analyze

end MarketFeed
