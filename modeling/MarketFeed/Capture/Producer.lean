import MarketFeed.Capture.File
import MarketFeed.Capture.Batch

/-!
# Reading a Capture in Chunks

From an open file to batches of whole records.

The file is read in chunks of a fixed size. The complete records at the front
of a chunk become one batch, and the offset moves behind them; a record that
the chunk cuts off is read again as the first of the next. A chunk without a
complete record ends the reading. If the file has more than the chunk, the
record in front is longer than any chunk will be, which is an error. If the
chunk holds all that is left, that is the tail of a capture that was cut off,
and its length is noted.

Moving the offset could only fail in a file of more octets than 64 bits can
count. The reading would then fail with it.

A request to stop is looked at once for each chunk, before it is read. The
counts take a batch in as soon as it is read, before it is known whether the
batch can be handed over.

## Main definitions

* `CaptureStats`: What has been read so far.
* `Producer`: The file with the counts and the next packet's number.
* `Producer.read`: Read one chunk.

## Theorems

* `read_of_remaining_zero`: At the end of the file the reading is over.
-/

namespace MarketFeed

/-- What has been read of a capture. -/
structure CaptureStats where
  /-- How many chunks were read. -/
  chunks : Nat := 0
  /-- How many batches they gave. -/
  batches : Nat := 0
  /-- How many packets there were. -/
  packets : Nat := 0
  /-- How many octets their records took. -/
  bytesConsumed : Nat := 0
  /-- How many octets of a record that was cut off the file ends with. -/
  truncatedTailBytes : Nat := 0
  /-- Whether the reading was stopped before the end of the file. -/
  stoppedEarly : Bool := false
  deriving DecidableEq, Repr

/-- How the reading of a capture ended. -/
abbrev CaptureOutcome := Except CaptureError CaptureStats

/-- A capture that is being read. -/
structure Producer where
  /-- The file, its offset behind the last record that was used. -/
  file : CaptureFile
  /-- How many octets are read at a time. -/
  chunkSize : Nat
  /-- The number of the next packet. -/
  next : UInt64 := 1
  /-- What has been read so far. -/
  stats : CaptureStats := {}

/-- The batch of these records, their packets numbered from `first` on. -/
def Batch.ofRecords (resolution : Resolution) (first : UInt64) (records : Array Record) : Batch :=
  records.foldl
    (fun batch r =>
      batch.push (r.header.timestamp resolution) r.header.originalLength r.data)
    { first }

namespace Producer

/-- What one chunk leads to. -/
inductive Move
  /-- There is a batch to hand over, and more to read. -/
  | publish (batch : Batch) (rest : Producer)
  /-- The reading is over. -/
  | finish (outcome : CaptureOutcome)

/-- The counts of a reading that was stopped. -/
def stopped (p : Producer) : CaptureStats := { p.stats with stoppedEarly := true }

/-- The error of a record in front of a chunk that has no room for it. -/
def tooLarge (p : Producer) (chunk : Bytes) : CaptureError :=
  let declared := (RecordHeader.read? p.file.header.byteOrder chunk).map (·.capturedLength)
  .recordTooLarge p.file.offset (declared.getD 0) p.chunkSize

/-- The batch of the records in front of a chunk, and the producer behind
    them. -/
def publish (p : Producer) (records : Array Record) (stats : CaptureStats) : Move :=
  let header := p.file.header
  let used := records.foldl (fun total record => total + record.size) 0
  match p.file.consume? (UInt64.ofNat used) with
  | none => .finish (.error .readingFailed)
  | some file =>
    .publish (Batch.ofRecords header.resolution p.next records)
      { p with
        file
        next := p.next + UInt64.ofNat records.size
        stats :=
          { stats with
            batches := stats.batches + 1
            packets := stats.packets + records.size
            bytesConsumed := stats.bytesConsumed + used } }

/-- Read one chunk, unless the file is at its end or a stop is asked for. -/
def read (stop : Bool) (p : Producer) : Move :=
  let remaining := p.file.remaining
  if remaining = 0 then .finish (.ok p.stats)
  else if stop then .finish (.ok p.stopped)
  else
    let wanted := min remaining p.chunkSize
    match p.file.readChunk wanted with
    | .error e => .finish (.error e)
    | .ok chunk =>
      let stats := { p.stats with chunks := p.stats.chunks + 1 }
      let (records, _) := Record.gather p.file.header.byteOrder chunk #[]
      if records.isEmpty then
        if wanted < remaining then .finish (.error (p.tooLarge chunk))
        else .finish (.ok { stats with truncatedTailBytes := remaining })
      else p.publish records stats

/-- At the end of the file the reading is over, also for one that should
    stop. -/
theorem read_of_remaining_zero (stop : Bool) {p : Producer} (h : p.file.remaining = 0) :
    p.read stop = .finish (.ok p.stats) := by
  simp [read, h]

end Producer

end MarketFeed
