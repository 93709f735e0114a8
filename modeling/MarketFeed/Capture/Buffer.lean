import MarketFeed.Capture.Producer

/-!
# The Queue Between Reading and Decoding

A producer that reads ahead, and the queue that it fills.

Reading goes on beside the decoding, and the two meet in a queue of batches,
first in and first out. The queue may be bounded; then the producer waits
with its batch until there is room. Waiting is done in spells: when a spell
ends and there was still no room, the producer looks whether it was asked to
stop, gives up if so, and waits again if not.

The producer's side is a machine of single moves, so that every order in
which the two sides can act is a sequence of moves. A producer that has ended
first leaves its loop, then lets its running flag fall, then lets go of the
queue. These are three moves because the other side can look in between: one
kind of reader watches the flag, the other kind the queue itself.

A move that cannot be made leaves everything as it is. `Phase.work` bounds
how many moves the producer has left, whatever is taken out of the queue; a
spell of waiting that ends adds one.

## Main definitions

* `Phase`: How far the producer is.
* `Buffer`: The producer and the queue.
* `Buffer.produce`, `Buffer.expire`: The producer's moves.
* `Buffer.next?`: Take the oldest batch.
* `Buffer.settle`: Let the producer act until it must wait or is done.
* `Buffer.join`: Wait for the producer's outcome.
-/

namespace MarketFeed

/-- How far the producer of a buffer is. -/
inductive Phase
  /-- The file is open, and nothing has been read. -/
  | idle (file : CaptureFile)
  /-- About to read a chunk. -/
  | reading (producer : Producer)
  /-- A batch is to be handed over. -/
  | sending (batch : Batch) (producer : Producer)
  /-- A spell of waiting for room has ended without any. -/
  | rechecking (batch : Batch) (producer : Producer)
  /-- The reading is over, and the running flag is still up. -/
  | returned (outcome : CaptureOutcome)
  /-- The running flag is down, and the queue is still held. -/
  | resting (outcome : CaptureOutcome)
  /-- The queue has been let go: nothing will be added to it. -/
  | closed (outcome : CaptureOutcome)

namespace Phase

/-- Whether the running flag is up. -/
def running : Phase → Bool
  | .reading _ | .sending _ _ | .rechecking _ _ | .returned _ => true
  | .idle _ | .resting _ | .closed _ => false

/-- Whether the queue has been let go. -/
def isClosed : Phase → Bool
  | .closed _ => true
  | _ => false

/-- A bound on the moves that are left. A chunk that gives a batch takes at
    least a record's header off the file, which is worth more than the moves
    that the batch costs. -/
def work : Phase → Nat
  | .idle file => 2 * file.remaining + 4
  | .reading p => 2 * p.file.remaining + 4
  | .sending _ p => 2 * p.file.remaining + 5
  | .rechecking _ p => 2 * p.file.remaining + 6
  | .returned _ => 3
  | .resting _ => 2
  | .closed _ => 1

/-- How the reading ended, once it has. -/
def outcome? : Phase → Option CaptureOutcome
  | .returned o | .resting o | .closed o => some o
  | _ => none

end Phase

/-- A producer and the queue that it fills. -/
structure Buffer where
  /-- The header of the capture file. -/
  header : CaptureHeader
  /-- How many octets are read at a time. -/
  chunkSize : Nat
  /-- How many batches may wait, if there is a bound. -/
  capacity : Option Nat
  /-- How far the producer is. -/
  phase : Phase
  /-- The batches that wait, the oldest first. -/
  queue : List Batch := []
  /-- Whether a stop has been asked for. -/
  stopped : Bool := false
  /-- Whether the outcome has been collected. -/
  joined : Bool := false

namespace Buffer

/-- A buffer over an open file. A chunk holds at least a record's header, and
    a bounded queue at least one batch. -/
def ofFile (file : CaptureFile) (chunkSize : Nat) (capacity : Option Nat) : Buffer where
  header := file.header
  chunkSize := max chunkSize RecordHeader.length
  capacity := capacity.map (max · 1)
  phase := .idle file

/-- Whether another batch may wait. -/
def hasRoom (b : Buffer) : Bool := b.capacity.all (b.queue.length < ·)

/-- Whether the producer has been started and has not yet ended. -/
def isRunning (b : Buffer) : Bool := b.phase.running

/-- How many batches wait. -/
def pending (b : Buffer) : Nat := b.queue.length

/-- Ask the producer to stop. -/
def stop (b : Buffer) : Buffer := { b with stopped := true }

/-- Start the producer. It can be started once. -/
def start (b : Buffer) : Except CaptureError Buffer :=
  match b.phase with
  | .idle file => .ok { b with phase := .reading { file, chunkSize := b.chunkSize } }
  | _ => .error .alreadyStarted

/-- The producer's next move, if it has one. -/
def produce (b : Buffer) : Buffer :=
  match b.phase with
  | .idle _ | .closed _ => b
  | .reading p =>
    match p.read b.stopped with
    | .publish batch rest => { b with phase := .sending batch rest }
    | .finish outcome => { b with phase := .returned outcome }
  | .sending batch p =>
    if b.hasRoom then { b with queue := b.queue ++ [batch], phase := .reading p } else b
  | .rechecking batch p =>
    if b.stopped then { b with phase := .returned (.ok p.stopped) }
    else { b with phase := .sending batch p }
  | .returned outcome => { b with phase := .resting outcome }
  | .resting outcome => { b with phase := .closed outcome }

/-- A spell of waiting for room ends. Without a wait nothing ends. -/
def expire (b : Buffer) : Buffer :=
  match b.phase with
  | .sending batch p => if b.hasRoom then b else { b with phase := .rechecking batch p }
  | _ => b

/-- Whether the producer has a move to make now. -/
def canProduce (b : Buffer) : Bool :=
  match b.phase with
  | .idle _ | .closed _ => false
  | .sending _ _ => b.hasRoom
  | _ => true

/-- The oldest batch, and the buffer without it. -/
def next? (b : Buffer) : Option Batch × Buffer :=
  match b.queue with
  | [] => (none, b)
  | batch :: rest => (some batch, { b with queue := rest })

/-- At most this many moves of the producer. -/
def produceFor : Nat → Buffer → Buffer
  | 0, b => b
  | moves + 1, b => if b.canProduce then produceFor moves b.produce else b

/-- Let the producer act until it must wait or is done. -/
def settle (b : Buffer) : Buffer := produceFor b.phase.work b

/-- The oldest batch, once the producer has had its time. There is none when
    the producer is done and nothing waits. -/
def wait (b : Buffer) : Option Batch × Buffer := b.settle.next?

/-- Take batches for as long as there are any, at most this many. -/
def drainFor : Nat → Buffer → List Batch × Buffer
  | 0, b => ([], b)
  | count + 1, b =>
    match b.wait with
    | (none, b) => ([], b)
    | (some batch, b) =>
      let (rest, b) := drainFor count b
      (batch :: rest, b)

/-- Take batches until the producer is done and nothing waits. -/
def drain (b : Buffer) : List Batch × Buffer :=
  drainFor (b.queue.length + b.phase.work) b

/-- Wait for the producer and collect its outcome. Spells of waiting go by
    meanwhile, so a producer that finds no room gives up if it was asked to
    stop. The outcome can be collected once; after that, and without a start,
    there is nothing to report. -/
def join (b : Buffer) : CaptureOutcome × Buffer :=
  let b := b.settle.expire.settle
  if b.joined then (.ok {}, b)
  else
    match b.phase.outcome? with
    | none => (.ok {}, b)
    | some outcome => (outcome, { b with joined := true })

/-- Ask for a stop while the producer waits for room, and collect its
    outcome. -/
def stopWaiting (b : Buffer) : CaptureOutcome × Buffer := b.settle.stop.join

end Buffer

end MarketFeed
