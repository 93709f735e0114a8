import MarketFeed.Capture.Buffer
import MarketFeed.Config

/-!
# Two Sides and Their Turns

A producer and a consumer that share a queue, as one machine.

The two sides act in no fixed order, and a request to stop may come at any
moment. A schedule is a list of turns that says who acts next; a turn that
has nothing to do passes. Whatever is to hold of every interleaving is then a
statement about every list.

The consumer has two ways to wait. One blocks on the queue and leaves when
the producer has let go of it. The other looks at the queue, and if that is
empty looks at the running flag; with the flag up it sleeps and looks again,
with the flag down it takes what was added in the meantime and leaves. The
look at the queue and the look at the flag are two turns, since a batch may
arrive between them.

What the consumer does with a batch is a parameter, so the same machine runs
the decoder and records which batches were taken.

## Main definitions

* `Stage`: How far the consumer is.
* `Session`: The buffer, the consumer and what has come of the batches.
* `Turn`, `Session.turn`, `Session.play`: One turn, and a schedule of them.
* `Session.drive`: The schedule in which the two sides alternate.

## Theorems

* `play_append`: A schedule can be cut anywhere.
-/

namespace MarketFeed

/-- How far the consumer is. -/
inductive Stage
  /-- About to look at the queue. -/
  | polling
  /-- The queue was empty; about to look at the running flag. -/
  | checking
  /-- The flag was down; taking what is left. -/
  | draining
  /-- The consumer has left. -/
  | exited
  deriving DecidableEq, Repr

/-- A producer and a consumer on one queue. -/
structure Session (τ : Type) where
  /-- The producer and the queue. -/
  buffer : Buffer
  /-- How the consumer waits. -/
  poll : PollMode
  /-- How far the consumer is. -/
  stage : Stage := .polling
  /-- What has come of the batches that were taken. -/
  state : τ

/-- Who acts next. -/
inductive Turn
  /-- The producer makes its next move. -/
  | producer
  /-- A spell of waiting for room ends. -/
  | expiry
  /-- The consumer makes its next move. -/
  | consumer
  /-- A stop is asked for. -/
  | stop
  deriving DecidableEq, Repr

namespace Session

variable {τ : Type}

/-- Take the oldest batch, or go on to `otherwise` if there is none. -/
def take (feed : Batch → τ → τ) (otherwise : Stage) (s : Session τ) : Session τ :=
  match s.buffer.next? with
  | (some batch, buffer) => { s with buffer, state := feed batch s.state }
  | (none, _) => { s with stage := otherwise }

/-- Where a consumer that found the queue empty goes. -/
def afterEmpty (s : Session τ) : Stage :=
  match s.poll with
  | .sleep _ => .checking
  | .blocking => if s.buffer.phase.isClosed then .exited else .polling

/-- The consumer's next move. -/
def consume (feed : Batch → τ → τ) (s : Session τ) : Session τ :=
  match s.stage with
  | .polling => s.take feed s.afterEmpty
  | .checking => { s with stage := if s.buffer.isRunning then .polling else .draining }
  | .draining => s.take feed .exited
  | .exited => s

/-- One turn. -/
def turn (feed : Batch → τ → τ) (s : Session τ) : Turn → Session τ
  | .producer => { s with buffer := s.buffer.produce }
  | .expiry => { s with buffer := s.buffer.expire }
  | .consumer => s.consume feed
  | .stop => { s with buffer := s.buffer.stop }

/-- One turn after another. -/
def play (feed : Batch → τ → τ) (s : Session τ) (schedule : List Turn) : Session τ :=
  schedule.foldl (turn feed) s

/-- Whether the consumer has left. -/
def isOver (s : Session τ) : Bool := s.stage == .exited

/-- At most this many rounds in which either side has one turn. -/
def driveFor (feed : Batch → τ → τ) : Nat → Session τ → Session τ
  | 0, s => s
  | rounds + 1, s =>
    if s.isOver then s else driveFor feed rounds (s.play feed [.producer, .consumer])

/-- Let the two sides alternate until the consumer has left. Four rounds for
    each move of the producer leave the consumer time for the batch of that
    move and for the looks that found nothing. -/
def drive (feed : Batch → τ → τ) (s : Session τ) : Session τ :=
  driveFor feed (4 * s.buffer.phase.work + s.buffer.pending + 8) s

/-- A schedule can be cut anywhere. -/
theorem play_append (feed : Batch → τ → τ) (s : Session τ) (front back : List Turn) :
    s.play feed (front ++ back) = (s.play feed front).play feed back :=
  List.foldl_append

end Session

end MarketFeed
