/-!
# Settings of a Run

How much is read at a time, how much may wait, and how the reader of the
queue waits.

Settings are corrected as they are made, not where they are used: a chunk has
at least one octet, and a bounded queue has room for at least one batch.

## Main definitions

* `PollMode`: How to wait for the next batch.
* `Config`: The settings, with their defaults.
* `Config.withChunkSize`, `Config.withQueueCapacity`, `Config.withPoll`:
  Changed settings.

## Theorems

* `withChunkSize_pos`: A chunk is never empty.
-/

namespace MarketFeed

/-- How to wait for the next batch. -/
inductive PollMode
  /-- Look, and sleep this many nanoseconds if there is nothing. -/
  | sleep (nanos : Nat)
  /-- Wait until there is something. -/
  | blocking
  deriving DecidableEq, Repr

namespace PollMode

/-- Sleep this many microseconds between two looks. -/
def ofMicros (micros : Nat) : PollMode := .sleep (micros * 1000)

end PollMode

/-- The settings of a run. -/
structure Config where
  /-- How many octets are read at a time. -/
  chunkSize : Nat := 16777216
  /-- How many batches may wait, if there is a bound. -/
  queueCapacity : Option Nat := none
  /-- How to wait for the next batch. -/
  poll : PollMode := .ofMicros 1000
  deriving DecidableEq, Repr

namespace Config

/-- The settings with another size of a chunk. -/
def withChunkSize (c : Config) (size : Nat) : Config := { c with chunkSize := max size 1 }

/-- The settings with another bound on the queue. -/
def withQueueCapacity (c : Config) (capacity : Option Nat) : Config :=
  { c with queueCapacity := capacity.map (max · 1) }

/-- The settings with another way to wait. -/
def withPoll (c : Config) (poll : PollMode) : Config := { c with poll }

theorem withChunkSize_pos (c : Config) (size : Nat) : 0 < (c.withChunkSize size).chunkSize := by
  simp only [withChunkSize]
  omega

end Config

end MarketFeed
