import MarketFeed.Count
import MarketFeed.Packet.Header

/-!
# Passing Packets On

One packet after another, down to its datagram and on to a handler.

Every packet is counted once as it comes in and once by what became of it.
Packets of another transport are counted apart from damaged ones, because the
former are expected in any capture and the latter are not.

## Main definitions

* `FilterStats`: What became of the packets so far.
* `Filter.pass`: Take one packet to the handler.
* `Filter.process`: The same, with whether it got there.
* `Filter.passAll`: Take packets to the handler one after the other.

## Theorems

* `pass_counts`: Each packet is counted once by what became of it.
-/

namespace MarketFeed

/-- What became of the packets so far. -/
structure FilterStats where
  /-- How many packets came in. -/
  processed : Nat := 0
  /-- How many datagrams were passed on. -/
  forwarded : Nat := 0
  /-- How many packets belonged to another transport. -/
  skippedTransport : Nat := 0
  /-- How many packets were damaged. -/
  skippedMalformed : Nat := 0
  deriving DecidableEq, Repr

namespace FilterStats

/-- How many packets were passed over, if 64 bits can hold it. -/
def skipped? (s : FilterStats) : Option Nat := Count.sum? s.skippedTransport s.skippedMalformed

/-- Every packet that came in is accounted for. -/
def Balanced (s : FilterStats) : Prop :=
  s.processed = s.forwarded + s.skippedTransport + s.skippedMalformed

end FilterStats

namespace Filter

variable {σ : Type}

/-- The counts after a packet with this outcome. -/
def tally (outcome : Except PacketSkip Bytes) (stats : FilterStats) : FilterStats :=
  let stats := { stats with processed := stats.processed + 1 }
  match outcome with
  | .ok _ => { stats with forwarded := stats.forwarded + 1 }
  | .error (.unsupportedTransport _) =>
    { stats with skippedTransport := stats.skippedTransport + 1 }
  | .error _ => { stats with skippedMalformed := stats.skippedMalformed + 1 }

/-- Take the datagram of one packet to the handler, if there is one. -/
def pass (handle : Bytes → σ → σ) (packet : Bytes) (state : FilterStats × σ) :
    FilterStats × σ :=
  let outcome := Packet.payload packet
  let heard := match outcome with
    | .ok payload => handle payload state.2
    | .error _ => state.2
  (tally outcome state.1, heard)

/-- Take one packet to the handler, and tell whether there was a datagram in it. -/
def process (handle : Bytes → σ → σ) (packet : Bytes) (state : FilterStats × σ) :
    Bool × FilterStats × σ :=
  let handled := match Packet.payload packet with
    | .ok _ => true
    | .error _ => false
  (handled, pass handle packet state)

/-- Take one packet after another to the handler. -/
def passAll (handle : Bytes → σ → σ) (packets : List Bytes) (state : FilterStats × σ) :
    FilterStats × σ :=
  packets.foldl (fun state packet => pass handle packet state) state

/-- A packet is counted for exactly one of the three reasons. -/
theorem pass_counts (handle : Bytes → σ → σ) (packet : Bytes) (state : FilterStats × σ)
    (h : state.1.Balanced) : (pass handle packet state).1.Balanced := by
  unfold FilterStats.Balanced at *
  unfold pass tally
  dsimp only
  split <;> simp only <;> omega

end Filter

end MarketFeed
