import MarketFeed.Snapshot

/-!
# Messages and Their Listeners

The three kinds of message as one type, and what can be attached to them.

A listener is told every message together with the envelope it came in, and
answers with its next state. Nothing else about it can be seen by the
decoder, which is why decoding cannot depend on who listens.

Listeners combine. Two of them on one state hear each message one after the
other; two with a state each are put side by side by letting both act on the
pair of their states. An absent listener hears nothing, and a set of handlers
hears the kinds it has a handler for.

## Main definitions

* `Message`: An update, an execution or a snapshot.
* `Listener`: What happens to a state on each message.
* `Listener.andThen`: Two listeners on one state.
* `Listener.silent`, `Listener.optional`, `Listener.pair`: Combinations.
* `Handlers`: A listener put together from up to three handlers.
* `Listener.recorder`: The listener that keeps everything.
-/

namespace MarketFeed

/-- A decoded message. -/
inductive Message
  /-- A change to a resting order. -/
  | update (update : OrderUpdate)
  /-- A trade against a resting order. -/
  | execution (execution : OrderExecution)
  /-- The state of a book. -/
  | snapshot (snapshot : Snapshot)
  deriving DecidableEq, Repr

/-- How a state changes on a message and the envelope it came in. -/
abbrev Listener (σ : Type) := Envelope → Message → σ → σ

namespace Listener

variable {σ τ : Type}

/-- The listener that has nothing to remember. -/
def silent : Listener Unit := fun _ _ s => s

/-- A listener that may be absent. -/
def optional (listen : Listener σ) : Listener (Option σ) :=
  fun e m s => s.map (listen e m)

/-- Two listeners on one state; the first hears each message first. -/
def andThen (first second : Listener σ) : Listener σ :=
  fun e m s => second e m (first e m s)

/-- A listener that acts on the first of two states. -/
def onFirst (listen : Listener σ) : Listener (σ × τ) :=
  fun e m s => (listen e m s.1, s.2)

/-- A listener that acts on the second of two states. -/
def onSecond (listen : Listener τ) : Listener (σ × τ) :=
  fun e m s => (s.1, listen e m s.2)

/-- Two listeners side by side; the first hears each message first. -/
def pair (first : Listener σ) (second : Listener τ) : Listener (σ × τ) :=
  first.onFirst.andThen second.onSecond

/-- The listener that keeps every message with its envelope, in order. -/
def recorder : Listener (Array (Envelope × Message)) :=
  fun e m s => s.push (e, m)

end Listener

/-- A handler for each kind of message that is of interest. -/
structure Handlers (σ : Type) where
  /-- What to do with a change to an order. -/
  onUpdate : Option (OrderUpdate → σ → σ) := none
  /-- What to do with a trade. -/
  onExecution : Option (OrderExecution → σ → σ) := none
  /-- What to do with a snapshot. -/
  onSnapshot : Option (Snapshot → σ → σ) := none

namespace Handlers

variable {σ : Type}

/-- The listener that hands each message to the handler of its kind. -/
def listener (h : Handlers σ) : Listener σ :=
  fun _ m s =>
    match m with
    | .update u => (h.onUpdate.map (· u s)).getD s
    | .execution x => (h.onExecution.map (· x s)).getD s
    | .snapshot b => (h.onSnapshot.map (· b s)).getD s

end Handlers

end MarketFeed
