import MarketFeed.Proofs.Datagram.Telling
import Mathlib.Data.List.Basic

/-!
# Listeners Beside Each Other

What is attached to a decoder neither changes what it does nor what another
listener hears.

Forgetting what a listener has remembered is a map to the listener that has
nothing to remember. Decoding agrees with such maps, so the readings are those
of a decoder that nobody listens to, with an error in the same place or none.

Listeners are attached as a tree. For one message, the tree is a list of calls:
those of the first of two parts are in front of those of the second, an absent
listener or handler has none, and each call changes the state of the part it
belongs to. What the tree hears of datagrams is the calls for the first message
told, then those for the second, and so on. Two parts on one state can see that
order. Where they have a state each, their calls do not meet, and taken by
itself either part hears the same.

## Main definitions

* `Attachment`: Listeners put together to any depth.
* `Attachment.calls`: The calls for one message, in order.
* `Attachment.alone`: Where each part gets as the only one attached.
* `Handlers.apart`: Handlers with a state for each kind.
* `Handlers.called`: Where a handler gets with the messages of its kind.

## Theorems

* `listen_eq_calls`: A message is the calls for it.
* `listen_alone`: Each part gets where it gets alone.
* `listener_apart`: Handlers with a state each are listeners side by side.
* `replay_apart`: A handler hears the messages of its kind.
* `listeners_apart`: All of it, for the datagrams that a decoder is given.
-/

namespace MarketFeed

variable {σ τ : Type}

/-! ## Calls in turn -/

/-- The state after calls were made one after the other. -/
def inTurn (calls : List (σ → σ)) (s : σ) : σ := calls.foldl (fun s call => call s) s

theorem inTurn_append (front back : List (σ → σ)) (s : σ) :
    inTurn (front ++ back) s = inTurn back (inTurn front s) :=
  List.foldl_append

/-- Calls on a part of a state change that part as they do by themselves. -/
theorem inTurn_map (part : σ → τ) {lift : (σ → σ) → τ → τ}
    (hlift : ∀ call s, lift call (part s) = part (call s)) (calls : List (σ → σ)) (s : σ) :
    inTurn (calls.map lift) (part s) = part (inTurn calls s) := by
  rw [inTurn, List.foldl_map]
  exact List.foldl_hom part fun s call => hlift call s

/-! ## The handlers of each kind -/

namespace Message

/-- The change, if the message is one. -/
def update? : Message → Option OrderUpdate
  | .update u => some u
  | .execution _ | .snapshot _ => none

/-- The trade, if the message is one. -/
def execution? : Message → Option OrderExecution
  | .execution x => some x
  | .update _ | .snapshot _ => none

/-- The state of a book, if the message is one. -/
def snapshot? : Message → Option Snapshot
  | .snapshot b => some b
  | .update _ | .execution _ => none

end Message

namespace Handlers

/-- The call that a message leads to, if its kind has a handler. -/
def call? (h : Handlers σ) : Message → Option (σ → σ)
  | .update u => h.onUpdate.map (· u)
  | .execution x => h.onExecution.map (· x)
  | .snapshot b => h.onSnapshot.map (· b)

/-- Handlers are called for the kinds that they are for. -/
theorem listener_eq_call? (h : Handlers σ) (e : Envelope) (m : Message) (s : σ) :
    h.listener e m s = inTurn (h.call? m).toList s := by
  rcases h with ⟨onUpdate, onExecution, onSnapshot⟩
  cases m with
  | update u => cases onUpdate <;> rfl
  | execution x => cases onExecution <;> rfl
  | snapshot b => cases onSnapshot <;> rfl

variable {α β γ : Type}

/-- Handlers that each have a state of their own. -/
def apart (onUpdate : Option (OrderUpdate → α → α)) (onExecution : Option (OrderExecution → β → β))
    (onSnapshot : Option (Snapshot → γ → γ)) : Handlers (α × β × γ) where
  onUpdate := onUpdate.map fun f u s => (f u s.1, s.2)
  onExecution := onExecution.map fun f x s => (s.1, f x s.2.1, s.2.2)
  onSnapshot := onSnapshot.map fun f b s => (s.1, s.2.1, f b s.2.2)

/-- The state after a handler was called with each of these in turn. An absent
    handler leaves it as it was. -/
def called {ι : Type} (handler : Option (ι → α → α)) (inputs : List ι) (state : α) : α :=
  handler.elim state fun f => inputs.foldl (fun state x => f x state) state

theorem called_cons {ι : Type} (handler : Option (ι → α → α)) (x : ι) (rest : List ι) (state : α) :
    called handler (x :: rest) state = called handler rest (called handler [x] state) := by
  cases handler <;> rfl

/-- The listener that hands messages of one kind to a handler. -/
def ofKind {ι : Type} (kind? : Message → Option ι) (handler : Option (ι → α → α)) : Listener α :=
  fun _ m state => called handler (kind? m).toList state

/-- A handler of one kind is called with the messages of this kind, in order. -/
theorem replay_ofKind {ι : Type} (kind? : Message → Option ι) (handler : Option (ι → α → α))
    (record : List (Envelope × Message)) (state : α) :
    (ofKind kind? handler).replay record state
      = called handler (record.filterMap fun one => kind? one.2) state := by
  induction record generalizing state with
  | nil => cases handler <;> rfl
  | cons one rest ih =>
      rw [Listener.replay, List.foldl_cons, ← Listener.replay, ih, List.filterMap_cons, ofKind]
      cases kind? one.2 with
      | none => cases handler <;> rfl
      | some x => exact (called_cons handler x _ state).symm

/-- A message is of one kind, so handlers with a state each are three listeners
    side by side. -/
theorem listener_apart (onUpdate : Option (OrderUpdate → α → α))
    (onExecution : Option (OrderExecution → β → β)) (onSnapshot : Option (Snapshot → γ → γ)) :
    (apart onUpdate onExecution onSnapshot).listener
      = (ofKind Message.update? onUpdate).pair
          ((ofKind Message.execution? onExecution).pair (ofKind Message.snapshot? onSnapshot)) := by
  funext e m s
  cases m <;> cases onUpdate <;> cases onExecution <;> cases onSnapshot <;> rfl

/-- Three handlers are each called as if the others were not there. -/
theorem replay_apart (onUpdate : Option (OrderUpdate → α → α))
    (onExecution : Option (OrderExecution → β → β)) (onSnapshot : Option (Snapshot → γ → γ))
    (record : List (Envelope × Message)) (a : α) (b : β) (c : γ) :
    (apart onUpdate onExecution onSnapshot).listener.replay record (a, b, c)
      = (called onUpdate (record.filterMap (·.2.update?)) a,
          called onExecution (record.filterMap (·.2.execution?)) b,
          called onSnapshot (record.filterMap (·.2.snapshot?)) c) := by
  rw [listener_apart, Listener.replay_pair, Listener.replay_pair, replay_ofKind, replay_ofKind,
    replay_ofKind]

end Handlers

/-! ## Trees of listeners -/

/-- What is attached to a decoder. Parts have a state each, or share one. -/
inductive Attachment : Type → Type 1
  /-- Nothing. -/
  | silent : Attachment Unit
  /-- A listener. -/
  | listener {σ : Type} (listen : Listener σ) : Attachment σ
  /-- Handlers, of which any may be absent. -/
  | handlers {σ : Type} (h : Handlers σ) : Attachment σ
  /-- A part that may be absent. -/
  | optional {σ : Type} (part : Attachment σ) : Attachment (Option σ)
  /-- Two parts with a state each. -/
  | pair {σ τ : Type} (first : Attachment σ) (second : Attachment τ) : Attachment (σ × τ)
  /-- Two parts on one state. -/
  | andThen {σ : Type} (first second : Attachment σ) : Attachment σ

namespace Attachment

open Consumer

/-- The one listener that it is to the decoder. -/
def listen : {σ : Type} → Attachment σ → Listener σ
  | _, .silent => .silent
  | _, .listener listen => listen
  | _, .handlers h => h.listener
  | _, .optional part => part.listen.optional
  | _, .pair first second => first.listen.pair second.listen
  | _, .andThen first second => first.listen.andThen second.listen

/-- The calls that a message leads to, in order. -/
def calls (one : Envelope × Message) : {σ : Type} → Attachment σ → List (σ → σ)
  | _, .silent => []
  | _, .listener listen => [listen one.1 one.2]
  | _, .handlers h => (h.call? one.2).toList
  | _, .optional part => (part.calls one).map Option.map
  | _, .pair first second =>
    (first.calls one).map (Prod.map · id) ++ (second.calls one).map (Prod.map id ·)
  | _, .andThen first second => first.calls one ++ second.calls one

/-- The state in which every part is as it would be if nothing else were attached
    to the decoder. Parts on one state count as one. -/
def alone (payloads : List Bytes) : {σ : Type} → Attachment σ → σ → σ
  | _, .silent, s => s
  | _, .listener listen, s => (handleAll listen payloads s).2
  | _, .handlers h, s => (handleAll h.listener payloads s).2
  | _, .optional part, s => s.map (part.alone payloads)
  | _, .pair first second, s => (first.alone payloads s.1, second.alone payloads s.2)
  | _, .andThen first second, s => (handleAll (first.listen.andThen second.listen) payloads s).2

/-- To the decoder an attachment is the calls that it makes. -/
theorem listen_eq_calls (a : Attachment σ) (one : Envelope × Message) (s : σ) :
    a.listen one.1 one.2 s = inTurn (a.calls one) s := by
  induction a with
  | silent => rfl
  | listener listen => rfl
  | handlers h => exact h.listener_eq_call? one.1 one.2 s
  | optional part ih =>
      cases s with
      | none =>
          rw [calls, inTurn, List.foldl_map]
          exact (List.foldl_fixed' (fun _ => rfl) _).symm
      | some s =>
          rw [calls, inTurn_map some (fun _ _ => rfl), ← ih]
          rfl
  | @pair σ τ first second ihFirst ihSecond =>
      rcases s with ⟨s, t⟩
      -- The calls of either part leave the state of the other alone.
      have hfirst : inTurn ((first.calls one).map (Prod.map · id)) (s, t)
          = (inTurn (first.calls one) s, t) :=
        inTurn_map (·, t) (fun _ _ => rfl) _ s
      have hsecond (s' : σ) : inTurn ((second.calls one).map (Prod.map id ·)) (s', t)
          = (s', inTurn (second.calls one) t) :=
        inTurn_map (s', ·) (fun _ _ => rfl) _ t
      rw [calls, inTurn_append, hfirst, hsecond, ← ihFirst, ← ihSecond]
      rfl
  | andThen first second ihFirst ihSecond =>
      rw [calls, inTurn_append, ← ihFirst, ← ihSecond]
      rfl

/-- What is heard of a record is the calls for its messages, one message after
    the other. -/
theorem replay_eq_calls (a : Attachment σ) (record : List (Envelope × Message)) (s : σ) :
    a.listen.replay record s = inTurn (record.flatMap fun one => a.calls one) s := by
  rw [inTurn, List.foldl_flatMap, Listener.replay]
  exact congrArg (List.foldl · s record) (funext₂ fun s one => a.listen_eq_calls one s)

/-- After any datagrams every part is as it would be alone. -/
theorem listen_alone (a : Attachment σ) (payloads : List Bytes) (s : σ) :
    (handleAll a.listen payloads s).2 = a.alone payloads s := by
  induction a with
  | silent => rfl
  | listener listen => rfl
  | handlers h => rfl
  | optional part ih =>
      rw [alone, listen, handleAll_eq_replay, Listener.replay_optional]
      refine congrArg (Option.map · s) (funext fun s => ?_)
      rw [← ih, handleAll_eq_replay]
  | pair first second ihFirst ihSecond =>
      rcases s with ⟨s, t⟩
      rw [alone, ← ihFirst, ← ihSecond, listen, handleAll_eq_replay, Listener.replay_pair,
        handleAll_eq_replay first.listen, handleAll_eq_replay second.listen]
  | andThen first second => rfl

end Attachment

/-! ## Datagrams -/

namespace Consumer

open Decoder

/-- A decoder makes the same of datagrams whatever is attached to it. What is
    attached hears the calls for the messages that the datagrams tell, and each
    part of it gets where it would get alone. A handler hears the messages of
    its kind in the order of the wire, and an absent one nothing. -/
theorem listeners_apart :
    (∀ {σ : Type} (listen : Listener σ) (payloads : List Bytes) (d : Decoder) (s : σ),
      (decodeAll listen payloads d s).map (Reading.map fun _ => ())
        = decodeAll .silent payloads d ()) ∧
    (∀ {σ : Type} (a : Attachment σ) (payloads : List Bytes) (s : σ),
      (handleAll a.listen payloads s).2 = a.alone payloads s) ∧
    (∀ {σ : Type} (a : Attachment σ) (payloads : List Bytes) (s : σ),
      (handleAll a.listen payloads s).2
        = inTurn ((told payloads).flatMap fun one => a.calls one) s) ∧
    ∀ {α β γ : Type} (onUpdate : Option (OrderUpdate → α → α))
      (onExecution : Option (OrderExecution → β → β)) (onSnapshot : Option (Snapshot → γ → γ))
      (payloads : List Bytes) (a : α) (b : β) (c : γ),
      (handleAll (Handlers.apart onUpdate onExecution onSnapshot).listener payloads (a, b, c)).2
        = (Handlers.called onUpdate ((told payloads).filterMap (·.2.update?)) a,
            Handlers.called onExecution ((told payloads).filterMap (·.2.execution?)) b,
            Handlers.called onSnapshot ((told payloads).filterMap (·.2.snapshot?)) c) := by
  refine ⟨?_, Attachment.listen_alone, ?_, ?_⟩
  · intro σ listen payloads d s
    exact (decodeAll_map (f := fun _ => ()) (fun _ _ _ => rfl) payloads).symm
  · intro σ a payloads s
    rw [handleAll_eq_replay, Attachment.replay_eq_calls]
  · intro α β γ onUpdate onExecution onSnapshot payloads a b c
    rw [handleAll_eq_replay, Handlers.replay_apart]

end Consumer

end MarketFeed
