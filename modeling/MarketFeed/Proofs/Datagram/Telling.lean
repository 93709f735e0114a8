import MarketFeed.Proofs.Datagram.Listening
import MarketFeed.Proofs.Snapshot
import MarketFeed.Session.Run

/-!
# What Datagrams Tell

The messages that one decoder tells of a run of datagrams.

A decoder that is given datagrams in order tells one list of messages, each
with the envelope it came under. Any listener has heard this list, replayed,
so whatever is to be said of what a run tells is said of the list.

Every message in it stood in a datagram. That bounds the snapshots among
them, since the head of a group counts its entries in one octet.

## Main definitions

* `Message.OfDatagram`: A message that a datagram can hold.
* `Consumer.handleAll`: One decoder that is given datagrams in order.
* `Consumer.told`: The messages it tells.

## Theorems

* `OfDatagram.snapshot`: A snapshot of a datagram is small, and it was built
  from its entries.
* `handle_replayed`: A listener and the recorder go side by side.
* `handleAll_eq_replay`: What is heard of datagrams is what they tell,
  replayed.
* `ofDatagram_of_mem_told`: They tell messages of datagrams only.
-/

namespace MarketFeed

/-! ## Messages of a datagram -/

/-- A message that a datagram can hold. -/
def Message.OfDatagram (m : Message) : Prop :=
  ∃ framed : Framed, framed.WellFormed ∧ framed.message = m

/-- A snapshot of a datagram is sound, and small enough to be counted in one
    octet. -/
theorem Message.OfDatagram.snapshot {s : Snapshot} (h : (Message.snapshot s).OfDatagram) :
    s.Sound ∧ s.size ≤ 255 := by
  obtain ⟨framed, hwell, hmessage⟩ := h
  cases framed with
  | update frame u => cases hmessage
  | execution frame x => cases hmessage
  | snapshot frame header extension group blocks =>
      cases hmessage
      refine ⟨Snapshot.sound_ofEntries _ _, ?_⟩
      -- The head of the group counts its entries in one octet.
      have hsize := Snapshot.size_ofEntries_le header (blocks.map (·.1))
      have hcount := hwell.2.2.2.1
      have hlt := group.numInGroup.toNat_lt
      rw [List.length_map] at hsize
      omega

/-! ## What is heard of datagrams -/

namespace Consumer

variable {σ : Type}

/-- One decoder that is given datagrams one after the other. -/
def handleAll (listen : Listener σ) (payloads : List Bytes) (first : σ) : Decoder × σ :=
  payloads.foldl (fun state payload => handle listen payload state) ({}, first)

/-- What it tells, each message with its envelope. -/
def told (payloads : List Bytes) : List (Envelope × Message) :=
  (handleAll .recorder payloads #[]).2.toList

/-- What a listener would have of a record, beside the decoder that made it. -/
def replayed (listen : Listener σ) (first : σ) (state : Decoder × Array (Envelope × Message)) :
    Decoder × σ :=
  (state.1, listen.replay state.2.toList first)

/-- The recorder and a listener go through a datagram side by side. -/
theorem handle_replayed (listen : Listener σ) (first : σ) (payload : Bytes)
    (state : Decoder × Array (Envelope × Message)) :
    handle listen payload (replayed listen first state)
      = replayed listen first (handle .recorder payload state) := by
  simp only [handle, replayed, Decoder.decode_replay]
  rfl

/-- What is heard of datagrams is what they tell, replayed. -/
theorem handleAll_eq_replay (listen : Listener σ) (payloads : List Bytes) (first : σ) :
    handleAll listen payloads first
      = ((handleAll .recorder payloads #[]).1, listen.replay (told payloads) first) := by
  have hall : payloads.foldl (fun state payload => handle listen payload state)
        (replayed listen first ({}, #[]))
      = replayed listen first (handleAll .recorder payloads #[]) :=
    List.foldl_hom _ fun state payload => handle_replayed listen first payload state
  exact hall

/-- A decoder tells nothing but messages that a datagram can hold. -/
theorem ofDatagram_of_mem_told {payloads : List Bytes} {one : Envelope × Message}
    (h : one ∈ told payloads) : one.2.OfDatagram := by
  let AllOf (record : Array (Envelope × Message)) : Prop := ∀ one ∈ record, one.2.OfDatagram
  have hone : ∀ e (m : Framed) (record : Array (Envelope × Message)), m.WellFormed →
      AllOf record → AllOf (Listener.recorder e m.message record) := by
    intro e m record hwell hrecord other hother
    rcases Array.mem_push.mp hother with hold | rfl
    · exact hrecord other hold
    · exact ⟨m, hwell, rfl⟩
  -- The record begins empty, and every datagram keeps that it is one of
  -- messages that a datagram can hold.
  have hall : ∀ state : Decoder × Array (Envelope × Message), AllOf state.2 →
      AllOf (payloads.foldl (fun state payload => handle .recorder payload state) state).2 := by
    clear h
    induction payloads with
    | nil => exact fun _ hstate => hstate
    | cons payload rest ih =>
        exact fun state hstate => ih _ (Decoder.decode_keeps hone payload state.1 hstate)
  exact hall ({}, #[]) (fun _ hmem => (Array.not_mem_empty _ hmem).elim) one
    (Array.mem_toList_iff.mp h)

end Consumer

end MarketFeed
