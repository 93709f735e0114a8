import MarketFeed.Proofs.Datagram.Telling

/-!
# Each Datagram for Itself

Nothing of one datagram shows in how the next is read.

A decoder keeps three things from call to call. The incremental header and
the last frame are dropped before a datagram is read, so they cannot be seen
by it. The envelope is written before anything is told, unless the datagram
is too short to have one, and then nothing is told at all. That leaves the
counts. They are only ever added to, and no branch of the decoder looks at
them, so reading with counts that started elsewhere is reading and adding the
start at the end. This is shown for every function of the decoder in the order
in which they call each other, with the walk as the one induction.

So a datagram does the same to every decoder, whatever that decoder has read
or failed to read before, and what a run of datagrams tells is what each of
them tells alone, one after the other.

## Main definitions

* `Decoder.counting`: A decoder with more counted before.
* `Decoder.LikeFresh`: A datagram did to a decoder what it does to a new one.
* `Decoder.callbacks`: What a datagram tells, taken alone.

## Theorems

* `stride_counting`, `walk_counting`, `decode_counting`: What was counted
  before is added, and changes nothing else.
* `decode_likeFresh`: Every decoder reads a datagram like a new one.
* `foldl_handle`: A run tells what its datagrams tell alone.
* `datagrams_apart`: Both, with what follows for a datagram in the midst of
  others.
-/

namespace MarketFeed

instance : Add DecoderStats where
  add before more :=
    { datagrams := before.datagrams + more.datagrams
      orderUpdates := before.orderUpdates + more.orderUpdates
      orderExecutions := before.orderExecutions + more.orderExecutions
      orderBookSnapshots := before.orderBookSnapshots + more.orderBookSnapshots
      snapshotEntries := before.snapshotEntries + more.snapshotEntries
      unknownTemplates := before.unknownTemplates + more.unknownTemplates
      decodeErrors := before.decodeErrors + more.decodeErrors }

/-- The same decoder with this counted before. -/
def Decoder.counting (before : DecoderStats) (d : Decoder) : Decoder :=
  { d with stats := before + d.stats }

/-- The same step, by a decoder with this counted before. -/
def Decoder.Stride.counting {σ : Type} (before : DecoderStats) : Stride σ → Stride σ
  | .dispatched used d s => .dispatched used (d.counting before) s
  | .unknownTemplate d => .unknownTemplate (d.counting before)
  | .failed e d => .failed e (d.counting before)

/-- The same reading, by a decoder with this counted before. -/
def Reading.counting {σ : Type} (before : DecoderStats) (r : Reading σ) : Reading σ :=
  { r with decoder := r.decoder.counting before }

namespace Decoder

variable {σ : Type} {listen : Listener σ} {payload : Bytes} {d : Decoder} {s : σ}

/-! ## Counted before -/

section Counting

variable (before : DecoderStats)

theorem update_counting (offset : Nat) (frame : MessageFrame) :
    update listen payload offset frame (d.counting before) s
      = (update listen payload offset frame d s).counting before := by
  unfold update
  split
  · split <;> rfl
  · rfl

theorem execution_counting (offset : Nat) (frame : MessageFrame) :
    execution listen payload offset frame (d.counting before) s
      = (execution listen payload offset frame d s).counting before := by
  unfold execution
  split
  · split <;> rfl
  · rfl

/-- The one count that grows by more than one at a time. -/
theorem count_entries_counting (kept : Nat) :
    ((d.counting before).count fun c => { c with snapshotEntries := c.snapshotEntries + kept })
      = (d.count fun c => { c with snapshotEntries := c.snapshotEntries + kept }).counting before :=
  congrArg (fun n => { d with stats := { (before + d.stats) with snapshotEntries := n } })
    (Nat.add_assoc _ _ _)

theorem snapshot_counting (offset : Nat) (frame : MessageFrame) :
    snapshot listen payload offset frame (d.counting before) s
      = (snapshot listen payload offset frame d s).counting before := by
  unfold snapshot
  simp only [count_entries_counting]
  split
  · rfl
  · split
    · rfl
    · split
      · rfl
      · split
        · rfl
        · split <;> rfl

theorem stride_counting (offset : Nat) :
    stride listen payload offset (d.counting before) s
      = (stride listen payload offset d s).counting before := by
  unfold stride
  split
  · rfl
  · next frame _ =>
    simp only
    split
    · rfl
    · exact update_counting (d := { d with lastFrame := some frame }) before _ frame
    · exact execution_counting (d := { d with lastFrame := some frame }) before _ frame
    · exact snapshot_counting (d := { d with lastFrame := some frame }) before _ frame

theorem walk_counting (limit offset n : Nat) :
    walk listen payload limit offset n (d.counting before) s
      = (walk listen payload limit offset n d s).counting before := by
  -- Either walk makes the same step, and a step that dispatches goes on from
  -- decoders of the same kind.
  fun_induction walk listen payload limit offset n d s with
  | case1 offset n d s hlimit used d' s' hstride ih =>
      rw [walk, if_pos hlimit, stride_counting, hstride]
      exact ih
  | case2 offset n d s hlimit d' hstride =>
      rw [walk, if_pos hlimit, stride_counting, hstride]
      rfl
  | case3 offset n d s hlimit e d' hstride =>
      rw [walk, if_pos hlimit, stride_counting, hstride]
      rfl
  | case4 offset n d s hlimit =>
      rw [walk, if_neg hlimit]
      rfl

/-- What was counted before changes nothing about reading a payload. -/
theorem readPayload_counting :
    readPayload listen payload (d.counting before) s
      = (readPayload listen payload d s).counting before := by
  unfold readPayload
  split
  · rfl
  · next envelope _ =>
    simp only
    split
    · split
      · rfl
      · next header _ =>
        exact walk_counting (d := { d with envelope, incremental := some header }) before _ _ _
    · exact walk_counting (d := { d with envelope }) before _ _ _

/-- What was counted before changes nothing about decoding but the counts. -/
theorem decode_counting :
    decode listen payload (d.counting before) s
      = (decode listen payload d s).counting before := by
  have hread : readPayload listen payload (d.counting before).start s
      = (readPayload listen payload d.start s).counting before :=
    readPayload_counting (d := d.start) before
  unfold decode
  simp only [hread]
  unfold Reading.counting
  simp only
  split <;> rfl

end Counting

/-! ## What was read before -/

/-- A reading by a decoder is what it would have been by a new one: the outcome,
    what was told, what is left to be looked at, and what has been added to the
    counts. The envelope is left alone by a datagram that is too short for one. -/
structure LikeFresh (d : Decoder) (payload : Bytes) (after fresh : Reading σ) : Prop where
  result : after.result = fresh.result
  heard : after.heard = fresh.heard
  incremental : after.decoder.incremental = fresh.decoder.incremental
  lastFrame : after.decoder.lastFrame = fresh.decoder.lastFrame
  stats : after.decoder.stats = d.stats + fresh.decoder.stats
  envelope : after.decoder.envelope
    = if payload.length < Layout.envelope.size then d.envelope else fresh.decoder.envelope

/-- A datagram that is too short for an envelope is only counted. -/
theorem decode_of_short (h : payload.length < Layout.envelope.size) :
    decode listen payload d s
      = ⟨.error (Layout.envelope.truncatedAt payload 0 Layout.envelope.size),
          d.start.count fun c => { c with decodeErrors := c.decodeErrors + 1 }, s⟩ := by
  have hnone : payload.window? 0 Layout.envelope.size = none :=
    Bytes.window?_eq_none_iff.mpr (by omega)
  have hread : Envelope.read payload 0
      = .error (Layout.envelope.truncatedAt payload 0 Layout.envelope.size) := by
    rw [Envelope.read, Layout.block, hnone, Except.map]
  simp only [decode, readPayload, hread]

/-- Any other datagram brings an envelope, and the counts are all that the
    decoder had before. -/
theorem decode_of_not_short (h : ¬ payload.length < Layout.envelope.size) :
    decode listen payload d s = (decode listen payload {} s).counting d.stats := by
  have hblock : Layout.envelope.block payload 0 = .ok (payload.take Layout.envelope.size) :=
    Layout.block_eq_ok_iff.mpr ⟨by omega, rfl⟩
  have hread : Envelope.read payload 0
      = .ok (.ofBlock (payload.take Layout.envelope.size)) := by
    rw [Envelope.read, hblock, Except.map]
  -- The envelope that was there is replaced before anything looks at it.
  have hnew : decode listen payload { stats := d.stats } s = decode listen payload d s := by
    simp only [decode, readPayload, hread]
    rfl
  rw [← hnew]
  exact decode_counting (d := {}) d.stats

/-- Every decoder decodes a datagram as a new one does. -/
theorem decode_likeFresh (listen : Listener σ) (payload : Bytes) (d : Decoder) (s : σ) :
    LikeFresh d payload (decode listen payload d s) (decode listen payload {} s) := by
  by_cases h : payload.length < Layout.envelope.size
  · rw [decode_of_short h, decode_of_short h]
    exact ⟨rfl, rfl, rfl, rfl, rfl, (if_pos h).symm⟩
  · rw [decode_of_not_short h]
    exact ⟨rfl, rfl, rfl, rfl, rfl, (if_neg h).symm⟩

/-- What a datagram tells, taken alone: the messages with their envelopes. -/
def callbacks (payload : Bytes) : List (Envelope × Message) :=
  (decode .recorder payload {} #[]).heard.toList

/-- Whatever a listener is, it hears the callbacks of the datagram. -/
theorem heard_eq_replay (listen : Listener σ) (payload : Bytes) (d : Decoder) (s : σ) :
    (decode listen payload d s).heard = listen.replay (callbacks payload) s := by
  have hreplay := decode_replay listen payload {} #[] s
  rw [(decode_likeFresh listen payload d s).heard]
  exact congrArg Reading.heard hreplay

end Decoder

/-! ## A run of datagrams -/

theorem Listener.replay_append {σ : Type} (listen : Listener σ)
    (front back : List (Envelope × Message)) (s : σ) :
    listen.replay (front ++ back) s = listen.replay back (listen.replay front s) :=
  List.foldl_append

/-- A recorder keeps what it is told, in order. -/
theorem Listener.replay_recorder (told : List (Envelope × Message))
    (record : Array (Envelope × Message)) :
    (recorder.replay told record).toList = record.toList ++ told := by
  induction told generalizing record with
  | nil => exact (List.append_nil _).symm
  | cons one rest ih =>
      rw [replay, List.foldl_cons, ← replay, ih, recorder, Array.toList_push, List.append_assoc]
      rfl

namespace Consumer

open Decoder

variable {σ : Type}

/-- Of datagrams a listener hears the callbacks of each in turn. -/
theorem foldl_handle (listen : Listener σ) (payloads : List Bytes) (d : Decoder) (s : σ) :
    (payloads.foldl (fun state payload => handle listen payload state) (d, s)).2
      = listen.replay (payloads.flatMap callbacks) s := by
  induction payloads generalizing d s with
  | nil => rfl
  | cons payload rest ih =>
      rw [List.foldl_cons, handle, ih, heard_eq_replay, List.flatMap_cons, Listener.replay_append]

/-- What datagrams tell in sequence is what each tells by itself. -/
theorem told_eq_flatMap (payloads : List Bytes) : told payloads = payloads.flatMap callbacks := by
  rw [told, handleAll, foldl_handle, Listener.replay_recorder]
  rfl

/-- Whatever a decoder has been given before, a datagram does to it what it does
    to a new one. So a run tells what its datagrams tell alone, and to put one
    more among them or to take it out, whether it can be decoded or not, changes
    nothing in what the others tell. -/
theorem datagrams_apart :
    (∀ {σ : Type} (listen : Listener σ) (payload : Bytes) (d : Decoder) (s : σ),
      LikeFresh d payload (decode listen payload d s) (decode listen payload {} s)) ∧
    (∀ {σ : Type} (listen : Listener σ) (payloads : List Bytes) (d : Decoder) (s : σ),
      (payloads.foldl (fun state payload => handle listen payload state) (d, s)).2
        = listen.replay (payloads.flatMap callbacks) s) ∧
    (∀ payloads, told payloads = payloads.flatMap callbacks) ∧
    ∀ front bad back,
      told (front ++ bad :: back) = told front ++ (callbacks bad ++ told back) ∧
        told (front ++ back) = told front ++ told back := by
  refine ⟨decode_likeFresh, foldl_handle, told_eq_flatMap, ?_⟩
  intro front bad back
  simp only [told_eq_flatMap, List.flatMap_append, List.flatMap_cons, true_and]

end Consumer

end MarketFeed
