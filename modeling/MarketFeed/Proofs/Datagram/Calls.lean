import MarketFeed.Proofs.Datagram.EntryCount

/-!
# Call by Call

What a decoder has counted and which frame it shows, told from the datagrams.

A counter is changed where a message is dispatched, where a frame has no
template, or when a call is over, and in between a call can end in a dozen
ways. All of them fall on the course of the datagram. The messages on it move
their own counter and leave their frame behind, one after the other. At its
end there is the declared size, and nothing is read; or a frame, and then it
is either passed over, and the call succeeds, or it belongs to what could not
be read, and the call fails; or too few octets for a frame.

So the frames that are read are those of the messages and at most one more,
and the frame that is shown after the call is the last of them. Which of the
ends it was decides the count of unknown templates and the count of errors,
and none of the ends touches what was counted of the messages in front of it.

## Main definitions

* `Course.frames`: The frames that are read of a datagram.
* `Course.endsUnknown`: Reading stops at a frame without a template.
* `Course.tally`: What a datagram adds to the counts.
* `Course.Recorded`: A call returned, told, showed and counted that.

## Theorems

* `lastFrame_stride`: A frame that is read is shown, whatever comes of it.
* `walk_end`: What is counted and shown where reading stops.
* `Course.Of.recorded`: Every call is recorded on its course.
* `stats_foldl_handle`: Calls add up.
* `calls_accounted`: One call, and any sequence of calls.
-/

namespace MarketFeed

/-! ## Kinds of messages -/

/-- The message is a change to an order. -/
def Message.isUpdate : Message → Bool
  | .update _ => true
  | _ => false

/-- The message is a trade. -/
def Message.isExecution : Message → Bool
  | .execution _ => true
  | _ => false

/-- The message is the state of a book. -/
def Message.isSnapshot : Message → Bool
  | .snapshot _ => true
  | _ => false

/-- Every message is of one of the three kinds. -/
theorem Message.countP_kinds (messages : List Message) :
    messages.countP isUpdate + messages.countP isExecution + messages.countP isSnapshot
      = messages.length := by
  induction messages with
  | nil => rfl
  | cons m messages ih =>
      cases m <;>
        simp only [List.countP_cons, List.length_cons, isUpdate, isExecution, isSnapshot,
          if_true, Bool.false_eq_true, if_false] <;>
        omega

namespace DecoderStats

theorem add_eq (before more : DecoderStats) :
    before + more
      = { datagrams := before.datagrams + more.datagrams
          orderUpdates := before.orderUpdates + more.orderUpdates
          orderExecutions := before.orderExecutions + more.orderExecutions
          orderBookSnapshots := before.orderBookSnapshots + more.orderBookSnapshots
          snapshotEntries := before.snapshotEntries + more.snapshotEntries
          unknownTemplates := before.unknownTemplates + more.unknownTemplates
          decodeErrors := before.decodeErrors + more.decodeErrors } := rfl

theorem messages_add (before more : DecoderStats) :
    (before + more).messages = before.messages + more.messages := by
  simp only [add_eq, messages]
  omega

end DecoderStats

/-- The frame announces none of the templates that are known. -/
def MessageFrame.isUnknown (frame : MessageFrame) : Bool :=
  decide (frame.templateId ∉ [15, 16, 17])

/-! ## Through the messages -/

namespace Framed

/-- Each message moves its own counter and leaves its frame behind. -/
theorem foldl_after (messages : List Framed) (d : Decoder) :
    (messages.foldl (fun d m => m.after d) d).stats
        = { d.stats with
            orderUpdates := d.stats.orderUpdates + (messages.map message).countP Message.isUpdate
            orderExecutions :=
              d.stats.orderExecutions + (messages.map message).countP Message.isExecution
            orderBookSnapshots :=
              d.stats.orderBookSnapshots + (messages.map message).countP Message.isSnapshot
            snapshotEntries := d.stats.snapshotEntries + (messages.map kept).sum } ∧
      (messages.foldl (fun d m => m.after d) d).lastFrame
        = (messages.map frame).getLast?.or d.lastFrame := by
  -- Only the last frame is seen in the end, and each count grows at its own
  -- kind.
  induction messages generalizing d with
  | nil => exact ⟨rfl, rfl⟩
  | cons m messages ih =>
      rw [List.foldl_cons]
      refine ⟨?_, ?_⟩
      · rw [(ih _).1]
        cases m <;>
          simp only [after, Decoder.count, kept, message, List.map_cons, List.countP_cons,
            List.sum_cons, Message.isUpdate, Message.isExecution, Message.isSnapshot, if_true,
            Bool.false_eq_true, if_false, DecoderStats.mk.injEq, true_and, and_true] <;>
          omega
      · have hshown : (m.after d).lastFrame = some m.frame := by
          cases m <;> rfl
        rw [(ih _).2, hshown, List.map_cons, List.getLast?_cons]
        cases (messages.map frame).getLast? <;> rfl

end Framed

/-! ## Where reading stops -/

namespace Decoder

open Framed

variable {σ : Type} {listen : Listener σ} {payload : Bytes} {offset limit stop n : Nat}
variable {d : Decoder} {s : σ}

/-- The decoder as a step leaves it. -/
def Stride.decoder : Stride σ → Decoder
  | .dispatched _ d _ => d
  | .unknownTemplate d => d
  | .failed _ d => d

theorem lastFrame_update (frame : MessageFrame) :
    (update listen payload offset frame d s).decoder.lastFrame = d.lastFrame := by
  unfold update
  split
  · split <;> rfl
  · rfl

theorem lastFrame_execution (frame : MessageFrame) :
    (execution listen payload offset frame d s).decoder.lastFrame = d.lastFrame := by
  unfold execution
  split
  · split <;> rfl
  · rfl

theorem lastFrame_snapshot (frame : MessageFrame) :
    (snapshot listen payload offset frame d s).decoder.lastFrame = d.lastFrame := by
  unfold snapshot
  simp only
  split
  · rfl
  · split
    · rfl
    · split
      · rfl
      · split
        · rfl
        · split <;> rfl

/-- A frame that is read is shown from then on, whatever comes of it. -/
theorem lastFrame_stride :
    (stride listen payload offset d s).decoder.lastFrame
      = (MessageFrame.read payload offset).toOption.or d.lastFrame := by
  unfold stride
  split
  · next e hread =>
    rw [hread]
    rfl
  · next frame hread =>
    rw [hread]
    simp only
    split
    · rfl
    · exact lastFrame_update frame
    · exact lastFrame_execution frame
    · exact lastFrame_snapshot frame

/-- The frame that is read at an offset, if one may begin there. -/
def frameAt (payload : Bytes) (limit stop : Nat) : Option MessageFrame :=
  if stop < limit then (MessageFrame.read payload stop).toOption else none

/-- A frame is unknown exactly if its number stands for no template. -/
theorem isUnknown_iff {frame : MessageFrame} :
    frame.isUnknown ↔ Template.ofNumber? frame.templateId = none := by
  rw [ofNumber?_eq_none_iff, MessageFrame.isUnknown, decide_eq_true_iff]
  simp only [List.mem_cons, List.not_mem_nil, or_false, not_or, ne_eq]

/-- A frame at which there is an error has a template. Without one it would not be
    an error. -/
theorem isUnknown_of_failed {e : DecodeError} {d' : Decoder}
    (hfailed : stride listen payload stop d s = .failed e d') :
    ∀ frame ∈ (MessageFrame.read payload stop).toOption, frame.isUnknown = false := by
  intro frame hmem
  cases hframe : MessageFrame.read payload stop with
  | error e =>
      rw [hframe] at hmem
      cases hmem
  | ok found =>
      rw [hframe] at hmem
      cases hmem
      by_contra hunknown
      have hkind := isUnknown_iff.mp ((Bool.not_eq_false _).mp hunknown)
      simp only [stride, hframe, hkind] at hfailed
      cases hfailed

/-- Where no message begins, nothing is counted but a frame without a template
    and the entries of a torn snapshot. A frame that is read there is shown. It
    has no template if the walk succeeds, and one if it fails. -/
theorem walk_end (listen : Listener σ) (n : Nat) (d : Decoder) (s : σ)
    (hlast : stop < limit → ¬ Begins (payload.drop stop)) :
    (∃ entries, (walk listen payload limit stop n d s).decoder.stats
        = { d.stats with
            snapshotEntries := entries
            unknownTemplates := d.stats.unknownTemplates
              + if (frameAt payload limit stop).any (·.isUnknown) then 1 else 0 }) ∧
      (walk listen payload limit stop n d s).decoder.lastFrame
        = (frameAt payload limit stop).or d.lastFrame ∧
      ∀ frame ∈ frameAt payload limit stop,
        frame.isUnknown = (walk listen payload limit stop n d s).result.isOk := by
  rw [walk]
  by_cases hlimit : stop < limit
  · have hshown := @lastFrame_stride σ listen payload stop d s
    rw [if_pos hlimit]
    simp only [frameAt, if_pos hlimit]
    rcases stride_cases payload stop d with ⟨m, rest, hwell, hstands, -⟩ |
      ⟨frame, hframe, hkind, hpassed⟩ | ⟨e, last, entries, -, hfailed⟩
    · exact absurd (exists_stands_iff_begins.mp ⟨m, hwell, rest, hstands.symm⟩) (hlast hlimit)
    · have hunknown := isUnknown_iff.mpr hkind
      rw [hpassed] at hshown ⊢
      rw [hframe] at hshown ⊢
      refine ⟨⟨d.stats.snapshotEntries, ?_⟩, hshown, ?_⟩
      · simp only [Except.toOption, Option.any_some, hunknown, if_true]
        rfl
      · rintro _ ⟨⟩
        exact hunknown
    · have hknown := isUnknown_of_failed (hfailed listen s)
      have hnone : (MessageFrame.read payload stop).toOption.any (·.isUnknown) = false :=
        (Option.any_eq_false _ _).mpr fun frame hmem =>
          Bool.not_eq_true _ ▸ hknown frame hmem
      rw [hfailed] at hshown ⊢
      refine ⟨⟨d.stats.snapshotEntries + entries, ?_⟩, hshown, hknown⟩
      rw [hnone]
      rfl
  · rw [if_neg hlimit]
    simp only [frameAt, if_neg hlimit]
    exact ⟨⟨d.stats.snapshotEntries, rfl⟩, rfl, fun frame hmem => by cases hmem⟩

theorem frameAt_of_short (h : payload.length < stop + Layout.frame.size) :
    frameAt payload limit stop = none := by
  have hnone : payload.window? stop Layout.frame.size = none :=
    Bytes.window?_eq_none_iff.mpr h
  rw [frameAt, MessageFrame.read, Layout.block, hnone]
  exact ite_self none

/-- An error is counted when the reading is over, and nothing else is. -/
theorem decoder_decode :
    (decode listen payload d s).decoder
      = (readPayload listen payload d.start s).decoder.count fun c =>
          { c with decodeErrors := c.decodeErrors + if (outcome payload).isOk then 0 else 1 } := by
  rw [← result_eq_outcome listen payload d s, result_decode, decode_eq]

end Decoder

/-! ## One call -/

namespace Course

open Framed Decoder

/-- The frame at which reading stops, if there is one. -/
def halted (payload : Bytes) (c : Course) : Option MessageFrame :=
  frameAt payload (Envelope.front payload).messageSize.toNat c.stop

/-- The frames that are read, in order: those of the messages that are told, and
    the one at which reading stops. -/
def frames (payload : Bytes) (c : Course) : List MessageFrame :=
  c.messages.map frame ++ (c.halted payload).toList

/-- Reading stops at a frame that announces no known template. -/
def endsUnknown (payload : Bytes) (c : Course) : Bool := (c.halted payload).any (·.isUnknown)

/-- What a datagram adds to the counts. -/
def tally (payload : Bytes) (c : Course) : DecoderStats where
  datagrams := 1
  orderUpdates := (callbacks payload).countP (·.2.isUpdate)
  orderExecutions := (callbacks payload).countP (·.2.isExecution)
  orderBookSnapshots := (callbacks payload).countP (·.2.isSnapshot)
  snapshotEntries := c.keptTold + c.keptTorn
  unknownTemplates := if c.endsUnknown payload then 1 else 0
  decodeErrors := if (outcome payload).isOk then 0 else 1

/-- What a call returns, tells, shows and counts on its course. A call that
    succeeds has told as many messages as it says. The frame at which reading
    stops has no template if the call succeeds, and one if it fails. -/
structure Recorded {σ : Type} (payload : Bytes) (c : Course) (listen : Listener σ) (d : Decoder)
    (s : σ) : Prop where
  result : (decode listen payload d s).result = outcome payload
  heard : (decode listen payload d s).heard = listen.replay (callbacks payload) s
  stats : (decode listen payload d s).decoder.stats = d.stats + c.tally payload
  lastFrame : (decode listen payload d s).decoder.lastFrame = (c.frames payload).getLast?
  halted : ∀ frame ∈ c.halted payload, frame.isUnknown = (outcome payload).isOk
  quiet : c.endsUnknown payload → outcome payload = .ok (callbacks payload).length
  returned : ∀ n, outcome payload = .ok n → n = (callbacks payload).length ∧
    (decode listen payload d s).decoder.stats.messages = d.stats.messages + n

variable {σ : Type} {payload : Bytes} {c : Course} {listen : Listener σ} {d : Decoder} {s : σ}

/-- Up to the count of entries, reading counts and shows what is on the course. -/
theorem Of.read_end (h : c.Of payload) (listen : Listener σ) (d : Decoder) (s : σ) :
    (∃ entries, (readPayload listen payload d.start s).decoder.stats
        = { d.stats with
            datagrams := d.stats.datagrams + 1
            orderUpdates := d.stats.orderUpdates + (c.tally payload).orderUpdates
            orderExecutions := d.stats.orderExecutions + (c.tally payload).orderExecutions
            orderBookSnapshots :=
              d.stats.orderBookSnapshots + (c.tally payload).orderBookSnapshots
            snapshotEntries := entries
            unknownTemplates := d.stats.unknownTemplates + (c.tally payload).unknownTemplates }) ∧
      (readPayload listen payload d.start s).decoder.lastFrame = (c.frames payload).getLast? ∧
      ∀ frame ∈ c.halted payload, frame.isUnknown = (outcome payload).isOk := by
  have htold : ∀ p : Message → Bool,
      (callbacks payload).countP (fun one => p one.2) = (c.messages.map message).countP p := by
    intro p
    rw [h.told, Framed.told, List.countP_map, List.countP_map]
    rfl
  rw [← result_eq_outcome listen payload d s, result_decode, frames]
  simp only [tally, htold]
  by_cases hfull : (Envelope.front payload).bodyOffset ≤ payload.length
  · have hstart : (headed payload d.start).stats = d.start.stats ∧
        (headed payload d.start).lastFrame = none := by
      unfold headed
      simp only
      split <;> exact ⟨rfl, rfl⟩
    rw [readPayload_of_laid hfull h.laid]
    rcases foldl_after c.messages (headed payload d.start) with ⟨hcounted, hshown⟩
    rcases walk_end listen c.messages.length
      (c.messages.foldl (fun d m => m.after d) (headed payload d.start))
      (c.messages.foldl (fun s m => listen (.front payload) m.message s) s) h.last
      with ⟨⟨entries, hstats⟩, hlast, hhalted⟩
    rw [hcounted, hstart.1] at hstats
    rw [hshown, hstart.2, Option.or_none] at hlast
    refine ⟨⟨entries, hstats⟩, ?_, hhalted⟩
    rw [hlast, List.getLast?_append, halted]
    cases frameAt payload (Envelope.front payload).messageSize.toNat c.stop <;> rfl
  · -- Without its headers a datagram has no frame, and the call fails.
    have hmissing := Nat.not_le.mp hfull
    rcases h.laid.of_drop_eq_nil (List.drop_eq_nil_of_le hmissing.le) with ⟨hmessages, hstop⟩
    have hnone : c.halted payload = none :=
      frameAt_of_short (by rw [hstop]; omega)
    rcases readPayload_of_not_full hmissing with ⟨e, d', hread, hstats, hshown⟩
    rw [hread, hstats, hshown, endsUnknown, hnone, hmessages]
    exact ⟨⟨d.stats.snapshotEntries, rfl⟩, rfl, fun frame hmem => by cases hmem⟩

theorem countP_kinds_told (told : List (Envelope × Message)) :
    told.countP (·.2.isUpdate) + told.countP (·.2.isExecution) + told.countP (·.2.isSnapshot)
      = told.length := by
  have hkinds := Message.countP_kinds (told.map (·.2))
  rwa [List.countP_map, List.countP_map, List.countP_map, List.length_map] at hkinds

theorem messages_tally : (c.tally payload).messages = (callbacks payload).length :=
  countP_kinds_told _

/-- A call that succeeds says how many messages it has told. -/
theorem Of.returned (h : c.Of payload) {n : Nat} (hok : outcome payload = .ok n) :
    n = (callbacks payload).length := by
  rw [outcome, result_decode] at hok
  by_cases hfull : (Envelope.front payload).bodyOffset ≤ payload.length
  · rw [readPayload_of_laid hfull h.laid] at hok
    rw [h.told, Framed.told, List.length_map]
    by_cases hend : (Envelope.front payload).messageSize.toNat ≤ c.stop ∨ Unknown payload c.stop
    · rw [(walk_stop h.last).2.1 hend] at hok
      cases hok
      rfl
    · rcases (walk_stop h.last).2.2 hend with ⟨e, herror⟩
      rw [herror] at hok
      cases hok
  · rcases readPayload_of_not_full (Nat.not_le.mp hfull) with ⟨e, d', hread, -⟩
    rw [hread] at hok
    cases hok

/-- A call on its course is recorded, whatever the decoder has seen before. -/
theorem Of.recorded (h : c.Of payload) : c.Recorded payload listen d s := by
  rcases h.read_end listen d s with
    ⟨⟨entries, hcounted⟩, hshown, hhalted⟩
  have hstats : (decode listen payload d s).decoder.stats = d.stats + c.tally payload := by
    have hentries := h.kept_decode listen d s
    rw [decoder_decode, Decoder.count, hcounted] at hentries ⊢
    simp only at hentries
    rw [hentries]
    rfl
  exact {
    result := result_eq_outcome listen payload d s
    heard := heard_eq_replay listen payload d s
    stats := hstats
    lastFrame := by
      rw [decoder_decode]
      exact hshown
    halted := hhalted
    quiet := by
      intro hunknown
      rcases Option.any_eq_true _ _ |>.mp hunknown with ⟨frame, hmem, hframe⟩
      rw [hhalted frame hmem] at hframe
      cases hok : outcome payload with
      | error e =>
          rw [hok] at hframe
          cases hframe
      | ok n => rw [h.returned hok]
    returned := by
      intro n hok
      refine ⟨h.returned hok, ?_⟩
      rw [hstats, DecoderStats.messages_add, messages_tally, h.returned hok]
  }

end Course

/-! ## A sequence of calls -/

namespace Consumer

open Decoder

variable {σ : Type} {listen : Listener σ} {payloads : List Bytes} {courses : List Course}

/-- The results of calls in sequence are the outcomes of the datagrams by
    themselves. -/
theorem result_decodeAll (listen : Listener σ) (payloads : List Bytes) (d : Decoder) (s : σ) :
    (decodeAll listen payloads d s).map (·.result) = payloads.map outcome := by
  induction payloads generalizing d s with
  | nil => rfl
  | cons payload rest ih => simp only [decodeAll, List.map_cons, result_eq_outcome, ih]

/-- Calls add up, whatever was counted before. -/
theorem stats_foldl_handle (listen : Listener σ)
    (h : List.Forall₂ Course.Of payloads courses) (d : Decoder) (s : σ) :
    (payloads.foldl (fun state payload => handle listen payload state) (d, s)).1.stats
      = { datagrams := d.stats.datagrams + payloads.length
          orderUpdates :=
            d.stats.orderUpdates + (payloads.flatMap callbacks).countP (·.2.isUpdate)
          orderExecutions :=
            d.stats.orderExecutions + (payloads.flatMap callbacks).countP (·.2.isExecution)
          orderBookSnapshots :=
            d.stats.orderBookSnapshots + (payloads.flatMap callbacks).countP (·.2.isSnapshot)
          snapshotEntries := d.stats.snapshotEntries
            + ((courses.map Course.keptTold).sum + (courses.map Course.keptTorn).sum)
          unknownTemplates := d.stats.unknownTemplates
            + (payloads.zip courses).countP fun call => call.2.endsUnknown call.1
          decodeErrors := d.stats.decodeErrors
            + (payloads.map outcome).countP fun result => !result.isOk } := by
  induction h generalizing d s with
  | nil => rfl
  | @cons payload c payloads courses hof hrest ih =>
      have herror : (if (!(outcome payload).isOk) = true then 1 else 0)
          = if (outcome payload).isOk = true then 0 else 1 := by
        cases (outcome payload).isOk <;> rfl
      rw [List.foldl_cons, handle, ih, hof.recorded.stats]
      simp only [DecoderStats.add_eq, Course.tally, List.flatMap_cons, List.countP_append,
        List.zip_cons_cons, List.countP_cons, List.map_cons, List.sum_cons, List.length_cons,
        herror, DecoderStats.mk.injEq]
      exact ⟨by omega, by omega, by omega, by omega, by omega, by omega, by omega⟩

/-- What a new decoder has counted after a sequence of calls. -/
structure Totals (payloads : List Bytes) (courses : List Course) (listen : Listener σ)
    (first : σ) : Prop where
  datagrams : (handleAll listen payloads first).1.stats.datagrams = payloads.length
  decodeErrors : (handleAll listen payloads first).1.stats.decodeErrors
    = (decodeAll listen payloads {} first).countP fun call => !call.result.isOk
  orderUpdates : (handleAll listen payloads first).1.stats.orderUpdates
    = (told payloads).countP (·.2.isUpdate)
  orderExecutions : (handleAll listen payloads first).1.stats.orderExecutions
    = (told payloads).countP (·.2.isExecution)
  orderBookSnapshots : (handleAll listen payloads first).1.stats.orderBookSnapshots
    = (told payloads).countP (·.2.isSnapshot)
  unknownTemplates : (handleAll listen payloads first).1.stats.unknownTemplates
    = (payloads.zip courses).countP fun call => call.2.endsUnknown call.1

/-- Every call of a decoder is recorded on the course of its datagram, whatever
    the decoder was given before, and the counts of a sequence of calls are
    those of its calls and of all that they told. -/
theorem calls_accounted :
    (∀ payload, ∃ c : Course, c.Of payload ∧
      ∀ {σ : Type} (listen : Listener σ) (d : Decoder) (s : σ), c.Recorded payload listen d s) ∧
    ∀ payloads, ∃ courses, List.Forall₂ Course.Of payloads courses ∧
      ∀ {σ : Type} (listen : Listener σ) (first : σ), Totals payloads courses listen first := by
  choose course hof using Course.exists_of
  refine ⟨fun payload => ⟨course payload, hof payload, fun listen d s => (hof payload).recorded⟩,
    fun payloads => ?_⟩
  have hall : List.Forall₂ Course.Of payloads (payloads.map course) :=
    List.forall₂_map_right_iff.mpr (List.forall₂_same.mpr fun payload _ => hof payload)
  refine ⟨payloads.map course, hall, fun listen first => ?_⟩
  have hstats := stats_foldl_handle listen hall {} first
  have herrors : (decodeAll listen payloads {} first).countP (fun call => !call.result.isOk)
      = (payloads.map outcome).countP fun result => !result.isOk := by
    rw [← result_decodeAll listen payloads {} first, List.countP_map]
    rfl
  have hcount : ∀ (count : DecoderStats → Nat), count (handleAll listen payloads first).1.stats
      = _ := fun count => congrArg count hstats
  rw [← told_eq_flatMap] at hcount
  exact {
    datagrams := (hcount (·.datagrams)).trans (Nat.zero_add _)
    decodeErrors := herrors ▸ (hcount (·.decodeErrors)).trans (Nat.zero_add _)
    orderUpdates := (hcount (·.orderUpdates)).trans (Nat.zero_add _)
    orderExecutions := (hcount (·.orderExecutions)).trans (Nat.zero_add _)
    orderBookSnapshots := (hcount (·.orderBookSnapshots)).trans (Nat.zero_add _)
    unknownTemplates := (hcount (·.unknownTemplates)).trans (Nat.zero_add _) }

end Consumer

end MarketFeed
