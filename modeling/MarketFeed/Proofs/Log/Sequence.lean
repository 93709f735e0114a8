import MarketFeed.Proofs.Log.Live

/-!
# Frames Follow Each Other

What is written to a log frame by frame comes back frame by frame.

A call of the reader takes the front frame off what the call before has left.
If frames that fit were written there, the calls return them one after the
other, and each takes the eight octets in front of the content, the content,
and nothing more. So whatever follows the frames is still there when they have
been read: the octets of a frame tell where it ends.

That the content comes back is the round trip of the codec, one frame at a
time, and the stream is the induction on its frames. The reading of a whole
log is these calls in a loop.

A frame fits unless it is very long. Only the header and a snapshot grow with
what they hold, and a snapshot of a datagram has no more levels than one octet
can count, so every message that a decoder tells fits.

## Main definitions

* `Log.TakenOff`: These frames are taken off an input, one by each call.

## Theorems

* `takenOff_flatMap`: Frames that fit are taken off where they were written.
* `TakenOff.readFrom_eq`: The loop over a log is these calls.
* `frames_come_back`: Both, and that what a decoder tells fits.
-/

namespace MarketFeed

namespace Log

/-- These frames are taken off the input by one call each, which leaves `rest`.
    A call takes eight octets beside the content of its frame. -/
inductive TakenOff : Bytes → List LogFrame → Bytes → Prop
  | done {rest : Bytes} : TakenOff rest [] rest
  | call {input next rest : Bytes} {f : LogFrame} {frames : List LogFrame}
      (hread : LogFrame.read? input = .ok (some (f, next)))
      (htaken : next = input.drop (8 + f.encode.length))
      (hlength : input.length = 8 + f.encode.length + next.length)
      (hmore : TakenOff next frames rest) : TakenOff input (f :: frames) rest

variable {frames : List LogFrame}

/-- Frames that were written are taken off one by one, and the rest stays. -/
theorem takenOff_flatMap (hfits : ∀ f ∈ frames, f.encode.length ≤ LogFrame.maxLength)
    (rest : Bytes) : TakenOff (frames.flatMap LogFrame.octets ++ rest) frames rest := by
  induction frames with
  | nil => exact .done
  | cons f frames ih =>
      rcases List.forall_mem_cons.mp hfits with ⟨hf, hframes⟩
      rw [List.flatMap_cons, List.append_assoc]
      refine .call (LogFrame.read?_octets hf _) (f.drop_octets _).symm ?_ (ih hframes)
      rw [List.length_append, LogFrame.length_octets]

/-- Frames that are taken off have been read when the rest is. -/
theorem TakenOff.readFrom_eq {input rest : Bytes} (h : TakenOff input frames rest)
    (found : Array LogFrame) : readFrom input found = readFrom rest (found ++ frames.toArray) := by
  induction h generalizing found with
  | done => rw [Array.append_empty]
  | call hread htaken hlength hmore ih => rw [readFrom_some hread, ih, List.push_append_toArray]

/-- Frames that fit come back from the octets they were written to, in order,
    whatever follows them, and what follows them is left. A log reads on with
    it behind these frames. A record fits that is made of a message a decoder
    has told, since a snapshot among them has few levels. -/
theorem frames_come_back :
    (∀ (frames : List LogFrame) (rest : Bytes),
      (∀ f ∈ frames, f.encode.length ≤ LogFrame.maxLength) →
        TakenOff (frames.flatMap LogFrame.octets ++ rest) frames rest ∧
          ∀ found, readFrom (frames.flatMap LogFrame.octets ++ rest) found
            = readFrom rest (found ++ frames.toArray)) ∧
    ∀ (payloads : List Bytes) (one : Envelope × Message), one ∈ Consumer.told payloads →
      (∀ seq, (LogFrame.record ⟨seq, one.1, .ofMessage one.2⟩).encode.length
        ≤ LogFrame.maxLength) ∧
      ∀ s, one.2 = .snapshot s → s.size ≤ 255 := by
  constructor
  · intro frames rest hfits
    have htaken := takenOff_flatMap hfits rest
    exact ⟨htaken, htaken.readFrom_eq⟩
  · intro payloads one hone
    have hheld := Consumer.ofDatagram_of_mem_told hone
    refine ⟨fun seq => LogFrame.fits_record hheld seq one.1, ?_⟩
    intro s hs
    rw [hs] at hheld
    exact hheld.snapshot.2

/-- A record of a change with codes that have no meaning. -/
def strangeRecord : LogFrame :=
  .record ⟨3, { messageSize := 74 }, .update ⟨1, 2, -3, 4, 5, 6, 7, .unknown 9, .unknown 7⟩⟩

/-- A bid of five at a hundred. -/
def plainBid : BookEntry := ⟨1, 0, 100, 5, 0, 0, 0, .bid⟩

/-- A datagram with a snapshot of one bid. -/
def plainSnapshot : Bytes :=
  Envelope.toBlock { messageSize := 100 } ++
    (MessageFrame.toBlock { blockLength := 16, templateId := 17 } ++
      (SnapshotHeader.toBlock { securityId := 7 } ++
        (GroupSize.toBlock { blockSize := 57, numInGroup := 1 } ++ plainBid.toBlock)))

theorem frames_come_back_strangeRecord :
    TakenOff ([plainHeader, strangeRecord].flatMap LogFrame.octets ++ [4, 2])
        [plainHeader, strangeRecord] [4, 2] ∧
      ∃ one, Consumer.told [plainSnapshot] = [one] ∧
        one.2 = .snapshot { header := { securityId := 7 }, bids := [(100, plainBid)] } ∧
        (LogFrame.record ⟨8, one.1, .ofMessage one.2⟩).encode.length ≤ LogFrame.maxLength := by
  have hfits : ∀ f ∈ [plainHeader, strangeRecord], f.encode.length ≤ LogFrame.maxLength := by
    decide +kernel
  have htold : Consumer.told [plainSnapshot] = [({ messageSize := 100 },
      .snapshot { header := { securityId := 7 }, bids := [(100, plainBid)] })] := by
    decide +kernel
  refine ⟨(frames_come_back.1 _ [4, 2] hfits).1, _, htold, rfl, ?_⟩
  refine (frames_come_back.2 [plainSnapshot] _ ?_).1 8
  rw [htold]
  exact List.mem_singleton_self _

end Log

end MarketFeed
