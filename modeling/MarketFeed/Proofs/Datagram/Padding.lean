import MarketFeed.Proofs.Datagram.Isolation
import MarketFeed.Proofs.Datagram.Walk

/-!
# What Is Behind the Last Octet

Cutting a datagram or adding to it, and what the decoder makes of it.

A structure that is read from some octets is read alike with more octets
behind them, since its window is the same. A structure that is not there in
full is an error that says so. These are the only ways in which the length of
a payload shows in the decoder, and every function of it hands them on: either
the octets ran out and the reading ends with that error, or more of them
behind the last change nothing. Two readings are in step up to the first
window that only one of them can fill.

So octets that are put behind a datagram can only add to what is told of it,
and they add nothing unless the datagram broke off. What lies behind the
datagram in its packet stays behind it when the headers are taken off, hence
the same holds of a packet with padding.

## Main definitions

* `DecodeError.IsTruncated`, `RanOut`: The octets did not suffice.
* `Padded`: More octets behind the last change nothing, unless they ran out.
* `Reading.Continues`: A reading goes on where another ran out, or is the
  same.
* `Decoder.outcome`: How a datagram ends, taken alone.

## Theorems

* `Layout.padded`, `readEntries_padded`, `stride_padded`, `walk_padded`,
  `decode_padded`: The same reading, unless the octets ran out.
* `payload_padded`: Padding of a packet is padding of its datagram.
* `padding_says_nothing`: Both, for single datagrams and among packets.
-/

namespace MarketFeed

/-- The error says that a structure runs past the end of the payload. -/
def DecodeError.IsTruncated : DecodeError → Prop
  | .truncated .. => True
  | .blockLengthMismatch .. | .groupBlockTooSmall .. => False

/-- The octets ran out before the reading was done. -/
def RanOut {α : Type} (outcome : Except DecodeError α) : Prop :=
  ∃ e : DecodeError, e.IsTruncated ∧ outcome = .error e

/-- Reading is the same with more octets behind, unless the octets ran out. -/
def Padded {α : Type} (read : Bytes → Nat → Except DecodeError α) : Prop :=
  ∀ payload more offset,
    read (payload ++ more) offset = read payload offset ∨ RanOut (read payload offset)

/-- A reading of more octets: the same one, or the first ran out of octets, and
    what more is told comes behind what it told. -/
def Reading.Continues {σ : Type} (listen : Listener σ) (before after : Reading σ) : Prop :=
  after = before ∨
    RanOut before.result ∧ ∃ told, after.heard = listen.replay told before.heard

variable {α : Type} {input more found : Bytes} {offset size : Nat}

/-! ## Windows -/

theorem not_ranOut_ok {x : α} : ¬ RanOut (.ok x) := by
  rintro ⟨e, -, h⟩
  cases h

/-- A window that is there stays there when more octets follow. -/
theorem Bytes.window?_padded (h : input.window? offset size = some found) :
    (input ++ more).window? offset size = some found := by
  rcases window?_eq_some_iff.mp h with ⟨hfits, rfl⟩
  refine window?_eq_some_iff.mpr ⟨by rw [List.length_append]; omega, ?_⟩
  rw [List.drop_append_of_le_length (by omega), List.take_append_of_le_length]
  rw [List.length_drop]
  omega

/-- Whatever structure is read in a window, more octets change nothing. -/
theorem Layout.padded (layout : Layout) (ofBlock : Bytes → α) :
    Padded fun payload offset => (layout.block payload offset).map ofBlock := by
  intro payload more offset
  unfold block
  simp only
  cases hwindow : payload.window? offset layout.size with
  | some found =>
      rw [Bytes.window?_padded hwindow]
      exact Or.inl rfl
  | none => exact Or.inr ⟨layout.truncatedAt payload offset layout.size, trivial, rfl⟩

/-- Entries read the same when more octets follow, unless they ran out. -/
theorem Snapshot.readEntries_padded (payload more : Bytes) (stride count offset k : Nat)
    (s : Snapshot) :
    readEntries (payload ++ more) stride count offset s k
        = readEntries payload stride count offset s k ∨
      RanOut (readEntries payload stride count offset s k).1 := by
  have hentry : Padded BookEntry.read := Layout.entry.padded BookEntry.ofBlock
  induction count generalizing offset s k with
  | zero => exact Or.inl rfl
  | succ count ih =>
      -- The check for room is made before an entry is read, so it is there that
      -- octets run out.
      by_cases hroom : payload.length - offset < stride
      · refine Or.inr ⟨Layout.entry.truncatedAt payload offset stride, trivial, ?_⟩
        rw [readEntries, if_pos hroom]
      · have hroom' : ¬ (payload ++ more).length - offset < stride := by
          rw [List.length_append]
          omega
        simp only [readEntries, if_neg hroom, if_neg hroom']
        rcases hentry payload more offset with hsame | ⟨e, he, hout⟩
        · rw [hsame]
          cases BookEntry.read payload offset with
          | error e => exact Or.inl rfl
          | ok entry => exact ih _ _ _
        · rw [hout]
          exact Or.inr ⟨e, he, rfl⟩

namespace Decoder

variable {σ : Type} {listen : Listener σ} {payload : Bytes} {d : Decoder} {s : σ}

/-! ## One message -/

/-- The octets ran out within a frame or its message. -/
def Stride.RanOut (stride : Stride σ) : Prop :=
  ∃ (e : DecodeError) (d : Decoder), e.IsTruncated ∧ stride = .failed e d

theorem update_padded (payload more : Bytes) (offset : Nat) (frame : MessageFrame) :
    update listen (payload ++ more) offset frame d s = update listen payload offset frame d s ∨
      (update listen payload offset frame d s).RanOut := by
  have hupdate : Padded OrderUpdate.read := Layout.update.padded OrderUpdate.ofBlock
  unfold update
  split
  · rcases hupdate payload more offset with hsame | ⟨e, he, hout⟩
    · rw [hsame]
      exact Or.inl rfl
    · rw [hout]
      exact Or.inr ⟨e, d, he, rfl⟩
  · exact Or.inl rfl

theorem execution_padded (payload more : Bytes) (offset : Nat) (frame : MessageFrame) :
    execution listen (payload ++ more) offset frame d s
        = execution listen payload offset frame d s ∨
      (execution listen payload offset frame d s).RanOut := by
  have hexecution : Padded OrderExecution.read := Layout.execution.padded OrderExecution.ofBlock
  unfold execution
  split
  · rcases hexecution payload more offset with hsame | ⟨e, he, hout⟩
    · rw [hsame]
      exact Or.inl rfl
    · rw [hout]
      exact Or.inr ⟨e, d, he, rfl⟩
  · exact Or.inl rfl

theorem snapshot_padded (payload more : Bytes) (offset : Nat) (frame : MessageFrame) :
    snapshot listen (payload ++ more) offset frame d s
        = snapshot listen payload offset frame d s ∨
      (snapshot listen payload offset frame d s).RanOut := by
  -- The four parts in the order in which they are looked for.
  have hheader : Padded SnapshotHeader.read := Layout.snapshotHeader.padded SnapshotHeader.ofBlock
  have hgroup : Padded GroupSize.read := Layout.group.padded GroupSize.ofBlock
  unfold snapshot
  simp only
  split
  · exact Or.inl rfl
  · rcases hheader payload more offset with hsame | ⟨e, he, hout⟩
    · rw [hsame]
      cases SnapshotHeader.read payload offset with
      | error e => exact Or.inl rfl
      | ok header =>
          rcases hgroup payload more (offset + frame.blockLength.toNat) with
            hsame | ⟨e, he, hout⟩
          · simp only [hsame]
            cases GroupSize.read payload (offset + frame.blockLength.toNat) with
            | error e => exact Or.inl rfl
            | ok group =>
                simp only
                split
                · exact Or.inl rfl
                · rcases Snapshot.readEntries_padded payload more group.blockSize.toNat
                    group.numInGroup.toNat
                    (offset + frame.blockLength.toNat + Layout.group.size) 0 { header } with
                    hsame | ⟨e, he, hout⟩
                  · rw [hsame]
                    exact Or.inl rfl
                  · rw [hout]
                    exact Or.inr ⟨e, _, he, rfl⟩
          · simp only [hout]
            exact Or.inr ⟨e, d, he, rfl⟩
    · rw [hout]
      exact Or.inr ⟨e, d, he, rfl⟩

/-- A frame and its message read the same when more octets follow, unless they
    ran out. -/
theorem stride_padded (payload more : Bytes) (offset : Nat) (d : Decoder) (s : σ) :
    stride listen (payload ++ more) offset d s = stride listen payload offset d s ∨
      (stride listen payload offset d s).RanOut := by
  have hframe : Padded MessageFrame.read := Layout.frame.padded MessageFrame.ofBlock
  unfold stride
  rcases hframe payload more offset with hsame | ⟨e, he, hout⟩
  · rw [hsame]
    cases MessageFrame.read payload offset with
    | error e => exact Or.inl rfl
    | ok frame =>
        simp only
        split
        · exact Or.inl rfl
        · exact update_padded payload more _ frame
        · exact execution_padded payload more _ frame
        · exact snapshot_padded payload more _ frame
  · rw [hout]
    exact Or.inr ⟨e, d, he, rfl⟩

/-! ## A whole datagram -/

/-- A walk tells a listener messages. -/
theorem walk_tells (listen : Listener σ) (payload : Bytes) (limit offset n : Nat) (d : Decoder)
    (s : σ) : ∃ told, (walk listen payload limit offset n d s).heard = listen.replay told s := by
  refine walk_keeps (I := fun heard => ∃ told, heard = listen.replay told s) ?_ limit offset n d
    ⟨[], rfl⟩
  rintro e m heard - ⟨told, rfl⟩
  exact ⟨told ++ [(e, m.message)], (listen.replay_concat told (e, m.message) s).symm⟩

/-- With more octets a walk is the same, or goes on where they ran out. -/
theorem walk_padded (payload more : Bytes) (limit offset n : Nat) (d : Decoder) (s : σ) :
    Reading.Continues listen (walk listen payload limit offset n d s)
      (walk listen (payload ++ more) limit offset n d s) := by
  -- The walks make the same steps up to the first that runs out of octets in
  -- one of them, and what the other tells from there on is more.
  fun_induction walk listen payload limit offset n d s with
  | case1 offset n d s hlimit used d' s' hstride ih =>
      rcases stride_padded payload more offset d s with hsame | ⟨e, d'', he, hout⟩
      · have hlong : walk listen (payload ++ more) limit offset n d s
            = walk listen (payload ++ more) limit (offset + Layout.frame.size + used) (n + 1) d'
                s' := by
          rw [walk, if_pos hlimit, hsame, hstride]
        rw [hlong]
        exact ih
      · rw [hstride] at hout
        cases hout
  | case2 offset n d s hlimit d' hstride =>
      rcases stride_padded payload more offset d s with hsame | ⟨e, d'', he, hout⟩
      · rw [walk, if_pos hlimit, hsame, hstride]
        exact Or.inl rfl
      · rw [hstride] at hout
        cases hout
  | case3 offset n d s hlimit e d' hstride =>
      rcases stride_padded payload more offset d s with hsame | ⟨e, d'', he, hout⟩
      · rw [walk, if_pos hlimit, hsame, hstride]
        exact Or.inl rfl
      · rw [hstride] at hout
        cases hout
        exact Or.inr ⟨⟨_, he, rfl⟩, walk_tells listen _ _ _ _ _ _⟩
  | case4 offset n d s hlimit =>
      rw [walk, if_neg hlimit]
      exact Or.inl rfl

/-- With more octets decoding is the same, or goes on where they ran out. -/
theorem decode_padded (listen : Listener σ) (payload more : Bytes) (d : Decoder) (s : σ) :
    Reading.Continues listen (decode listen payload d s)
      (decode listen (payload ++ more) d s) := by
  -- Where a header is missing nothing has been told, so all that is told of
  -- the longer payload is more.
  have htells : ∃ told, (readPayload listen (payload ++ more) d.start s).heard
      = listen.replay told s := by
    rw [← heard_decode]
    exact ⟨_, heard_eq_replay listen (payload ++ more) d s⟩
  have hread : Reading.Continues listen (readPayload listen payload d.start s)
      (readPayload listen (payload ++ more) d.start s) := by
    have henvelope : Padded Envelope.read := Layout.envelope.padded Envelope.ofBlock
    have hincremental : Padded IncrementalHeader.read :=
      Layout.incremental.padded IncrementalHeader.ofBlock
    rcases henvelope payload more 0 with hsame | ⟨e, he, hout⟩
    · unfold readPayload at htells ⊢
      rw [hsame] at htells ⊢
      cases henvelope : Envelope.read payload 0 with
      | error e => exact Or.inl rfl
      | ok envelope =>
          rw [henvelope] at htells
          simp only at htells ⊢
          split
          · next hflag =>
            rw [if_pos hflag] at htells
            rcases hincremental payload more Layout.envelope.size with hsame | ⟨e, he, hout⟩
            · rw [hsame]
              split
              · exact Or.inl rfl
              · exact walk_padded _ _ _ _ _ _ _
            · rw [hout]
              exact Or.inr ⟨⟨e, he, rfl⟩, htells⟩
          · exact walk_padded _ _ _ _ _ _ _
    · have hmissing : readPayload listen payload d.start s = ⟨.error e, d.start, s⟩ := by
        rw [readPayload, hout]
      rw [hmissing]
      exact Or.inr ⟨⟨e, he, rfl⟩, htells⟩
  rcases hread with hsame | ⟨hout, htold⟩
  · refine Or.inl ?_
    simp only [decode, hsame]
  · refine Or.inr ⟨by rwa [result_decode], ?_⟩
    rwa [heard_decode, heard_decode]

/-- How a datagram ends, taken alone. -/
def outcome (payload : Bytes) : Except DecodeError Nat :=
  (decode .recorder payload {} #[]).result

/-- Neither the decoder nor who listens plays a part in how a datagram ends. -/
theorem result_eq_outcome (listen : Listener σ) (payload : Bytes) (d : Decoder) (s : σ) :
    (decode listen payload d s).result = outcome payload := by
  have hreplay := decode_replay listen payload {} #[] s
  rw [(decode_likeFresh listen payload d s).result]
  exact congrArg Reading.result hreplay

/-- Octets behind a payload that had enough of them change nothing. -/
theorem decode_append_of_not_ranOut (h : ¬ RanOut (outcome payload)) (more : Bytes)
    (listen : Listener σ) (d : Decoder) (s : σ) :
    decode listen (payload ++ more) d s = decode listen payload d s := by
  rcases decode_padded listen payload more d s with hsame | ⟨hout, -⟩
  · exact hsame
  · rw [result_eq_outcome] at hout
    exact absurd hout h

/-- Octets behind a payload can only add to what it tells. -/
theorem callbacks_prefix_append (payload more : Bytes) :
    callbacks payload <+: callbacks (payload ++ more) := by
  rcases decode_padded .recorder payload more {} #[] with hsame | ⟨-, told, htold⟩
  · have hequal : callbacks (payload ++ more) = callbacks payload :=
      congrArg (fun r : Reading _ => r.heard.toList) hsame
    exact hequal ▸ List.prefix_refl _
  · rw [callbacks, callbacks, htold, Listener.replay_recorder]
    exact List.prefix_append _ _

end Decoder

/-! ## Packets -/

namespace Packet

variable {packet datagram : Bytes} {header : LinkHeader} {network' : NetworkHeader}

theorem link_padded (h : link packet = .ok header) : link (packet ++ more) = .ok header := by
  unfold link at h ⊢
  cases hwindow : packet.window? 0 linkLength with
  | none => rw [hwindow] at h; cases h
  | some raw =>
      rw [hwindow] at h
      rw [Bytes.window?_padded hwindow]
      exact h

theorem network_padded (h : network input = .ok network') :
    network (input ++ more) = .ok network' := by
  unfold network at h ⊢
  cases hwindow : input.window? 0 networkLength with
  | none => rw [hwindow] at h; cases h
  | some raw =>
      rw [hwindow] at h
      rw [Bytes.window?_padded hwindow]
      simp only at h ⊢
      -- The checks that were passed are passed with more octets as well.
      split at h
      · cases h
      · next hshort =>
        split at h
        · cases h
        · next hroom =>
          rw [if_neg hshort, if_neg (by rw [List.length_append]; omega)]
          exact h

/-- What is behind a datagram in its packet is behind it when it is taken
    out. -/
theorem transport_padded (h : transport input = .ok datagram) :
    transport (input ++ more) = .ok (datagram ++ more) := by
  unfold transport at h ⊢
  split at h
  · cases h
  · next hroom =>
    cases h
    rw [if_neg (by rw [List.length_append]; omega), List.drop_append_of_le_length (by omega)]

/-- Padding of a packet is padding of its datagram. -/
theorem payload_padded (h : payload packet = .ok datagram) (more : Bytes) :
    payload (packet ++ more) = .ok (datagram ++ more) := by
  unfold payload at h ⊢
  cases hlink : link packet with
  | error skip => rw [hlink] at h; cases h
  | ok header =>
      have hfits : linkLength ≤ packet.length :=
        Nat.le_of_not_lt fun hlt => by rw [link_eq_error_iff.mpr ⟨hlt, rfl⟩] at hlink; cases hlink
      rw [hlink] at h
      rw [link_padded hlink, List.drop_append_of_le_length hfits]
      simp only at h ⊢
      cases hnetwork : network (packet.drop linkLength) with
      | error skip => rw [hnetwork] at h; cases h
      | ok network' =>
          rw [hnetwork] at h
          rw [network_padded hnetwork]
          simp only at h ⊢
          split at h
          · next hprotocol =>
            -- There are octets behind the network's header, so it is all there.
            have hroom : network'.length ≤ (packet.drop linkLength).length := by
              unfold transport at h
              split at h
              · cases h
              · next hroom =>
                rw [List.length_drop, transportLength] at hroom
                omega
            rw [if_pos hprotocol, List.drop_append_of_le_length hroom]
            exact transport_padded h
          · cases h

end Packet

open Decoder

/-- A padded packet is counted and heard as the packet is. -/
theorem Filter.pass_padded {σ : Type} {listen : Listener σ} {packet datagram : Bytes}
    (h : Packet.payload packet = .ok datagram) (hfull : ¬ RanOut (outcome datagram))
    (state : FilterStats × Decoder × σ) :
    pass (Consumer.handle listen) (packet ++ more) state
      = pass (Consumer.handle listen) packet state := by
  have hdecode := decode_append_of_not_ranOut hfull more listen state.2.1 state.2.2
  simp only [pass, Packet.payload_padded h, h, tally, Consumer.handle, hdecode]

/-- Octets behind a datagram that decodes, or fails for another reason than a
    lack of them, are as good as none. Behind one that breaks off they can add
    to what is told of it, and take nothing away. Padding behind the datagram
    in a packet is the same as padding of the datagram. -/
theorem Consumer.padding_says_nothing :
    (∀ {σ : Type} (listen : Listener σ) (payload more : Bytes) (d : Decoder) (s : σ),
      ¬ RanOut (decode listen payload d s).result →
        decode listen (payload ++ more) d s = decode listen payload d s) ∧
    (∀ {σ : Type} (listen : Listener σ) (payload more : Bytes) (d : Decoder) (s : σ),
      (decode listen payload d s).heard = listen.replay (callbacks payload) s ∧
        (decode listen (payload ++ more) d s).heard
          = listen.replay (callbacks (payload ++ more)) s ∧
        callbacks payload <+: callbacks (payload ++ more)) ∧
    (∀ packet datagram more, Packet.payload packet = .ok datagram →
      Packet.payload (packet ++ more) = .ok (datagram ++ more)) ∧
    ∀ packet datagram more, Packet.payload packet = .ok datagram → ¬ RanOut (outcome datagram) →
      ∀ {σ : Type} (listen : Listener σ) (front back : List Bytes) (c : Consumer σ),
        c.feedPackets listen (front ++ (packet ++ more) :: back)
          = c.feedPackets listen (front ++ packet :: back) := by
  refine ⟨?_, ?_, fun packet datagram more h => Packet.payload_padded h more, ?_⟩
  · intro σ listen payload more d s hfull
    rw [result_eq_outcome] at hfull
    exact decode_append_of_not_ranOut hfull more listen d s
  · intro σ listen payload more d s
    exact ⟨heard_eq_replay listen payload d s, heard_eq_replay listen _ d s,
      callbacks_prefix_append payload more⟩
  · intro packet datagram more h hfull σ listen front back c
    simp only [feedPackets, Filter.passAll, List.foldl_append, List.foldl_cons,
      Filter.pass_padded h hfull]

/-- A datagram with one update of nothing in it, in a packet. -/
def updatePacket : Bytes :=
  List.replicate 14 0 ++ ([0x45] ++ List.replicate 8 0 ++ [17] ++ List.replicate 10 0) ++
    List.replicate 8 0 ++
    (Envelope.toBlock { messageSize := 74 } ++
      (MessageFrame.toBlock { blockLength := 50, templateId := 15 } ++ List.replicate 50 0))

/-- The packet filled up to 120 octets. -/
theorem Consumer.padding_says_nothing_updatePacket :
    ∃ datagram, Packet.payload updatePacket = .ok datagram ∧ outcome datagram = .ok 1 ∧
      Packet.payload (updatePacket ++ [0, 0, 0, 0]) = .ok (datagram ++ [0, 0, 0, 0]) ∧
      decode .recorder (datagram ++ [0, 0, 0, 0]) {} #[] = decode .recorder datagram {} #[] ∧
      ∀ c : Consumer (Array (Envelope × Message)),
        c.feedPackets .recorder [updatePacket, updatePacket ++ [0, 0, 0, 0]]
          = c.feedPackets .recorder [updatePacket, updatePacket] := by
  refine ⟨updatePacket.drop 42, ?_⟩
  have hpayload : Packet.payload updatePacket = .ok (updatePacket.drop 42) := by decide
  have houtcome : outcome (updatePacket.drop 42) = .ok 1 := by decide +kernel
  have hfull : ¬ RanOut (outcome (updatePacket.drop 42)) := houtcome ▸ not_ranOut_ok
  refine ⟨hpayload, houtcome, padding_says_nothing.2.2.1 _ _ _ hpayload,
    padding_says_nothing.1 _ _ _ _ _ hfull, fun c => ?_⟩
  exact padding_says_nothing.2.2.2 _ _ _ hpayload hfull .recorder [updatePacket] [] c

end MarketFeed
