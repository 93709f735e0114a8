import MarketFeed.Proofs.Datagram.Strides

/-!
# A Whole Datagram

The decoder accepts exactly the grammar.

Behind the headers, the octets of a payload have one longest run of messages
that stand end to end and each begin before the declared size. The decoder
walks through this run: as long as a message stands at the offset it is
dispatched, and where none does, none is. What ends the walk is then either
the declared size, or a frame without a template, or an error, and in none of
the three is anything dispatched that is not in the run.

The octets of the extensions are in the run and not in what is told. Two
payloads with the same headers, the same run up to its extensions, and the
same octets behind the run are one and the same to the decoder.

## Main definitions

* `Envelope.front`, `Envelope.bodyOffset`: The envelope, and where the first
  message begins.
* `Decoder.headed`: The decoder with the headers of a payload.
* `Framed.Unknown`: A frame without a template stands at an offset.

## Theorems

* `walk_of_laid`: The walk goes through the messages that stand there.
* `exists_laid`: There is a run that no message continues.
* `walk_stop`: How the walk ends where no message begins.
* `decode_accepts_grammar`: What is dispatched, and how decoding ends.
-/

namespace MarketFeed

/-- The envelope in the first octets of a payload. -/
def Envelope.front (payload : Bytes) : Envelope := ofBlock (payload.take 16)

/-- Where the first message begins: behind the envelope, or behind the
    incremental header if there is one. -/
def Envelope.bodyOffset (e : Envelope) : Nat := if e.isIncremental then 28 else 16

namespace Framed

variable {m m' : Framed} {messages others : List Framed} {payload back : Bytes}
variable {limit offset stop : Nat}

/-- A frame stands at the offset, and it announces no known template. -/
def Unknown (payload : Bytes) (offset : Nat) : Prop :=
  ∃ frame : MessageFrame, frame.toBlock <+: payload.drop offset ∧
    frame.templateId ≠ 15 ∧ frame.templateId ≠ 16 ∧ frame.templateId ≠ 17

theorem length_octets (m : Framed) : m.octets.length = Layout.frame.size + m.body.length := by
  rw [octets, List.length_append, m.frame.length_toBlock]

/-- Messages written one behind the other stand end to end. -/
theorem laid_of_drop_eq (hwell : ∀ m ∈ messages, m.WellFormed)
    (hdrop : payload.drop offset = messages.flatMap octets ++ back)
    (hlimit : offset + (messages.flatMap octets).length ≤ limit) :
    Laid payload limit offset messages (offset + (messages.flatMap octets).length) := by
  induction messages generalizing offset with
  | nil => exact .nil offset
  | cons m rest ih =>
      rcases List.forall_mem_cons.mp hwell with ⟨hm, hrest⟩
      have hlength := m.length_octets
      simp only [Layout.size] at hlength
      rw [List.flatMap_cons, List.length_append, ← Nat.add_assoc] at hlimit
      rw [List.flatMap_cons, List.append_assoc] at hdrop
      have hnext : payload.drop (offset + m.octets.length) = rest.flatMap octets ++ back := by
        rw [← List.drop_drop, hdrop, List.drop_left]
      rw [List.flatMap_cons, List.length_append, ← Nat.add_assoc]
      exact .cons (by omega) hm ⟨_, hdrop.symm⟩ (ih hrest hnext hlimit)

/-- Where a frame without a template stands, no message begins. -/
theorem Unknown.not_begins (h : Unknown payload offset) : ¬ Begins (payload.drop offset) := by
  rcases h with ⟨frame, ⟨rest, hrest⟩, hupdate, hexecution, hsnapshot⟩
  have hframe : MessageFrame.ofBlock (payload.drop offset) = frame := by
    rw [← hrest, MessageFrame.coded.ofBlock_append _ trivial]
  intro hbegins
  simp only [Begins, hframe] at hbegins
  rcases hbegins.2 with ⟨htemplate, -⟩ | ⟨htemplate, -⟩ | ⟨htemplate, -⟩
  · exact hupdate htemplate
  · exact hexecution htemplate
  · exact hsnapshot htemplate

theorem envelope_after (m : Framed) (d : Decoder) : (m.after d).envelope = d.envelope := by
  cases m <;> rfl

/-! ## Extensions say nothing -/

/-- What a message says does not depend on its extensions. -/
theorem message_bare (m : Framed) : m.bare.message = m.message := by
  cases m with
  | snapshot frame header extension group blocks =>
      simp only [bare, message, List.map_map]
      rfl
  | _ => rfl

theorem after_bare (m : Framed) (d : Decoder) : m.bare.after d = m.after d := by
  cases m with
  | snapshot frame header extension group blocks =>
      simp only [bare, after, List.map_map]
      rfl
  | _ => rfl

/-- The lengths of the extensions are declared, so they are the same as well. -/
theorem WellFormed.length_eq (h : m.WellFormed) (h' : m'.WellFormed) (hbare : m.bare = m'.bare) :
    m.octets.length = m'.octets.length := by
  -- Only a snapshot has extensions. What they are long is what the frame and
  -- the group declare.
  cases m with
  | snapshot frame header extension group blocks =>
      cases m' with
      | snapshot frame' header' extension' group' blocks' =>
          simp only [bare, snapshot.injEq] at hbare
          rcases hbare with ⟨rfl, -, -, rfl, -⟩
          have hroot := h.2.1.symm.trans h'.2.1
          have hcount := h.2.2.2.1.symm.trans h'.2.2.2.1
          simp only [length_octets, body, List.length_append, SnapshotHeader.length_toBlock,
            GroupSize.length_toBlock, length_flatMap_blockOctets h.2.2.2.2,
            length_flatMap_blockOctets h'.2.2.2.2, hcount]
          omega
      | update frame' u => simp only [bare, reduceCtorEq] at hbare
      | execution frame' x => simp only [bare, reduceCtorEq] at hbare
  | update frame u =>
      cases m' with
      | snapshot => simp only [bare, reduceCtorEq] at hbare
      | _ => exact congrArg (fun m => (octets m).length) hbare
  | execution frame x =>
      cases m' with
      | snapshot => simp only [bare, reduceCtorEq] at hbare
      | _ => exact congrArg (fun m => (octets m).length) hbare

/-- Runs that differ in nothing but extensions end at the same offset. -/
theorem Laid.stop_eq {payload' : Bytes} {stop' : Nat}
    (h : Laid payload limit offset messages stop)
    (h' : Laid payload' limit offset others stop')
    (hbare : messages.map bare = others.map bare) : stop = stop' := by
  induction h generalizing others with
  | nil =>
      cases h' with
      | nil => rfl
      | cons => cases hbare
  | cons _ hwell _ _ ih =>
      cases h' with
      | nil => cases hbare
      | cons _ hwell' _ hrest' =>
          rw [List.map_cons, List.map_cons, List.cons.injEq] at hbare
          rw [← hwell.length_eq hwell' hbare.1] at hrest'
          exact ih hrest' hbare.2

end Framed

namespace Decoder

open Framed

variable {σ : Type} {listen : Listener σ} {payload payload' : Bytes} {limit offset stop n : Nat}
variable {messages : List Framed} {d : Decoder} {s : σ}

/-! ## Through the run -/

/-- The walk goes through the messages that stand there, and goes on behind
    them. -/
theorem walk_of_laid (h : Laid payload limit offset messages stop) :
    walk listen payload limit offset n d s
      = walk listen payload limit stop (n + messages.length)
          (messages.foldl (fun d m => m.after d) d)
          (messages.foldl (fun s m => listen d.envelope m.message s) s) := by
  -- One turn of the walk for each message of the run.
  induction h generalizing n d s with
  | nil => rfl
  | @cons offset stop m rest hlimit hwell hstands hrest ih =>
      rcases hstands with ⟨back, hback⟩
      have hnext : offset + Layout.frame.size + m.body.length = offset + m.octets.length := by
        rw [length_octets, Nat.add_assoc]
      rw [walk, if_pos hlimit, stride_of_stands hwell hback.symm]
      simp only [hnext]
      rw [ih, envelope_after, List.length_cons, Nat.add_assoc, Nat.add_comm 1]
      rfl

/-- There is a run that no message continues. -/
theorem exists_laid (payload : Bytes) (limit offset : Nat) :
    ∃ messages stop, Laid payload limit offset messages stop ∧
      (stop < limit → ¬ Begins (payload.drop stop)) := by
  induction hn : limit - offset using Nat.strongRecOn generalizing offset with
  | ind n ih =>
      -- A message takes octets off, so going on as long as one begins comes to an
      -- end at the limit.
      by_cases hmore : offset < limit ∧ Begins (payload.drop offset)
      · rcases hmore with ⟨hlimit, hbegins⟩
        rcases exists_stands_iff_begins.mpr hbegins with ⟨m, hwell, hstands⟩
        have hlength := m.length_octets
        simp only [Layout.size] at hlength
        rcases ih (limit - (offset + m.octets.length)) (by omega) _ rfl
          with ⟨messages, stop, hlaid, hlast⟩
        exact ⟨m :: messages, stop, .cons hlimit hwell hstands hlaid, hlast⟩
      · exact ⟨[], offset, .nil offset, fun hlimit hbegins => hmore ⟨hlimit, hbegins⟩⟩

/-! ## At its end -/

theorem ofNumber?_eq_none_iff {number : UInt16} :
    Template.ofNumber? number = none ↔ number ≠ 15 ∧ number ≠ 16 ∧ number ≠ 17 := by
  unfold Template.ofNumber?
  split
  · simp_all
  · split
    · simp_all
    · split <;> simp_all

/-- An unknown frame stands exactly where a frame without a template is read. -/
theorem unknown_iff : Unknown payload offset ↔
    ∃ frame, MessageFrame.read payload offset = .ok frame ∧
      Template.ofNumber? frame.templateId = none := by
  constructor
  · intro h
    rcases h with ⟨frame, ⟨rest, hrest⟩, htemplate⟩
    exact ⟨frame, MessageFrame.coded.read_append trivial hrest.symm,
      ofNumber?_eq_none_iff.mpr htemplate⟩
  · intro h
    rcases h with ⟨frame, hframe, hnone⟩
    rcases MessageFrame.coded.eq_append_of_read hframe with ⟨-, hstands⟩
    exact ⟨frame, ⟨_, hstands.symm⟩, ofNumber?_eq_none_iff.mp hnone⟩

/-- Where no message begins, a frame without a template ends the walk quietly,
    and anything else ends it with an error. -/
theorem stride_of_no_message (hnone : ¬ Begins (payload.drop offset)) :
    (Unknown payload offset ∧ ∃ d', stride listen payload offset d s = .unknownTemplate d') ∨
      (¬ Unknown payload offset ∧ ∃ e d', stride listen payload offset d s = .failed e d') := by
  rcases stride_cases payload offset d with ⟨m, rest, hwell, hstands, -⟩ |
    ⟨frame, hframe, hkind, hpassed⟩ | ⟨e, _, _, -, hfailed⟩
  · exact absurd (exists_stands_iff_begins.mp ⟨m, hwell, rest, hstands.symm⟩) hnone
  · exact Or.inl ⟨unknown_iff.mpr ⟨frame, hframe, hkind⟩, _, hpassed listen s⟩
  · refine Or.inr ⟨fun hunknown => ?_, e, _, hfailed listen s⟩
    rcases unknown_iff.mp hunknown with ⟨frame, hframe, hkind⟩
    -- A frame without a template is passed over, so this is no error.
    have hquiet : stride listen payload offset d s = .unknownTemplate (d.passed frame) := by
      simp only [stride, hframe, hkind]
      rfl
    rw [hfailed] at hquiet
    cases hquiet

/-- Where no message begins, the walk tells nothing more. -/
theorem walk_stop (hlast : stop < limit → ¬ Begins (payload.drop stop)) :
    (walk listen payload limit stop n d s).heard = s ∧
      (limit ≤ stop ∨ Unknown payload stop →
        (walk listen payload limit stop n d s).result = .ok n) ∧
      (¬ (limit ≤ stop ∨ Unknown payload stop) →
        ∃ e, (walk listen payload limit stop n d s).result = .error e) := by
  rw [walk]
  by_cases hlimit : stop < limit
  · rw [if_pos hlimit]
    rcases stride_of_no_message (hlast hlimit) with
      ⟨hunknown, d', hquiet⟩ | ⟨hunknown, e, d', hfailed⟩
    · rw [hquiet]
      exact ⟨rfl, fun _ => rfl, fun hneither => absurd (Or.inr hunknown) hneither⟩
    · rw [hfailed]
      exact ⟨rfl, fun heither => absurd heither (not_or.mpr ⟨Nat.not_le.mpr hlimit, hunknown⟩),
        fun _ => ⟨e, rfl⟩⟩
  · rw [if_neg hlimit]
    exact ⟨rfl, fun _ => rfl, fun hneither => absurd (Or.inl (Nat.not_lt.mp hlimit)) hneither⟩

/-- A walk depends on nothing in front of the offset. -/
theorem walk_congr (h : payload.drop offset = payload'.drop offset) :
    walk listen payload limit offset n d s = walk listen payload' limit offset n d s := by
  induction hk : limit - offset using Nat.strongRecOn generalizing offset n d s with
  | ind k ih =>
      unfold walk
      rw [stride_congr h]
      split
      · next hlimit =>
        split
        · next used d' s' _ =>
          have hnext := drop_congr (drop_congr h Layout.frame.size) used
          refine ih (limit - (offset + Layout.frame.size + used)) ?_ hnext rfl
          simp only [Layout.size]
          omega
        · rfl
        · rfl
      · rfl

/-! ## From the headers on -/

/-- The decoder with the headers of a payload. -/
def headed (payload : Bytes) (d : Decoder) : Decoder :=
  let d := { d with envelope := .front payload }
  if d.envelope.isIncremental then
    { d with incremental := some (IncrementalHeader.ofBlock ((payload.drop 16).take 12)) }
  else d

theorem envelope_headed (payload : Bytes) (d : Decoder) :
    (headed payload d).envelope = .front payload := by
  unfold headed
  simp only
  split <;> rfl

theorem sixteen_le_bodyOffset (e : Envelope) : 16 ≤ e.bodyOffset := by
  unfold Envelope.bodyOffset
  split <;> omega

theorem read_front (hfront : Layout.envelope.size ≤ payload.length) :
    Envelope.read payload 0 = .ok (.front payload) := by
  have hblock : Layout.envelope.block payload 0 = .ok (payload.take 16) :=
    Layout.block_eq_ok_iff.mpr ⟨by omega, rfl⟩
  rw [Envelope.read, hblock, Except.map, Envelope.front]

/-- With its headers in full a payload is walked through from behind them. -/
theorem readPayload_of_full (hfull : (Envelope.front payload).bodyOffset ≤ payload.length) :
    readPayload listen payload d s
      = walk listen payload (Envelope.front payload).messageSize.toNat
          (Envelope.front payload).bodyOffset 0 (headed payload d) s := by
  have hsixteen := sixteen_le_bodyOffset (.front payload)
  have henvelope : Envelope.read payload 0 = .ok (.front payload) :=
    read_front (Nat.le_trans hsixteen hfull)
  unfold readPayload headed Envelope.bodyOffset
  simp only [henvelope]
  split
  · next hflag =>
    have hread : IncrementalHeader.read payload Layout.envelope.size
        = .ok (IncrementalHeader.ofBlock ((payload.drop 16).take 12)) := by
      have hblock : Layout.incremental.block payload Layout.envelope.size
          = .ok ((payload.drop 16).take 12) := by
        rw [Envelope.bodyOffset, if_pos hflag] at hfull
        exact Layout.block_eq_ok_iff.mpr ⟨by simp only [Layout.size]; omega, rfl⟩
      rw [IncrementalHeader.read, hblock, Except.map]
    simp only [hread]
    rfl
  · rfl

/-- Without its headers in full a payload is not read. -/
theorem readPayload_of_not_full (hmissing : payload.length < (Envelope.front payload).bodyOffset) :
    ∃ e d', readPayload listen payload d s = ⟨.error e, d', s⟩ ∧ d'.stats = d.stats ∧
      d'.lastFrame = d.lastFrame := by
  by_cases hshort : payload.length < Layout.envelope.size
  · have hnone : payload.window? 0 Layout.envelope.size = none :=
      Bytes.window?_eq_none_iff.mpr (by omega)
    refine ⟨Layout.envelope.truncatedAt payload 0 Layout.envelope.size, d, ?_, rfl, rfl⟩
    simp only [readPayload, Envelope.read, Layout.block, hnone, Except.map]
  · -- There is the envelope, so it is the incremental header that is missing.
    have hflag : (Envelope.front payload).isIncremental = true := by
      cases hplain : (Envelope.front payload).isIncremental with
      | true => rfl
      | false =>
          rw [Envelope.bodyOffset, hplain] at hmissing
          exact absurd hmissing hshort
    have hnone : payload.window? Layout.envelope.size Layout.incremental.size = none := by
      rw [Envelope.bodyOffset, if_pos hflag] at hmissing
      exact Bytes.window?_eq_none_iff.mpr (by simp only [Layout.size]; omega)
    refine ⟨Layout.incremental.truncatedAt payload Layout.envelope.size Layout.incremental.size,
      { d with envelope := .front payload }, ?_, rfl, rfl⟩
    simp only [readPayload, read_front (Nat.not_lt.mp hshort), hflag, if_true,
      IncrementalHeader.read, Layout.block, hnone, Except.map]

/-- Reading goes through a run behind the headers to its end. -/
theorem readPayload_of_laid (hfull : (Envelope.front payload).bodyOffset ≤ payload.length)
    (h : Laid payload (Envelope.front payload).messageSize.toNat
      (Envelope.front payload).bodyOffset messages stop) :
    readPayload listen payload d s
      = walk listen payload (Envelope.front payload).messageSize.toNat stop messages.length
          (messages.foldl (fun d m => m.after d) (headed payload d))
          (messages.foldl (fun s m => listen (.front payload) m.message s) s) := by
  rw [readPayload_of_full hfull, walk_of_laid h, envelope_headed, Nat.zero_add]

theorem front_congr {count : Nat} (hcount : 16 ≤ count)
    (h : payload'.take count = payload.take count) :
    Envelope.front payload' = Envelope.front payload := by
  have htake := congrArg (List.take 16) h
  rw [List.take_take, List.take_take, Nat.min_eq_left hcount] at htake
  rw [Envelope.front, htake, Envelope.front]

theorem headed_congr (h : payload'.take (Envelope.front payload).bodyOffset
      = payload.take (Envelope.front payload).bodyOffset) :
    headed payload' d = headed payload d := by
  have hfront := front_congr (sixteen_le_bodyOffset _) h
  unfold headed
  simp only [hfront]
  split
  · next hflag =>
    rw [Envelope.bodyOffset, if_pos hflag] at h
    have hdrop := congrArg (List.drop 16) h
    rw [List.drop_take, List.drop_take] at hdrop
    rw [hdrop]
  · rfl

/-- Two payloads that differ in nothing but what extensions hold are the same
    to the decoder. -/
theorem decode_congr_of_bare {others : List Framed} {stop' : Nat}
    (hfull : (Envelope.front payload).bodyOffset ≤ payload.length)
    (h : Laid payload (Envelope.front payload).messageSize.toNat
      (Envelope.front payload).bodyOffset messages stop)
    (hheaders : payload'.take (Envelope.front payload).bodyOffset
      = payload.take (Envelope.front payload).bodyOffset)
    (h' : Laid payload' (Envelope.front payload).messageSize.toNat
      (Envelope.front payload).bodyOffset others stop')
    (hbare : others.map bare = messages.map bare)
    (hback : payload'.drop stop' = payload.drop stop) :
    decode listen payload' d s = decode listen payload d s := by
  -- The headers are the same, so the envelope is, and the two runs end at the
  -- same offset.
  have hfront := front_congr (sixteen_le_bodyOffset _) hheaders
  have hfull' : (Envelope.front payload').bodyOffset ≤ payload'.length := by
    have hlength := congrArg List.length hheaders
    rw [List.length_take, List.length_take] at hlength
    rw [hfront]
    omega
  rcases h'.stop_eq h hbare with rfl
  have hlength := congrArg List.length hbare
  rw [List.length_map, List.length_map] at hlength
  -- Neither the decoder nor the listener sees more of a message than what it is
  -- without its extensions.
  have hafter : ∀ d : Decoder,
      others.foldl (fun d m => m.after d) d = messages.foldl (fun d m => m.after d) d := fun d => by
    have hfold := congrArg (List.foldl (fun d m => Framed.after m d) d) hbare
    simp only [List.foldl_map, after_bare] at hfold
    exact hfold
  have hheard : ∀ s : σ, others.foldl (fun s m => listen (.front payload) m.message s) s
      = messages.foldl (fun s m => listen (.front payload) m.message s) s := fun s => by
    have hfold := congrArg
      (List.foldl (fun s m => listen (.front payload) (message m) s) s) hbare
    simp only [List.foldl_map, message_bare] at hfold
    exact hfold
  have hread : readPayload listen payload' d.start s = readPayload listen payload d.start s := by
    rw [← hfront] at h'
    rw [readPayload_of_laid hfull h, readPayload_of_laid hfull' h', hfront, headed_congr hheaders,
      hlength, hafter, hheard, walk_congr hback]
  rw [decode, hread, decode]

/-- How the messages of a run are dispatched, and how decoding ends behind
    them. No message begins behind the run, and no run is longer; a listener is
    told these messages with the envelope and nothing else, whether decoding
    succeeds or fails; it succeeds exactly if the run reaches the declared size
    or ends at an unknown template; and what the extensions hold plays no
    part. -/
structure Accepts (payload : Bytes) (envelope : Envelope) (messages : List Framed) (stop : Nat) :
    Prop where
  laid : Laid payload envelope.messageSize.toNat envelope.bodyOffset messages stop
  last : stop < envelope.messageSize.toNat → ¬ Begins (payload.drop stop)
  longest : ∀ others stop',
    Laid payload envelope.messageSize.toNat envelope.bodyOffset others stop' → others <+: messages
  told : ∀ {σ : Type} (listen : Listener σ) (d : Decoder) (s : σ),
    (decode listen payload d s).heard = messages.foldl (fun s m => listen envelope m.message s) s
  succeeds : envelope.messageSize.toNat ≤ stop ∨ Unknown payload stop →
    ∀ {σ : Type} (listen : Listener σ) (d : Decoder) (s : σ),
      (decode listen payload d s).result = .ok messages.length
  fails : ¬ (envelope.messageSize.toNat ≤ stop ∨ Unknown payload stop) →
    ∀ {σ : Type} (listen : Listener σ) (d : Decoder) (s : σ),
      ∃ e, (decode listen payload d s).result = .error e
  extensions : ∀ payload' others stop',
    payload'.take envelope.bodyOffset = payload.take envelope.bodyOffset →
    Laid payload' envelope.messageSize.toNat envelope.bodyOffset others stop' →
    others.map bare = messages.map bare → payload'.drop stop' = payload.drop stop →
    ∀ {σ : Type} (listen : Listener σ) (d : Decoder) (s : σ),
      decode listen payload' d s = decode listen payload d s

/-- The decoder accepts exactly the grammar, for every payload that has its
    headers in full. -/
theorem decode_accepts_grammar {payload : Bytes} {envelope : Envelope}
    (henvelope : envelope = .front payload) (hfull : envelope.bodyOffset ≤ payload.length) :
    ∃ messages stop, Accepts payload envelope messages stop := by
  subst henvelope
  rcases exists_laid payload (Envelope.front payload).messageSize.toNat
    (Envelope.front payload).bodyOffset with ⟨messages, stop, hlaid, hlast⟩
  refine ⟨messages, stop, hlaid, hlast, fun others stop' h => hlaid.prefix_of_longest hlast h, ?_,
    ?_, ?_, ?_⟩
  · intro σ listen d s
    rw [heard_decode, readPayload_of_laid hfull hlaid]
    exact (walk_stop hlast).1
  · intro hend σ listen d s
    rw [result_decode, readPayload_of_laid hfull hlaid]
    exact (walk_stop hlast).2.1 hend
  · intro hend σ listen d s
    rw [result_decode, readPayload_of_laid hfull hlaid]
    exact (walk_stop hlast).2.2 hend
  · intro payload' others stop' hheaders hlaid' hbare hback σ listen d s
    exact decode_congr_of_bare hfull hlaid hheaders hlaid' hbare hback

/-- A change, a trade, and a snapshot with octets behind its header and behind
    each of its entries. The second entry has no price. -/
def mixedMessages : List Framed :=
  [.update { blockLength := 50, templateId := 15 }
      { orderId := 7, orderPrice := 10150000, orderVolume := 5, flags := 1, flags2 := 0
        securityId := 3, rptSeq := 8, action := .new, side := .bid },
    .execution { blockLength := 74, templateId := 16 }
      { orderId := 7, orderPrice := 10150000, remainingQuantity := 2, tradePrice := 10150000
        tradeVolume := 3, traderId := -1, flags := 0, flags2 := 0, securityId := 3, rptSeq := 9
        action := .update, side := .bid },
    .snapshot { blockLength := 18, templateId := 17 } { securityId := -4, rptSeq := 10 } [0xa, 0xb]
      { blockSize := 58, numInGroup := 2 }
      [({ orderId := 1, transactTime := 2, orderPrice := -100, orderVolume := 6, tradeId := -1
          flags := 0, flags2 := 0, side := .offer }, [0xc]),
        ({ orderId := 2, transactTime := 2, orderPrice := Price.absent, orderVolume := 6
           tradeId := -1, flags := 0, flags2 := 0, side := .bid }, [0xd])]]

/-- The envelope of an incremental datagram. -/
def mixedEnvelope : Envelope := { sequenceNumber := 12, messageSize := 321, messageFlags := 9 }

/-- The datagram that has these messages, and behind them a frame without a
    template. -/
def mixedPayload : Bytes :=
  mixedEnvelope.toBlock ++
    (IncrementalHeader.toBlock { transactTime := 4 } ++
      (mixedMessages.flatMap octets ++ MessageFrame.toBlock { templateId := 99 }))

theorem laid_mixedMessages : Laid mixedPayload 321 28 mixedMessages 313 := by
  have hlength : (mixedMessages.flatMap octets).length = 285 := by decide +kernel
  rw [show 313 = 28 + (mixedMessages.flatMap octets).length by rw [hlength]]
  exact laid_of_drop_eq (by decide) (by rfl) (by rw [hlength]; decide)

theorem unknown_mixedPayload : Unknown mixedPayload 313 :=
  ⟨{ templateId := 99 }, by decide +kernel, by decide⟩

/-- All three messages are dispatched, and the frame behind them ends the
    datagram quietly. -/
theorem decode_accepts_mixedPayload :
    mixedEnvelope = .front mixedPayload ∧ mixedEnvelope.bodyOffset ≤ mixedPayload.length ∧
      Unknown mixedPayload 313 ∧ Accepts mixedPayload mixedEnvelope mixedMessages 313 := by
  have hfront : mixedEnvelope = .front mixedPayload := by decide +kernel
  have hfull : mixedEnvelope.bodyOffset ≤ mixedPayload.length := by decide +kernel
  obtain ⟨messages, stop, haccepts⟩ := decode_accepts_grammar hfront hfull
  have hlast : 313 < 321 → ¬ Begins (mixedPayload.drop 313) := fun _ =>
    unknown_mixedPayload.not_begins
  have hwithin := laid_mixedMessages.prefix_of_longest hlast haccepts.laid
  have hlonger := haccepts.longest _ _ laid_mixedMessages
  obtain rfl := hwithin.eq_of_length (Nat.le_antisymm hwithin.length_le hlonger.length_le)
  obtain rfl := haccepts.laid.stop_eq laid_mixedMessages rfl
  exact ⟨hfront, hfull, unknown_mixedPayload, haccepts⟩

end Decoder

end MarketFeed
