import MarketFeed.Proofs.Datagram.Padding

/-!
# The Declared Size

What the octets behind the declared size of a datagram can do.

The size that an envelope declares limits where a message begins and not where
it ends: a read is checked against the end of the payload. So the messages of
a datagram are those of its declared part, and perhaps one more, which begins
in that part and runs past its end. The next one would have to begin behind
it, so there is no second. Whether there is that one, and what it says, is up
to the octets behind the declared size.

If the declared part can be read by itself, no read crosses its end. Then what
lies behind is padding, and it says nothing.

## Main definitions

* `Envelope.declared`: How many octets belong to the declared part.
* `Framed.told`: What messages say under an envelope.
* `Decoder.Overhangs`: A payload tells the messages of its declared part, and
  at most one that runs past it.

## Theorems

* `callbacks_of_laid`: A payload tells its longest run.
* `overhangs_of_take`: The run in the declared part decides all but one.
* `starts_within_declared`: Payloads that agree on their declared part.
* `not_ends_within_declared`: A message that runs past it is told.
-/

namespace MarketFeed

/-- The octets that an envelope declares, and at least its own. -/
def Envelope.declared (e : Envelope) : Nat := max Layout.envelope.size e.messageSize.toNat

namespace Framed

variable {m : Framed} {messages : List Framed} {payload : Bytes} {limit offset stop count : Nat}

/-- What messages say, each under the same envelope. -/
def told (e : Envelope) (messages : List Framed) : List (Envelope × Message) :=
  messages.map fun m => (e, m.message)

/-! ## Runs in a part of the payload -/

/-- A run within a part of the payload is a run of the payload. -/
theorem Laid.of_take (h : Laid (payload.take count) limit offset messages stop) :
    Laid payload limit offset messages stop := by
  induction h with
  | nil offset => exact .nil offset
  | @cons offset stop m rest hlimit hwell hstands _ ih =>
      refine .cons hlimit hwell (hstands.trans ?_) ih
      rw [List.drop_take]
      exact List.take_prefix _ _

/-- A message that stands where a run ends continues it. -/
theorem Laid.concat (h : Laid payload limit offset messages stop) (hlimit : stop < limit)
    (hwell : m.WellFormed) (hstands : m.octets <+: payload.drop stop) :
    Laid payload limit offset (messages ++ [m]) (stop + m.octets.length) := by
  induction h with
  | nil offset => exact .cons hlimit hwell hstands (.nil _)
  | cons hfirst hwell' hstands' _ ih => exact .cons hfirst hwell' hstands' (ih hlimit hstands)

theorem Laid.le (h : Laid payload limit offset messages stop) : offset ≤ stop := by
  induction h with
  | nil => exact Nat.le_refl _
  | cons _ _ _ _ ih => omega

/-- Nothing is laid where no message may begin. -/
theorem Laid.eq_nil (h : Laid payload limit offset messages stop) (hlimit : limit ≤ offset) :
    messages = [] := by
  cases h with
  | nil => rfl
  | cons hless => exact absurd hless (Nat.not_lt.mpr hlimit)

end Framed

namespace Decoder

open Framed

variable {payload payload' : Bytes} {envelope : Envelope} {messages inside : List Framed}
variable {stop : Nat}

/-! ## What is told of a run -/

/-- What follows a payload does not change its envelope. -/
theorem front_append (hfront : Layout.envelope.size ≤ payload.length) (more : Bytes) :
    Envelope.front (payload ++ more) = .front payload :=
  front_congr (Nat.le_refl _) (List.take_append_of_le_length hfront)

/-- A datagram tells the messages of its longest run. -/
theorem callbacks_of_full (henvelope : envelope = .front payload)
    (hfull : envelope.bodyOffset ≤ payload.length)
    (h : Laid payload envelope.messageSize.toNat envelope.bodyOffset messages stop)
    (hlast : stop < envelope.messageSize.toNat → ¬ Begins (payload.drop stop)) :
    callbacks payload = told envelope messages := by
  subst henvelope
  rw [callbacks, heard_decode, readPayload_of_laid hfull h, (walk_stop hlast).1]
  have hrecord := Listener.replay_recorder (told (.front payload) messages) #[]
  rwa [Listener.replay, told, List.foldl_map] at hrecord

/-- Messages up to the declared size are all that is to be told. -/
theorem outcome_of_full (henvelope : envelope = .front payload)
    (hfull : envelope.bodyOffset ≤ payload.length)
    (h : Laid payload envelope.messageSize.toNat envelope.bodyOffset messages stop)
    (hstop : envelope.messageSize.toNat ≤ stop) : outcome payload = .ok messages.length := by
  subst henvelope
  rw [outcome, result_decode, readPayload_of_laid hfull h]
  exact (walk_stop fun hless => absurd hless (Nat.not_lt.mpr hstop)).2.1 (Or.inl hstop)

/-- Where the declared size lies within the headers, nothing is told. -/
theorem callbacks_of_le (henvelope : envelope = .front payload)
    (hfront : Layout.envelope.size ≤ payload.length)
    (hlimit : envelope.messageSize.toNat ≤ envelope.bodyOffset) : callbacks payload = [] := by
  -- With enough octets behind it the payload has its headers and still no
  -- message, and without them it does not tell more than that.
  have henough := callbacks_prefix_append payload (List.replicate envelope.bodyOffset 0)
  have hfull : envelope.bodyOffset
      ≤ (payload ++ List.replicate envelope.bodyOffset 0).length := by
    rw [List.length_append, List.length_replicate]
    omega
  have hnone := callbacks_of_full (henvelope.trans (front_append hfront _).symm) hfull (.nil _)
    fun hless => absurd hless (Nat.not_lt.mpr hlimit)
  rw [hnone] at henough
  exact List.prefix_nil.mp henough

/-- A payload that has its declared part tells its longest run of messages. -/
theorem callbacks_of_laid (henvelope : envelope = .front payload)
    (hroom : envelope.declared ≤ payload.length)
    (h : Laid payload envelope.messageSize.toNat envelope.bodyOffset messages stop)
    (hlast : stop < envelope.messageSize.toNat → ¬ Begins (payload.drop stop)) :
    callbacks payload = told envelope messages := by
  rw [Envelope.declared] at hroom
  by_cases hlimit : envelope.messageSize.toNat ≤ envelope.bodyOffset
  · rw [h.eq_nil hlimit]
    exact callbacks_of_le henvelope (by omega) hlimit
  · exact callbacks_of_full henvelope (by omega) h hlast

/-! ## Past the declared size -/

/-- A payload tells the messages up to `stop`, which are those of its declared
    part, and no more than one besides. That one begins there, before the
    declared size, and runs past it, and with it the datagram ends well. -/
def Overhangs (payload : Bytes) (envelope : Envelope) (inside : List Framed) (stop : Nat) : Prop :=
  callbacks payload = told envelope inside ∨
    ∃ m : Framed, m.WellFormed ∧ m.octets <+: payload.drop stop ∧
      stop < envelope.messageSize.toNat ∧
      envelope.messageSize.toNat < stop + m.octets.length ∧
      callbacks payload = told envelope (inside ++ [m]) ∧
      outcome payload = .ok (inside.length + 1)

/-- Behind the messages that end within the declared size there is at most one
    more. -/
theorem overhangs_of_take (henvelope : envelope = .front payload)
    (hroom : envelope.declared ≤ payload.length)
    (h : Laid (payload.take envelope.declared) envelope.messageSize.toNat envelope.bodyOffset
      inside stop)
    (hlast : stop < envelope.messageSize.toNat →
      ¬ Begins ((payload.take envelope.declared).drop stop)) :
    Overhangs payload envelope inside stop := by
  by_cases hmore : stop < envelope.messageSize.toNat ∧ Begins (payload.drop stop)
  · rcases hmore with ⟨hstart, hbegins⟩
    rcases exists_stands_iff_begins.mpr hbegins with ⟨m, hwell, hstands⟩
    -- It does not fit into the declared part, or it would stand there too.
    have hpast : envelope.messageSize.toNat < stop + m.octets.length := by
      by_contra hfits
      refine hlast hstart (exists_stands_iff_begins.mp ⟨m, hwell, ?_⟩)
      rw [List.drop_take, Envelope.declared]
      exact List.prefix_take_iff.mpr ⟨hstands, by omega⟩
    have hrun := h.of_take.concat hstart hwell hstands
    have htold := callbacks_of_laid henvelope hroom hrun
      fun hless => absurd hless (Nat.not_lt.mpr hpast.le)
    -- The headers lie in front of the run, and so within the declared part.
    have hfull : envelope.bodyOffset ≤ payload.length :=
      (h.le.trans hstart.le).trans ((Nat.le_max_right _ _).trans hroom)
    have hends := outcome_of_full henvelope hfull hrun hpast.le
    rw [List.length_append, List.length_singleton] at hends
    exact Or.inr ⟨m, hwell, hstands, hstart, hpast, htold, hends⟩
  · exact Or.inl (callbacks_of_laid henvelope hroom h.of_take fun hstart hbegins =>
      hmore ⟨hstart, hbegins⟩)

/-- Of two payloads that agree on what the first declares, either tells the
    messages in that part and at most one more, which begins in it and runs
    past it. If the part can be read by itself, there is no such message, and
    a decoder cannot tell the two payloads apart. -/
theorem starts_within_declared (henvelope : envelope = .front payload)
    (hroom : envelope.declared ≤ payload.length) (hroom' : envelope.declared ≤ payload'.length)
    (hagree : payload'.take envelope.declared = payload.take envelope.declared) :
    (∃ inside stop,
      Laid (payload.take envelope.declared) envelope.messageSize.toNat envelope.bodyOffset
        inside stop ∧
      callbacks (payload.take envelope.declared) = told envelope inside ∧
      Overhangs payload envelope inside stop ∧ Overhangs payload' envelope inside stop) ∧
    (¬ RanOut (outcome (payload.take envelope.declared)) →
      ∀ {σ : Type} (listen : Listener σ) (d : Decoder) (s : σ),
        decode listen payload' d s = decode listen payload d s) := by
  have hsixteen : Layout.envelope.size ≤ envelope.declared := Nat.le_max_left _ _
  have hfront' : envelope = .front payload' :=
    henvelope.trans (front_congr hsixteen hagree).symm
  have hcut : envelope = .front (payload.take envelope.declared) := by
    refine henvelope.trans (front_congr hsixteen ?_).symm
    rw [List.take_take, Nat.min_self]
  constructor
  · rcases exists_laid (payload.take envelope.declared) envelope.messageSize.toNat
      envelope.bodyOffset with ⟨inside, stop, hlaid, hlast⟩
    refine ⟨inside, stop, hlaid, ?_, overhangs_of_take henvelope hroom hlaid hlast, ?_⟩
    · refine callbacks_of_laid hcut ?_ hlaid hlast
      rw [List.length_take_of_le hroom]
    · rw [← hagree] at hlaid hlast
      exact overhangs_of_take hfront' hroom' hlaid hlast
  · intro hfull σ listen d s
    -- Either payload is the declared part with something behind it.
    have hpart := decode_append_of_not_ranOut hfull (payload.drop envelope.declared) listen d s
    have hpart' := decode_append_of_not_ranOut hfull (payload'.drop envelope.declared) listen d s
    rw [List.take_append_drop] at hpart
    rw [← hagree, List.take_append_drop, hagree] at hpart'
    rw [hpart, hpart']

/-- A datagram of 74 octets with one update in it. -/
def updateDeclaring (size : UInt16) : Bytes :=
  Envelope.toBlock { messageSize := size } ++
    (MessageFrame.toBlock { blockLength := 50, templateId := 15 } ++ List.replicate 50 0)

/-- A message that begins before the declared size is told with its octets from
    behind that size, and without them it is not. -/
theorem not_ends_within_declared :
    ¬ ∀ payload payload' : Bytes, (Envelope.front payload).declared ≤ payload.length →
      (Envelope.front payload).declared ≤ payload'.length →
      payload'.take (Envelope.front payload).declared
        = payload.take (Envelope.front payload).declared →
      outcome payload' = outcome payload ∧ callbacks payload' = callbacks payload := by
  intro h
  have hsame := h (updateDeclaring 40) ((updateDeclaring 40).take 40) (by decide) (by decide)
    (by decide)
  have htold : callbacks (updateDeclaring 40) ≠ callbacks ((updateDeclaring 40).take 40) := by
    decide +kernel
  exact htold hsame.2.symm

/-- An update that runs past the declared size, and one that ends with it. -/
theorem starts_within_declared_update :
    (∃ inside stop, Laid ((updateDeclaring 40).take 40) 40 16 inside stop ∧
      callbacks ((updateDeclaring 40).take 40) = told { messageSize := 40 } inside ∧
      Overhangs (updateDeclaring 40) { messageSize := 40 } inside stop ∧
      Overhangs ((updateDeclaring 40).take 60) { messageSize := 40 } inside stop) ∧
    decode .recorder (updateDeclaring 74 ++ [1, 2]) {} #[]
      = decode .recorder (updateDeclaring 74 ++ [3]) {} #[] := by
  have hpast := @starts_within_declared (updateDeclaring 40) ((updateDeclaring 40).take 60)
    { messageSize := 40 } (by decide) (by decide) (by decide) (by decide)
  have hwithin := @starts_within_declared (updateDeclaring 74 ++ [3]) (updateDeclaring 74 ++ [1, 2])
    { messageSize := 74 } (by decide) (by decide) (by decide) (by decide)
  have houtcome : outcome ((updateDeclaring 74 ++ [3]).take 74) = .ok 1 := by decide +kernel
  exact ⟨hpast.1, hwithin.2 (houtcome ▸ not_ranOut_ok) .recorder {} #[]⟩

end Decoder

end MarketFeed
