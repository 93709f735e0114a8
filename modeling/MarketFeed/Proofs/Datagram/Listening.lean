import MarketFeed.Proofs.Datagram.Strides

/-!
# Who Listens Plays No Part

The decoder tells a listener messages and learns nothing from it.

A map from one listener's states to another's that agrees with both on every
single message agrees with them on whole datagrams, and the results and the
decoder are the same on both sides. Taking the map that replays a record of
messages for any listener, this says that what a listener has heard is the
record, replayed. Every function of the decoder has the property because the
functions it is made of have it, down to the one place where a listener is
told something.

What is counted of a datagram is counted once for each call, which is of the
same kind: it is shown along the same functions. So is what every well-formed
message leaves as it was, since a listener is told no other messages.

## Main definitions

* `Listener.replay`: Tell a listener recorded messages.
* `Stride.map`, `Reading.map`: The same outcome for another listener.

## Theorems

* `stride_map`, `walk_map`, `decode_map`, `decodeAll_map`: Decoding agrees with
  such a map.
* `replay_pair`, `replay_optional`: A record replayed for each part.
* `decode_replay`: What is heard is what is recorded, replayed.
* `decode_keeps`: A listener keeps what every well-formed message keeps.
* `datagrams_decode`: Each call is one datagram.
-/

namespace MarketFeed

/-- Tell a listener messages that were recorded, in order. -/
def Listener.replay {σ : Type} (listen : Listener σ) (record : List (Envelope × Message)) (s : σ) :
    σ :=
  record.foldl (fun s told => listen told.1 told.2 s) s

/-- The last message of a record is heard last. -/
theorem Listener.replay_concat {σ : Type} (listen : Listener σ) (record : List (Envelope × Message))
    (told : Envelope × Message) (s : σ) :
    listen.replay (record ++ [told]) s = listen told.1 told.2 (listen.replay record s) :=
  List.foldl_append

/-- Of two listeners side by side each hears the record. -/
theorem Listener.replay_pair {σ τ : Type} (first : Listener σ) (second : Listener τ)
    (record : List (Envelope × Message)) (s : σ) (t : τ) :
    (pair first second).replay record (s, t) = (first.replay record s, second.replay record t) := by
  induction record generalizing s t with
  | nil => rfl
  | cons told rest ih => exact ih _ _

/-- A listener that is absent stays so. -/
theorem Listener.replay_optional {σ : Type} (listen : Listener σ)
    (record : List (Envelope × Message)) (s : Option σ) :
    listen.optional.replay record s = s.map (listen.replay record) := by
  cases s with
  | none =>
      induction record with
      | nil => rfl
      | cons told rest ih => exact ih
  | some s =>
      induction record generalizing s with
      | nil => rfl
      | cons told rest ih => exact ih _

/-- The same outcome for another listener. -/
def Reading.map {σ τ : Type} (f : σ → τ) (r : Reading σ) : Reading τ :=
  ⟨r.result, r.decoder, f r.heard⟩

namespace Decoder

variable {σ τ : Type} {listen : Listener σ} {listen' : Listener τ} {f : σ → τ} {payload : Bytes}
variable {d : Decoder} {s : σ}

/-- The same outcome for another listener. -/
def Stride.map (f : σ → τ) : Stride σ → Stride τ
  | .dispatched used d s => .dispatched used d (f s)
  | .unknownTemplate d => .unknownTemplate d
  | .failed e d => .failed e d

section Map

variable (hf : ∀ e m s, f (listen e m s) = listen' e m (f s))
include hf

theorem stride_map (offset : Nat) :
    stride listen' payload offset d (f s) = (stride listen payload offset d s).map f := by
  -- What happens does not depend on the listener, so both sides are in the same
  -- case.
  rcases stride_cases payload offset d with ⟨m, _, -, -, hdispatched⟩ | ⟨_, -, -, hpassed⟩ |
    ⟨_, _, _, -, hfailed⟩
  · rw [hdispatched, hdispatched, Stride.map, hf]
  · rw [hpassed, hpassed, Stride.map]
  · rw [hfailed, hfailed, Stride.map]

theorem walk_map (limit offset n : Nat) :
    walk listen' payload limit offset n d (f s)
      = (walk listen payload limit offset n d s).map f := by
  fun_induction walk listen payload limit offset n d s with
  | case1 offset n d s hlimit used d' s' hstride ih =>
      rw [walk, if_pos hlimit, stride_map hf, hstride]
      exact ih
  | case2 offset n d s hlimit d' hstride =>
      rw [walk, if_pos hlimit, stride_map hf, hstride]
      rfl
  | case3 offset n d s hlimit e d' hstride =>
      rw [walk, if_pos hlimit, stride_map hf, hstride]
      rfl
  | case4 offset n d s hlimit =>
      rw [walk, if_neg hlimit]
      rfl

/-- A map of what is heard goes through decoding, which does not look at it. -/
theorem decode_map : decode listen' payload d (f s) = (decode listen payload d s).map f := by
  have hread : readPayload listen' payload d.start (f s)
      = (readPayload listen payload d.start s).map f := by
    rcases readPayload_cases payload d.start with ⟨_, _, -, hmissing⟩ | ⟨_, _, _, -, hwalked⟩
    · rw [hmissing, hmissing, Reading.map]
    · rw [hwalked, hwalked, walk_map hf]
  rw [decode_eq, decode_eq, hread]
  rfl

theorem decodeAll_map (payloads : List Bytes) :
    decodeAll listen' payloads d (f s) = (decodeAll listen payloads d s).map (Reading.map f) := by
  induction payloads generalizing d s with
  | nil => rfl
  | cons payload rest ih =>
      simp only [decodeAll, decode_map hf, List.map_cons]
      exact congrArg _ ih

end Map

/-- What any listener has heard of a datagram is what the recorder has kept,
    replayed. -/
theorem decode_replay (listen : Listener σ) (payload : Bytes) (d : Decoder)
    (record : Array (Envelope × Message)) (s : σ) :
    decode listen payload d (listen.replay record.toList s)
      = (decode .recorder payload d record).map fun record => listen.replay record.toList s := by
  -- Recording one more message and replaying is replaying and telling it.
  have hone : ∀ (e : Envelope) (m : Message) (record : Array (Envelope × Message)),
      listen.replay (Listener.recorder e m record).toList s
        = listen e m (listen.replay record.toList s) := fun e m record => by
    rw [Listener.recorder, Array.toList_push, Listener.replay_concat]
  exact decode_map (f := fun record : Array (Envelope × Message) =>
    listen.replay record.toList s) hone

/-! ## What every message keeps -/

section Keeps

variable {I : σ → Prop}
variable (hI : ∀ e (m : Framed) s, m.WellFormed → I s → I (listen e m.message s))
include hI

theorem walk_keeps (limit offset n : Nat) (d : Decoder) (h : I s) :
    I (walk listen payload limit offset n d s).heard := by
  induction hk : limit - offset using Nat.strongRecOn generalizing offset n d s with
  | ind k ih =>
      rw [walk]
      split
      · next hlimit =>
        -- Only a message that is dispatched is heard.
        rcases stride_cases payload offset d with ⟨m, _, hwell, -, hdispatched⟩ |
          ⟨_, -, -, hpassed⟩ | ⟨_, _, _, -, hfailed⟩
        · rw [hdispatched]
          refine ih (limit - (offset + Layout.frame.size + m.body.length)) ?_ _ _ _
            (hI _ m s hwell h) rfl
          simp only [Layout.size]
          omega
        · rw [hpassed]
          exact h
        · rw [hfailed]
          exact h
      · exact h

/-- What one message keeps, decoding keeps. -/
theorem decode_keeps (payload : Bytes) (d : Decoder) (h : I s) :
    I (decode listen payload d s).heard := by
  rw [heard_decode]
  rcases readPayload_cases payload d.start with ⟨_, _, -, hmissing⟩ | ⟨_, _, _, -, hwalked⟩
  · rw [hmissing]
    exact h
  · rw [hwalked]
    exact walk_keeps hI _ _ _ _ h

end Keeps

/-! ## Each call is one datagram -/

theorem datagrams_after (m : Framed) (d : Decoder) :
    (m.after d).stats.datagrams = d.stats.datagrams := by
  cases m <;> rfl

theorem datagrams_walk (limit offset n : Nat) :
    (walk listen payload limit offset n d s).decoder.stats.datagrams = d.stats.datagrams := by
  induction hk : limit - offset using Nat.strongRecOn generalizing offset n d s with
  | ind k ih =>
      rw [walk]
      split
      · next hlimit =>
        rcases stride_cases payload offset d with ⟨m, _, -, -, hdispatched⟩ | ⟨_, -, -, hpassed⟩ |
          ⟨_, _, _, -, hfailed⟩
        · rw [hdispatched, ← datagrams_after m d]
          refine ih (limit - (offset + Layout.frame.size + m.body.length)) ?_ _ _ rfl
          simp only [Layout.size]
          omega
        · rw [hpassed]
          rfl
        · rw [hfailed]
          rfl
      · rfl

/-- A call counts one datagram, whether it succeeds or fails. -/
theorem datagrams_decode (listen : Listener σ) (payload : Bytes) (d : Decoder) (s : σ) :
    (decode listen payload d s).decoder.stats.datagrams = d.stats.datagrams + 1 := by
  have hstart : d.start.stats.datagrams = d.stats.datagrams + 1 := rfl
  rw [decode_eq]
  rcases readPayload_cases payload d.start with ⟨_, _, hstats, hmissing⟩ |
    ⟨_, _, _, hstats, hwalked⟩
  · rw [hmissing, ← hstart, ← hstats]
    rfl
  · rw [hwalked, ← hstart, ← hstats]
    exact datagrams_walk _ _ _

end Decoder

end MarketFeed
