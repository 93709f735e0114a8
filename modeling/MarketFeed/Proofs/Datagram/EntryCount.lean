import MarketFeed.Proofs.Datagram.DeclaredSize
import Mathlib.Algebra.Ring.Nat

/-!
# What the Count of Entries Counts

The entries of the snapshots that were told, and those of snapshots that were
not.

The other counts of messages change together with telling one. The count of
entries does not: it grows with every entry that is kept, and the snapshot is
told when the last of its entries has been read. So a snapshot whose group
announces more entries than the payload has is never told, and the entries it
has stay counted.

That is the only way for the two to come apart. Reading stops where no message
begins, and of all that can stand there nothing but such a torn snapshot has
entries that are read. A datagram is therefore a run of messages that are told
and at most one torn snapshot behind them, and the count is the sum over both.

## Main definitions

* `Framed.BreaksOff`: The torn snapshot at which reading stops, or none.
* `Course`: The messages that a datagram tells, and what is torn behind them.

## Theorems

* `kept_walk`: What is counted where reading stops.
* `Course.exists_of`: Every datagram takes a course.
* `Course.Of.kept_decode`: What it adds to the count on it.
* `counts_dispatched_and_torn`: The count after any run of datagrams.
* `torn_entry_counted`: A datagram that tells nothing and counts an entry.
-/

namespace MarketFeed

/-! ## Where reading stops -/

namespace Framed

/-- The torn snapshot at which reading stops, if it stops at one. -/
def BreaksOff (payload : Bytes) (limit stop : Nat) : Option Framed → Prop
  | some m => stop < limit ∧ TornIn (payload.drop stop) m
  | none => stop < limit → ∀ m, ¬ TornIn (payload.drop stop) m

theorem exists_breaksOff (payload : Bytes) (limit stop : Nat) :
    ∃ torn, BreaksOff payload limit stop torn := by
  by_cases h : ∃ m, stop < limit ∧ TornIn (payload.drop stop) m
  · rcases h with ⟨m, hlimit, htorn⟩
    exact ⟨some m, hlimit, htorn⟩
  · exact ⟨none, fun hlimit m htorn => h ⟨m, hlimit, htorn⟩⟩

theorem kept_after (m : Framed) (d : Decoder) :
    (m.after d).stats.snapshotEntries = d.stats.snapshotEntries + m.kept := by
  cases m <;> rfl

/-- Messages add the entries that were kept of all of them. -/
theorem kept_foldl_after (messages : List Framed) (d : Decoder) :
    (messages.foldl (fun d m => m.after d) d).stats.snapshotEntries
      = d.stats.snapshotEntries + (messages.map kept).sum := by
  induction messages generalizing d with
  | nil => rfl
  | cons m messages ih =>
      rw [List.foldl_cons, ih, kept_after, List.map_cons, List.sum_cons, Nat.add_assoc]

/-- Behind the end of the payload nothing is laid. -/
theorem Laid.of_drop_eq_nil {payload : Bytes} {limit offset stop : Nat} {messages : List Framed}
    (h : Laid payload limit offset messages stop) (hempty : payload.drop offset = []) :
    messages = [] ∧ stop = offset := by
  cases h with
  | nil => exact ⟨rfl, rfl⟩
  | cons _ _ hstands _ =>
      rw [hempty] at hstands
      have hlength := hstands.length_le
      rw [length_octets, List.length_nil, Layout.size] at hlength
      omega

/-- No message is shorter than its frame, so none is torn in an empty input. -/
theorem not_tornIn_nil (m : Framed) : ¬ TornIn [] m := by
  rintro ⟨left, -, hstands⟩
  have hlength := congrArg List.length hstands
  rw [List.length_append, length_octets, List.length_nil, Layout.size] at hlength
  omega

end Framed

namespace Decoder

open Framed

variable {σ : Type} {listen : Listener σ} {payload : Bytes} {limit stop n : Nat}
variable {torn : Option Framed} {d : Decoder} {s : σ}

/-- Where no message begins, only a torn snapshot adds entries, and then there
    is an error. -/
theorem kept_walk (hlast : stop < limit → ¬ Begins (payload.drop stop))
    (hbreaks : BreaksOff payload limit stop torn) :
    (walk listen payload limit stop n d s).decoder.stats.snapshotEntries
        = d.stats.snapshotEntries + torn.elim 0 kept ∧
      (torn.isSome → ∃ e, (walk listen payload limit stop n d s).result = .error e) := by
  rw [walk]
  cases torn with
  | some m =>
      rcases hbreaks with ⟨hlimit, htorn⟩
      rcases stride_of_torn d htorn with ⟨e, hfailed⟩
      rw [if_pos hlimit, hfailed]
      exact ⟨rfl, fun _ => ⟨e, rfl⟩⟩
  | none =>
      refine ⟨?_, fun hsome => by cases hsome⟩
      by_cases hlimit : stop < limit
      · rw [if_pos hlimit]
        -- No message begins, so nothing is dispatched, and of what fails only a
        -- torn snapshot has entries.
        rcases stride_cases payload stop d with ⟨m, rest, hwell, hstands, -⟩ |
          ⟨frame, -, -, hpassed⟩ | ⟨e, frame, entries, hentries, hfailed⟩
        · exact absurd (exists_stands_iff_begins.mp ⟨m, hwell, rest, hstands.symm⟩) (hlast hlimit)
        · rw [hpassed]
          rfl
        · rcases hentries with rfl | ⟨m, htorn⟩
          · rw [hfailed]
            rfl
          · exact absurd htorn (hbreaks hlimit m)
      · rw [if_neg hlimit]
        rfl

/-- How a call ends plays no part in the count of entries. -/
theorem kept_decode :
    (decode listen payload d s).decoder.stats.snapshotEntries
      = (readPayload listen payload d.start s).decoder.stats.snapshotEntries := by
  rw [decode_eq]
  rfl

end Decoder

/-! ## One datagram -/

/-- What is read of a datagram: the messages in it that are told, where the last
    of them ends, and the snapshot that is torn there, if one is. -/
structure Course where
  messages : List Framed
  stop : Nat
  torn : Option Framed

namespace Course

open Framed Decoder

/-- How many entries were kept of the snapshots that are told. -/
def keptTold (c : Course) : Nat := (c.messages.map kept).sum

/-- How many entries were kept of a snapshot that is not. -/
def keptTorn (c : Course) : Nat := c.torn.elim 0 kept

/-- A datagram takes this course. The messages stand in it end to end up to a
    place where none begins, they are what it tells, and a torn snapshot at
    that place is an error. -/
structure Of (payload : Bytes) (c : Course) : Prop where
  laid : Laid payload (Envelope.front payload).messageSize.toNat
    (Envelope.front payload).bodyOffset c.messages c.stop
  last : c.stop < (Envelope.front payload).messageSize.toNat → ¬ Begins (payload.drop c.stop)
  told : callbacks payload = told (.front payload) c.messages
  breaks : BreaksOff payload (Envelope.front payload).messageSize.toNat c.stop c.torn
  fails : c.torn.isSome → ∃ e, outcome payload = .error e

/-- Every datagram takes a course. -/
theorem exists_of (payload : Bytes) : ∃ c : Course, c.Of payload := by
  by_cases hfull : (Envelope.front payload).bodyOffset ≤ payload.length
  · rcases exists_laid payload (Envelope.front payload).messageSize.toNat
      (Envelope.front payload).bodyOffset with ⟨messages, stop, hlaid, hlast⟩
    rcases exists_breaksOff payload (Envelope.front payload).messageSize.toNat stop
      with ⟨torn, hbreaks⟩
    refine ⟨⟨messages, stop, torn⟩, hlaid, hlast, callbacks_of_full rfl hfull hlaid hlast,
      hbreaks, ?_⟩
    rw [outcome, result_decode, readPayload_of_laid hfull hlaid]
    exact (kept_walk hlast hbreaks).2
  · -- Without its headers a datagram tells nothing, and nothing is torn.
    have hmissing := Nat.not_le.mp hfull
    have hempty := List.drop_eq_nil_of_le hmissing.le
    refine ⟨⟨[], (Envelope.front payload).bodyOffset, none⟩, .nil _, ?_, ?_, ?_, ?_⟩
    · intro _ hbegins
      rw [hempty] at hbegins
      exact absurd hbegins.1 (by decide)
    · rcases readPayload_of_not_full hmissing with ⟨e, d', hread, -⟩
      rw [callbacks, heard_decode, hread]
      rfl
    · intro _ m
      rw [hempty]
      exact not_tornIn_nil m
    · exact fun hsome => by cases hsome

/-- A datagram adds to the count what was kept on its course. -/
theorem Of.kept_decode {σ : Type} {payload : Bytes} {c : Course} (h : c.Of payload)
    (listen : Listener σ) (d : Decoder) (s : σ) :
    (decode listen payload d s).decoder.stats.snapshotEntries
      = d.stats.snapshotEntries + (c.keptTold + c.keptTorn) := by
  rw [Decoder.kept_decode]
  by_cases hfull : (Envelope.front payload).bodyOffset ≤ payload.length
  · have hstart : (headed payload d.start).stats = d.start.stats := by
      unfold headed
      simp only
      split <;> rfl
    rw [readPayload_of_laid hfull h.laid, (kept_walk h.last h.breaks).1, kept_foldl_after, hstart,
      Nat.add_assoc]
    rfl
  · -- Without its headers in full there is no message, and nothing to be torn.
    have hmissing := Nat.not_le.mp hfull
    have hempty := List.drop_eq_nil_of_le hmissing.le
    rcases h.laid.of_drop_eq_nil hempty with ⟨hmessages, hstop⟩
    have htold : c.keptTold = 0 := by
      rw [keptTold, hmessages]
      rfl
    have htorn : c.keptTorn = 0 := by
      have hbreaks := h.breaks
      rw [keptTorn]
      cases hc : c.torn with
      | none => rfl
      | some m =>
          rw [hc, BreaksOff, hstop, hempty] at hbreaks
          exact absurd hbreaks.2 (not_tornIn_nil m)
    rcases readPayload_of_not_full hmissing with ⟨e, d', hread, hstats, -⟩
    rw [hread, hstats, htold, htorn]
    rfl

end Course

/-! ## A run of datagrams -/

namespace Consumer

open Decoder

/-- Over all datagrams, the count is that of the snapshots that are told and of
    those that are torn. -/
theorem kept_foldl_handle {σ : Type} (listen : Listener σ) {payloads : List Bytes}
    {courses : List Course} (h : List.Forall₂ Course.Of payloads courses) (d : Decoder) (s : σ) :
    (payloads.foldl (fun state payload => handle listen payload state)
        (d, s)).1.stats.snapshotEntries
      = d.stats.snapshotEntries
        + ((courses.map Course.keptTold).sum + (courses.map Course.keptTorn).sum) := by
  induction h generalizing d s with
  | nil => rfl
  | cons hof hrest ih =>
      rw [List.foldl_cons, handle, ih, hof.kept_decode]
      simp only [List.map_cons, List.sum_cons]
      omega

/-- Every datagram takes a course. After any datagrams, the count of entries is
    the sum over the snapshots that were told and over the torn ones, which were
    not. So it is the count of what was told exactly if no entry was kept of a
    torn snapshot. -/
theorem counts_dispatched_and_torn {σ : Type} (listen : Listener σ) (payloads : List Bytes)
    (first : σ) :
    (∃ courses, List.Forall₂ Course.Of payloads courses) ∧
      ∀ courses, List.Forall₂ Course.Of payloads courses →
        (handleAll listen payloads first).1.stats.snapshotEntries
            = (courses.map Course.keptTold).sum + (courses.map Course.keptTorn).sum ∧
          ((handleAll listen payloads first).1.stats.snapshotEntries
              = (courses.map Course.keptTold).sum ↔ ∀ c ∈ courses, c.keptTorn = 0) := by
  refine ⟨?_, fun courses hcourses => ?_⟩
  · choose course hof using Course.exists_of
    exact ⟨payloads.map course, List.forall₂_map_right_iff.mpr (List.forall₂_same.mpr
      fun payload _ => hof payload)⟩
  · have hcount : (handleAll listen payloads first).1.stats.snapshotEntries
        = (courses.map Course.keptTold).sum + (courses.map Course.keptTorn).sum :=
      (kept_foldl_handle listen hcourses {} first).trans (Nat.zero_add _)
    refine ⟨hcount, ?_⟩
    rw [hcount, Nat.add_eq_left, List.sum_eq_zero_iff_forall_eq_nat, List.forall_mem_map]

/-- A snapshot that announces two bids and has one. -/
def tornMessage : Framed :=
  .snapshot { blockLength := 16, templateId := 17 } { securityId := 7 } []
    { blockSize := 57, numInGroup := 2 } [(⟨1, 0, 100, 5, 0, 0, 0, .bid⟩, [])]

/-- A datagram in which nothing else is. -/
def tornSnapshot : Bytes := Envelope.toBlock { messageSize := 157 } ++ tornMessage.octets

/-- No snapshot is told, and an entry is counted. -/
theorem torn_entry_counted :
    told [tornSnapshot] = [] ∧
      (handleAll .recorder [tornSnapshot] #[]).1.stats
        = { datagrams := 1, snapshotEntries := 1, decodeErrors := 1 } := by
  decide +kernel

/-- Where it breaks off, what it has counted is that one entry. -/
theorem counts_dispatched_and_torn_tornSnapshot :
    Course.Of tornSnapshot ⟨[], 16, some tornMessage⟩ ∧
      (handleAll .recorder [tornSnapshot] #[]).1.stats.snapshotEntries = 0 + 1 := by
  have hoffset : (Envelope.front tornSnapshot).bodyOffset = 16 := by decide +kernel
  have hdrop : tornSnapshot.drop 16 = tornMessage.octets ++ [] := by decide +kernel
  have htorn : tornMessage.Torn [] :=
    ⟨rfl, rfl, by decide, by decide, by decide, List.forall_mem_singleton.mpr ⟨rfl, rfl⟩⟩
  have hof : Course.Of tornSnapshot ⟨[], 16, some tornMessage⟩ :=
    { laid := by
        rw [hoffset]
        exact .nil 16
      last := by
        unfold Framed.Begins
        decide +kernel
      told := by decide +kernel
      breaks := ⟨by decide +kernel, [], htorn, hdrop⟩
      fails := fun _ => ⟨Layout.entry.truncatedAt tornSnapshot 100 57, by decide +kernel⟩ }
  have hcount := (counts_dispatched_and_torn .recorder [tornSnapshot] #[]).2 _
    (.cons hof .nil)
  exact ⟨hof, hcount.1⟩

end Consumer

end MarketFeed
