import MarketFeed.Proofs.Capture.Records

/-!
# Runs of Records

How records fall into reads of a bounded size.

A read takes as many records as fit and begins the next read with the record
that did not. Nothing about files is needed to say where the reads end: it is
a matter of the sizes alone. A read that can hold its first record takes at
least that one, so cutting goes on until there are no records or until the
record in front is larger than any read.

Where a run ends is determined by where it begins, which is what makes it the
longest: one record more is too many.

## Main definitions

* `Record.Run`: Some records that fit one read, and no more of them would.
* `Record.Runs`: Records cut into runs, and those behind a record that fits
  no read.

## Theorems

* `exists_runs`: All records can be cut into runs.
* `Runs.eq_append`: The runs are the records that were cut.
* `Runs.left_nil_iff`: All of them are cut if each fits a read.
* `Runs.length_le_iff`: A run is the longest from where it begins.
* `Splits.take`: A read of octets finds the records that it has room for.
-/

namespace MarketFeed

namespace Record

/-- The records of one read with room for `room` octets, and those behind
    them. -/
structure Run (room : Nat) (group rest : List Record) : Prop where
  nonempty : group ≠ []
  fits : total group ≤ room
  longest : ∀ r, rest.head? = some r → room < total group + r.size

/-- Records fall into runs until the one in front fits no read. -/
inductive Runs (room : Nat) : List Record → List (List Record) → List Record → Prop
  | nil : Runs room [] [] []
  | blocked {r : Record} {rest : List Record} (hsize : room < r.size) :
      Runs room (r :: rest) [] (r :: rest)
  | cons {group rest left : List Record} {groups : List (List Record)}
      (hrun : Run room group rest) (hruns : Runs room rest groups left) :
      Runs room (group ++ rest) (group :: groups) left

variable {room : Nat} {records group rest left : List Record} {groups : List (List Record)}

theorem size_le_total {r : Record} (h : r ∈ records) : r.size ≤ total records := by
  rcases List.append_of_mem h with ⟨front, back, rfl⟩
  rw [total_append, total_cons]
  omega

/-- A room has a longest run of records that it holds. -/
theorem exists_fill (room : Nat) (records : List Record) :
    ∃ front back, records = front ++ back ∧ total front ≤ room ∧
      ∀ r, back.head? = some r → room < total front + r.size := by
  -- Filling up is by induction on the records, with the room that is left.
  induction records generalizing room with
  | nil => exact ⟨[], [], rfl, Nat.zero_le _, fun r h => by cases h⟩
  | cons r rest ih =>
      by_cases hfit : r.size ≤ room
      · -- The first record leaves that much less room for the others.
        rcases ih (room - r.size) with ⟨front, back, happend, hfits, hlongest⟩
        refine ⟨r :: front, back, by rw [happend, List.cons_append], ?_, fun s hs => ?_⟩
        · rw [total_cons]
          omega
        · have hover := hlongest s hs
          rw [total_cons]
          omega
      · refine ⟨[], r :: rest, rfl, Nat.zero_le _, fun s hs => ?_⟩
        cases hs
        rw [total_nil]
        omega

/-- A first record that fits opens a run. -/
theorem exists_run {r : Record} (hsize : r.size ≤ room) (rest : List Record) :
    ∃ group back, r :: rest = group ++ back ∧ Run room group back := by
  rcases exists_fill room (r :: rest) with ⟨front, back, happend, hfits, hlongest⟩
  refine ⟨front, back, happend, ?_, hfits, hlongest⟩
  intro hnil
  subst hnil
  -- An empty run would mean that the first record is too many.
  rw [List.nil_append] at happend
  have hover := hlongest r (by rw [← happend, List.head?_cons])
  rw [total_nil] at hover
  omega

/-- Records can be cut into longest runs, up to one that no room holds. -/
theorem exists_runs (room : Nat) (records : List Record) :
    ∃ groups left, Runs room records groups left := by
  induction hn : records.length using Nat.strongRecOn generalizing records with
  | ind n ih =>
      cases records with
      | nil => exact ⟨[], [], .nil⟩
      | cons r rest =>
          -- A run takes records off, so the induction is on how many there are. It
          -- ends early where the first record fits no read.
          by_cases hsize : r.size ≤ room
          · rcases exists_run hsize rest with ⟨group, back, happend, hrun⟩
            -- The run is not empty, so fewer records are left.
            have hpos := List.length_pos_iff.mpr hrun.nonempty
            have hlength : group.length + back.length = n := by
              rw [← List.length_append, ← happend, hn]
            rcases ih back.length (by omega) back rfl with ⟨groups, left, hruns⟩
            rw [happend]
            exact ⟨group :: groups, left, .cons hrun hruns⟩
          · exact ⟨[], r :: rest, .blocked (by omega)⟩

/-- The runs and what is left are the records. -/
theorem Runs.eq_append (h : Runs room records groups left) :
    records = groups.flatten ++ left := by
  induction h with
  | nil => rfl
  | blocked => rfl
  | cons hrun hruns ih => rw [ih, List.flatten_cons, List.append_assoc]

theorem Runs.size_le (h : Runs room records groups left) : ∀ r ∈ groups.flatten, r.size ≤ room := by
  induction h with
  | nil => exact fun r hr => (List.not_mem_nil hr).elim
  | blocked => exact fun r hr => (List.not_mem_nil hr).elim
  | cons hrun hruns ih =>
      intro r hr
      rcases List.mem_append.mp hr with hr | hr
      · exact Nat.le_trans (size_le_total hr) hrun.fits
      · exact ih r hr

/-- What is left begins with a record that is too large. -/
theorem Runs.head_left (h : Runs room records groups left) {r : Record}
    (hr : left.head? = some r) : room < r.size := by
  induction h with
  | nil => cases hr
  | blocked hsize =>
      cases hr
      exact hsize
  | cons hrun hruns ih => exact ih hr

/-- Nothing is left over if every record fits a read. -/
theorem Runs.left_nil_iff (h : Runs room records groups left) :
    left = [] ↔ ∀ r ∈ records, r.size ≤ room := by
  constructor
  · intro hnil r hr
    rw [h.eq_append, hnil, List.append_nil] at hr
    exact h.size_le r hr
  · intro hfit
    cases hleft : left with
    | nil => rfl
    | cons r rest =>
        have hover := h.head_left (r := r) (by rw [hleft, List.head?_cons])
        have hmem : r ∈ records := by
          rw [h.eq_append, hleft]
          exact List.mem_append_right _ List.mem_cons_self
        exact absurd (hfit r hmem) (by omega)

/-- Any number of records from where a run begins fits exactly if the run has
    as many. -/
theorem Run.length_le_iff (h : Run room group rest) {n : Nat} (hn : n ≤ (group ++ rest).length) :
    n ≤ group.length ↔ total ((group ++ rest).take n) ≤ room := by
  constructor
  · intro hle
    -- What is part of the run is no longer than the run.
    have hsplit := total_append (group.take n) (group.drop n)
    rw [List.take_append_drop] at hsplit
    have hfits := h.fits
    rw [List.take_append_of_le_length hle]
    omega
  · intro hfits
    refine Nat.le_of_not_lt fun hlt => ?_
    cases rest with
    | nil =>
        rw [List.append_nil] at hn
        omega
    | cons r back =>
        -- The records in question are the run, the one behind it, and maybe more.
        have hover := h.longest r rfl
        rw [List.take_append, List.take_of_length_le (by omega),
          show n - group.length = (n - group.length - 1) + 1 by omega, List.take_succ_cons,
          total_append, total_cons] at hfits
        omega

/-- A run is as long as the records in front of it allow. -/
theorem Runs.length_le_iff {before after : List (List Record)}
    (h : Runs room records (before ++ group :: after) left) :
    group ≠ [] ∧ ∀ n, before.flatten.length + n ≤ records.length →
      (n ≤ group.length ↔ total ((records.drop before.flatten.length).take n) ≤ room) := by
  -- The runs in front are taken off one by one, and the numbers shift by their
  -- lengths.
  induction before generalizing records with
  | nil =>
      cases h with
      | cons hrun hruns =>
          refine ⟨hrun.nonempty, fun n hn => ?_⟩
          rw [List.flatten_nil, List.length_nil, Nat.zero_add] at hn
          rw [List.flatten_nil, List.length_nil, List.drop_zero]
          exact hrun.length_le_iff hn
  | cons first before ih =>
      cases h with
      | cons hrun hruns =>
          rcases ih hruns with ⟨hne, hlongest⟩
          refine ⟨hne, fun n hn => ?_⟩
          rw [List.flatten_cons, List.length_append, List.length_append] at hn
          rw [List.flatten_cons, List.length_append, List.drop_length_add_append]
          exact hlongest n (by omega)

/-! ## What one read finds -/

/-- A read that has room for some records and not for the next finds these,
    and is cut off behind them. -/
theorem Splits.take {order : ByteOrder} {input tail : Bytes}
    (h : Splits order input (group ++ rest) tail) (hfits : total group ≤ room)
    (hlongest : ∀ r, rest.head? = some r → room < total group + r.size) :
    ∃ cut, Splits order (input.take room) group cut := by
  have hback := h.drop
  -- Behind the records the read breaks off: in the rest of the input, which
  -- opens no record, or inside the record that does not fit.
  have hcut : Cut order ((input.drop (total group)).take (room - total group)) := by
    cases rest with
    | nil =>
        have htail : input.drop (total group) = tail := hback.octets
        rw [htail]
        exact hback.cut.take _
    | cons r rest =>
        have hover := hlongest r rfl
        have hlength := h.lengths r (List.mem_append_right _ List.mem_cons_self)
        have hcaptured : order.u32At (input.drop (total group)) 8 = r.header.capturedLength := by
          rw [hback.octets, List.flatMap_cons, List.append_assoc, u32At_octets_append]
        refine cut_take_of_lt ?_
        rw [hcaptured, hlength]
        simp only [size] at hover
        omega
  refine ⟨_, ?_, fun r hr => h.lengths r (List.mem_append_left _ hr), hcut⟩
  have hfront : input.take (total group) = group.flatMap (Record.octets order) := by
    rw [h.octets, List.flatMap_append, List.append_assoc,
      List.take_left' (length_flatMap_octets order group)]
  rw [← hfront, ← List.take_add, Nat.add_sub_cancel' hfits]

end Record

end MarketFeed
