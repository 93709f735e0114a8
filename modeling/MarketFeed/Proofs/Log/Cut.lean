import MarketFeed.Proofs.Log.RoundTrip

/-!
# Logs That Were Cut

What is read of a log that ends early.

A log that ends between two frames reads as the frames in front of the cut.
One that ends inside a frame reads as the whole frames too, and then the
octets of the broken frame decide how the reading ends: they are refused as a
cut checksum or as cut content if at least the length word is there. Fewer
octets than a length word are taken for the end of the log, so such a log
reads as if it had been complete.

What is left of a broken frame is an initial part of its octets. A window
that lies in that part is the frame's own, and one that reaches past it does
not exist, which decides each step of the reading.

## Main definitions

* `Log.wholeWithin`: The frames that lie wholly in front of a cut.
* `Log.behind`: The octets between the last of them and the cut.
* `Log.IsBoundary`: The cut is between two frames.
* `LogError.ofCut`: How reading ends with this many octets of a frame.

## Theorems

* `LogFrame.read?_octets`: A frame is taken off the front of a log.
* `readAll_octets`: A whole log reads as its frames.
* `behind_eq_zero_iff`: Nothing is behind the last frame exactly at a boundary.
* `readAll_take`: What is read of a log that was cut anywhere.
* `cut_unnoticed`: A cut inside a length word reads as a complete log.
-/

namespace MarketFeed

namespace Bytes

variable {front part back input : Bytes} {offset size count : Nat}

theorem window?_append (front part back : Bytes) :
    (front ++ (part ++ back)).window? front.length part.length = some part := by
  refine window?_eq_some_iff.mpr ⟨?_, ?_⟩
  · simp only [List.length_append]
    omega
  · rw [List.drop_left' rfl, List.take_left' rfl]

/-- A window in the part that is left is a window of the whole. -/
theorem window?_take_of_le (h : offset + size ≤ count) :
    window? (input.take count) offset size = input.window? offset size := by
  have hfits : offset + size ≤ min count input.length ↔ offset + size ≤ input.length := by omega
  simp only [window?, List.length_take, hfits, List.drop_take, List.take_take,
    Nat.min_eq_left (show size ≤ count - offset by omega)]

/-- A window that reaches behind the cut is gone. -/
theorem window?_take_of_lt (h : count < offset + size) :
    window? (input.take count) offset size = none := by
  rw [window?_eq_none_iff, List.length_take]
  omega

end Bytes

/-- How the reading of a log ends with this many octets of a frame left. -/
def LogError.ofCut (left : Nat) : Option LogError :=
  if left < 4 then none else if left < 8 then some .cutHeader else some .cutPayload

namespace LogFrame

variable {f : LogFrame}

/-! ## The parts of a frame -/

/-- A frame that fits has a length that its word can hold. -/
theorem length_lt_of_fits (hfits : f.encode.length ≤ maxLength) :
    f.encode.length < Bytes.capacity 4 := by
  have hmax : maxLength < Bytes.capacity 4 := by decide
  omega

theorem window?_length (f : LogFrame) (rest : Bytes) :
    (f.octets ++ rest).window? 0 4 = some (Bytes.ofLE 4 f.encode.length) := by
  have hwindow := Bytes.window?_append [] (Bytes.ofLE 4 f.encode.length)
    (Bytes.ofU32 (Checksum.ofBytes f.encode) ++ (f.encode ++ rest))
  rw [Bytes.length_ofLE] at hwindow
  simp only [octets, List.append_assoc]
  exact hwindow

theorem window?_checksum (f : LogFrame) (rest : Bytes) :
    (f.octets ++ rest).window? 4 4 = some (Bytes.ofU32 (Checksum.ofBytes f.encode)) := by
  have hwindow := Bytes.window?_append (Bytes.ofLE 4 f.encode.length)
    (Bytes.ofU32 (Checksum.ofBytes f.encode)) (f.encode ++ rest)
  rw [Bytes.length_ofLE, Bytes.length_ofU32] at hwindow
  simp only [octets, List.append_assoc]
  exact hwindow

theorem window?_payload (f : LogFrame) (rest : Bytes) :
    (f.octets ++ rest).window? 8 f.encode.length = some f.encode := by
  have hwindow := Bytes.window?_append
    (Bytes.ofLE 4 f.encode.length ++ Bytes.ofU32 (Checksum.ofBytes f.encode)) f.encode rest
  rw [List.length_append, Bytes.length_ofLE, Bytes.length_ofU32] at hwindow
  simp only [octets, List.append_assoc] at hwindow ⊢
  exact hwindow

theorem drop_octets (f : LogFrame) (rest : Bytes) :
    (f.octets ++ rest).drop (8 + f.encode.length) = rest :=
  List.drop_left' f.length_octets

/-! ## One frame -/

/-- A frame that was written is read back, whatever follows it. -/
theorem read?_octets (hfits : f.encode.length ≤ maxLength) (rest : Bytes) :
    read? (f.octets ++ rest) = .ok (some (f, rest)) := by
  have hlength := Bytes.leNat_ofLE_of_lt (length_lt_of_fits hfits)
  have hchecksum := Bytes.u32At_ofU32 (Checksum.ofBytes f.encode)
  have hparse : LogFrame.parse f.encode = .ok (f, []) := by
    have hcapacity : maxLength < Bytes.capacity 8 := by decide
    have htakes := takes_encode (f := f) (by omega) []
    rw [List.append_nil] at htakes
    exact htakes
  simp only [read?, window?_length, hlength, if_neg (Nat.not_lt.mpr hfits), window?_checksum,
    window?_payload, hchecksum, ne_eq, not_true_eq_false, if_false, hparse, drop_octets]

/-- Of a frame that was cut, less than its length word is taken for the end of
    the log, and more for a frame that is cut. -/
theorem read?_take {left : Nat} (hfits : f.encode.length ≤ maxLength)
    (hleft : left < f.octets.length) :
    read? (f.octets.take left) =
      match LogError.ofCut left with
      | none => .ok none
      | some e => .error e := by
  have hlength := Bytes.leNat_ofLE_of_lt (length_lt_of_fits hfits)
  have hword := f.window?_length []
  have hstored := f.window?_checksum []
  rw [List.append_nil] at hword hstored
  rw [length_octets] at hleft
  unfold LogError.ofCut
  by_cases hfour : left < 4
  · rw [if_pos hfour, read?, Bytes.window?_take_of_lt (by omega)]
  rw [if_neg hfour, read?, Bytes.window?_take_of_le (by omega), hword]
  simp only [hlength, if_neg (Nat.not_lt.mpr hfits)]
  by_cases height : left < 8
  · rw [if_pos height, Bytes.window?_take_of_lt (by omega)]
  · rw [if_neg height, Bytes.window?_take_of_le (by omega), hstored]
    simp only [Bytes.window?_take_of_lt hleft]

end LogFrame

namespace Log

/-! ## One step of the reading -/

variable {input rest : Bytes} {found : Array LogFrame} {f : LogFrame}

theorem readFrom_some (h : LogFrame.read? input = .ok (some (f, rest))) :
    readFrom input found = readFrom rest (found.push f) := by
  rw [readFrom]
  split <;> simp_all

/-- A reading that finds no frame ends there, with the error if there is one. -/
theorem readFrom_ended {e : Option LogError}
    (h : LogFrame.read? input =
      match e with
      | none => .ok none
      | some e => .error e) : readFrom input found = (found, e) := by
  rw [readFrom]
  cases e <;> split <;> simp_all

/-! ## Frames in front of a cut -/

/-- The frames that lie wholly within the first octets of a log. -/
def wholeWithin : Nat → List LogFrame → List LogFrame
  | _, [] => []
  | count, f :: frames =>
    if f.octets.length ≤ count then f :: wholeWithin (count - f.octets.length) frames else []

/-- How many of the first octets of a log lie behind the last whole frame. -/
def behind : Nat → List LogFrame → Nat
  | count, [] => count
  | count, f :: frames =>
    if f.octets.length ≤ count then behind (count - f.octets.length) frames else count

/-- The place is between two frames of a log, or at one of its ends. -/
def IsBoundary (frames : List LogFrame) (count : Nat) : Prop :=
  ∃ n, ((frames.take n).flatMap LogFrame.octets).length = count

/-- The whole frames and what is left of the next make up the count. -/
theorem length_wholeWithin (frames : List LogFrame) (count : Nat) :
    ((wholeWithin count frames).flatMap LogFrame.octets).length + behind count frames = count := by
  induction frames generalizing count with
  | nil => simp [wholeWithin, behind]
  | cons f frames ih =>
      rw [wholeWithin, behind]
      by_cases h : f.octets.length ≤ count
      · rw [if_pos h, if_pos h, List.flatMap_cons, List.length_append, Nat.add_assoc, ih]
        omega
      · rw [if_neg h, if_neg h, List.flatMap_nil, List.length_nil, Nat.zero_add]

/-- A cut behind a whole frame leaves nothing of the next. -/
theorem behind_length_take (frames : List LogFrame) (n : Nat) :
    behind ((frames.take n).flatMap LogFrame.octets).length frames = 0 := by
  induction frames generalizing n with
  | nil => rw [List.take_nil, List.flatMap_nil, behind, List.length_nil]
  | cons f frames ih =>
      rw [behind]
      cases n with
      | zero =>
          have hpos := f.length_octets
          rw [List.take_zero, List.flatMap_nil, List.length_nil, if_neg (by omega)]
      | succ n =>
          rw [List.take_succ_cons, List.flatMap_cons, List.length_append,
            if_pos (Nat.le_add_right _ _), Nat.add_sub_cancel_left, ih]

theorem exists_wholeWithin (frames : List LogFrame) (count : Nat) :
    ∃ n, wholeWithin count frames = frames.take n := by
  induction frames generalizing count with
  | nil => exact ⟨0, by rw [wholeWithin, List.take_nil]⟩
  | cons f frames ih =>
      rw [wholeWithin]
      by_cases h : f.octets.length ≤ count
      · obtain ⟨n, hn⟩ := ih (count - f.octets.length)
        exact ⟨n + 1, by rw [if_pos h, hn, List.take_succ_cons]⟩
      · exact ⟨0, by rw [if_neg h, List.take_zero]⟩

/-- Nothing is left of a frame exactly if the cut falls between two. -/
theorem behind_eq_zero_iff {frames : List LogFrame} {count : Nat} :
    behind count frames = 0 ↔ IsBoundary frames count := by
  constructor
  · intro h
    obtain ⟨n, hn⟩ := exists_wholeWithin frames count
    have hlength := length_wholeWithin frames count
    rw [h, hn, Nat.add_zero] at hlength
    exact ⟨n, hlength⟩
  · rintro ⟨n, rfl⟩
    exact behind_length_take frames n

theorem wholeWithin_length (frames : List LogFrame) :
    wholeWithin (frames.flatMap LogFrame.octets).length frames = frames := by
  induction frames with
  | nil => rfl
  | cons f frames ih =>
      rw [List.flatMap_cons, List.length_append, wholeWithin, if_pos (Nat.le_add_right _ _),
        Nat.add_sub_cancel_left, ih]

/-! ## Whole logs and cut ones -/

/-- Of a log that was cut the whole frames are read, and the cut frame is
    reported by how much is left of it. -/
theorem readFrom_take {frames : List LogFrame} {count : Nat}
    (hfits : ∀ f ∈ frames, f.encode.length ≤ LogFrame.maxLength)
    (hcount : count ≤ (frames.flatMap LogFrame.octets).length) (found : Array LogFrame) :
    readFrom ((frames.flatMap LogFrame.octets).take count) found
      = (found ++ (wholeWithin count frames).toArray, LogError.ofCut (behind count frames)) := by
  induction frames generalizing count found with
  | nil =>
      obtain rfl : count = 0 := by simpa using hcount
      rw [List.flatMap_nil, List.take_nil, wholeWithin, behind, Array.append_empty]
      exact readFrom_ended (e := none) rfl
  | cons f frames ih =>
      have hf := hfits f List.mem_cons_self
      have hrest : ∀ g ∈ frames, g.encode.length ≤ LogFrame.maxLength :=
        fun g hg => hfits g (List.mem_cons_of_mem f hg)
      rw [List.flatMap_cons, List.length_append] at hcount
      rw [List.flatMap_cons, List.take_append, wholeWithin, behind]
      by_cases hwhole : f.octets.length ≤ count
      · rw [if_pos hwhole, if_pos hwhole, List.take_of_length_le hwhole,
          readFrom_some (LogFrame.read?_octets hf _), ih hrest (by omega),
          List.push_append_toArray]
      · -- The cut is in this frame, so nothing is left of the frames behind it.
        rw [if_neg hwhole, if_neg hwhole, Nat.sub_eq_zero_of_le (by omega), List.take_zero,
          List.append_nil, Array.append_empty]
        exact readFrom_ended (LogFrame.read?_take hf (by omega))

/-- A log that was written is read back. -/
theorem readAll_octets {frames : List LogFrame}
    (hfits : ∀ f ∈ frames, f.encode.length ≤ LogFrame.maxLength) :
    readAll (frames.flatMap LogFrame.octets) = (frames, none) := by
  have hread := readFrom_take hfits (Nat.le_refl _) #[]
  have hbehind := behind_length_take frames frames.length
  rw [List.take_length] at hread hbehind
  rw [hbehind, wholeWithin_length] at hread
  simp only [readAll, hread, Array.empty_append, LogError.ofCut]
  rfl

/-- What is read of a log of frames that fit, cut anywhere: the frames that
    lie wholly in front of the cut. The octets behind them decide how the
    reading ends, and fewer than four of them are not noticed. -/
theorem readAll_take (frames : List LogFrame) (count : Nat)
    (hfits : ∀ f ∈ frames, f.encode.length ≤ LogFrame.maxLength)
    (hcount : count ≤ (frames.flatMap LogFrame.octets).length) :
    readAll ((frames.flatMap LogFrame.octets).take count)
      = (wholeWithin count frames, LogError.ofCut (behind count frames)) := by
  simp only [readAll, readFrom_take hfits hcount, Array.empty_append]

/-- The header of a log from an unnamed source. -/
def plainHeader : LogFrame := .header ⟨LogHeader.currentVersion, 0, "", 1⟩

theorem length_encode_plainHeader : plainHeader.encode.length = 34 := by decide

theorem length_octets_plainHeader : plainHeader.octets.length = 42 := by
  rw [LogFrame.length_octets, length_encode_plainHeader]

theorem fits_plainHeader : ∀ f ∈ [plainHeader], f.encode.length ≤ LogFrame.maxLength := by
  intro f hf
  rw [List.mem_singleton.mp hf, length_encode_plainHeader]
  decide

theorem length_log_plainHeader : ([plainHeader].flatMap LogFrame.octets).length = 42 := by
  rw [List.flatMap_singleton, length_octets_plainHeader]

theorem readAll_take_plainHeader :
    readAll (([plainHeader].flatMap LogFrame.octets).take 6) = ([], some .cutHeader) := by
  have hcount : 6 ≤ ([plainHeader].flatMap LogFrame.octets).length := by
    rw [length_log_plainHeader]
    omega
  rw [readAll_take [plainHeader] 6 fits_plainHeader hcount]
  simp only [wholeWithin, behind, length_octets_plainHeader]
  rfl

/-- A log that breaks off inside a length word reads like one that was
    complete, although the cut is not between two frames. -/
theorem cut_unnoticed :
    readAll (([plainHeader].flatMap LogFrame.octets).take 2) = ([], none)
      ∧ ¬ IsBoundary [plainHeader] 2 := by
  have hcount : 2 ≤ ([plainHeader].flatMap LogFrame.octets).length := by
    rw [length_log_plainHeader]
    omega
  refine ⟨?_, ?_⟩
  · simp only [readAll, readFrom_take fits_plainHeader hcount, wholeWithin, behind,
      length_octets_plainHeader]
    rfl
  · rw [← behind_eq_zero_iff]
    simp only [behind, length_octets_plainHeader]
    decide

end Log

end MarketFeed
