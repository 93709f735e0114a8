import MarketFeed.Proofs.Log.Checksum
import MarketFeed.Proofs.Log.Sequence

/-!
# Damaged Frames

Damage to a frame that the reader always finds.

The reader makes the checksum again from the content that it has read, and
compares it with the one that was stored. Where up to four octets in a row of
the content are damaged, the checksum that it makes is another one. Where the
stored checksum is damaged, it is another word, since every octet of it
counts. Either way the two differ, and the comparison comes before the
content is looked at. So it does not matter whether the damaged content could
still be taken for a frame, and often it could.

Damage across the two is not excluded: content and checksum can be changed in
step. Damage to the length moves the end of the frame.

A log is read up to the damaged frame and no further.

## Main definitions

* `Bytes.Damaged`: The same octets but for up to four of them in a row.

## Theorems

* `Bytes.Damaged.exists_parts`: What is before the damage and what behind it.
* `ofBytes_ne_of_damaged`: Damaged content has another checksum.
* `read?_of_mismatch`: A frame with the wrong checksum is refused.
* `damage_is_found`: Damage to the content or to the checksum is found.
-/

namespace MarketFeed

namespace Bytes

/-- The same octets, but for some of the four from `first` on. -/
structure Damaged (first : Nat) (before after : Bytes) : Prop where
  length : after.length = before.length
  front : after.take first = before.take first
  back : after.drop (first + 4) = before.drop (first + 4)
  changed : after ≠ before

variable {first : Nat} {front back before after : Bytes}

/-- Damage is in one window of four octets at most. -/
theorem Damaged.exists_parts (h : Damaged first before after) :
    ∃ front old new back, before = front ++ old ++ back ∧ after = front ++ new ++ back ∧
      new.length = old.length ∧ old.length ≤ 4 ∧ new ≠ old := by
  have hparts : ∀ input : Bytes,
      input = input.take first ++ (input.drop first).take 4 ++ input.drop (first + 4) := by
    intro input
    rw [← List.take_add, List.take_append_drop]
  have hafter := hparts after
  rw [h.front, h.back] at hafter
  refine ⟨_, _, _, _, hparts before, hafter, ?_, ?_, ?_⟩
  · simp only [List.length_take, List.length_drop, h.length]
  · exact List.length_take_le _ _
  · intro hsame
    rw [hsame, ← hparts before] at hafter
    exact h.changed hafter

/-- Damage behind the first part is damage to the second. -/
theorem Damaged.of_append (h : Damaged first (front ++ back) after)
    (hfirst : front.length ≤ first) :
    ∃ back', after = front ++ back' ∧ Damaged (first - front.length) back back' := by
  have hfront : after.take front.length = front := by
    have htake := congrArg (List.take front.length) h.front
    rwa [List.take_take, List.take_take, Nat.min_eq_left hfirst, List.take_left' rfl] at htake
  have hafter : after = front ++ after.drop front.length := by
    rw [← List.take_append_drop front.length after, hfront, List.drop_left' rfl]
  generalize after.drop front.length = back' at hafter
  subst hafter
  have hstop : first - front.length + 4 = first + 4 - front.length := by omega
  refine ⟨back', rfl, ?_, ?_, ?_, ?_⟩
  · have hlength := h.length
    simp only [List.length_append] at hlength
    omega
  · have htake := congrArg (List.drop front.length) h.front
    simpa only [List.drop_take, List.drop_left' rfl] using htake
  · have hdrop := h.back
    rwa [drop_append_of_le (by omega), drop_append_of_le (by omega), ← hstop] at hdrop
  · exact fun hsame => h.changed (congrArg (front ++ ·) hsame)

/-- Damage to the first part, if it ends with the damage. -/
theorem Damaged.of_append_left (h : Damaged first (front ++ back) after)
    (hfront : front.length = first + 4) :
    ∃ front', after = front' ++ back ∧ front'.length = front.length ∧ front' ≠ front := by
  have hback : after.drop front.length = back := by
    rw [hfront, h.back, ← hfront, List.drop_left' rfl]
  have hafter : after = after.take front.length ++ back := by
    rw [← hback, List.take_append_drop]
  refine ⟨after.take front.length, hafter, ?_, fun hsame => ?_⟩
  · rw [List.length_take, h.length, List.length_append]
    omega
  · rw [hsame] at hafter
    exact h.changed hafter

end Bytes

/-- Damage within four octets changes the checksum. -/
theorem Checksum.ofBytes_ne_of_damaged {first : Nat} {before after : Bytes}
    (h : Bytes.Damaged first before after) : ofBytes after ≠ ofBytes before := by
  obtain ⟨front, old, new, back, rfl, rfl, hlength, hshort, hne⟩ := h.exists_parts
  exact ofBytes_ne hlength hshort hne

namespace LogFrame

open Bytes

variable {f : LogFrame} {altered payload word : Bytes} {first : Nat}

/-- A frame with the wrong checksum is refused, whatever its content says. -/
theorem read?_of_mismatch (hfits : payload.length ≤ maxLength) (hword : word.length = 4)
    (hne : Checksum.ofBytes payload ≠ word.u32At 0) (rest : Bytes) :
    read? (ofLE 4 payload.length ++ word ++ payload ++ rest)
      = .error (.checksumMismatch (word.u32At 0) (Checksum.ofBytes payload)) := by
  have hcapacity : payload.length < capacity 4 := Nat.lt_of_le_of_lt hfits (by decide)
  have hlength := window?_append [] (ofLE 4 payload.length) (word ++ (payload ++ rest))
  have hstored := window?_append (ofLE 4 payload.length) word (payload ++ rest)
  have hpayload := window?_append (ofLE 4 payload.length ++ word) payload rest
  simp only [List.nil_append, List.length_nil, List.length_append, length_ofLE, hword]
    at hlength hstored hpayload
  simp only [List.append_assoc] at hpayload ⊢
  simp only [read?, hlength, leNat_ofLE_of_lt hcapacity, if_neg (Nat.not_lt.mpr hfits), hstored,
    hpayload, ne_eq, hne, not_false_eq_true, if_true]

/-- Damage to the content of a frame is found by its checksum. -/
theorem read?_of_damaged_payload (hfits : f.encode.length ≤ maxLength) (hfirst : 8 ≤ first)
    (h : Damaged first f.octets altered) :
    ∃ stored computed, stored ≠ computed ∧
      ∀ rest, read? (altered ++ rest) = .error (.checksumMismatch stored computed) := by
  have hheader : (ofLE 4 f.encode.length ++ ofU32 (Checksum.ofBytes f.encode)).length = 8 := by
    rw [List.length_append, length_ofLE, length_ofU32]
  obtain ⟨payload, rfl, hdamaged⟩ := h.of_append (by omega)
  have hne := Checksum.ofBytes_ne_of_damaged hdamaged
  have hlength := hdamaged.length
  have hstored : (ofU32 (Checksum.ofBytes f.encode)).u32At 0 = Checksum.ofBytes f.encode :=
    u32At_ofU32 _
  have hmismatch : Checksum.ofBytes payload ≠ (ofU32 (Checksum.ofBytes f.encode)).u32At 0 := by
    rwa [hstored]
  refine ⟨_, _, hmismatch.symm, fun rest => ?_⟩
  rw [← hlength]
  exact read?_of_mismatch (by omega) (length_ofU32 _) hmismatch rest

/-- Damage to the checksum is found by the content. -/
theorem read?_of_damaged_checksum (hfits : f.encode.length ≤ maxLength)
    (h : Damaged 4 f.octets altered) :
    ∃ stored computed, stored ≠ computed ∧
      ∀ rest, read? (altered ++ rest) = .error (.checksumMismatch stored computed) := by
  rw [octets, List.append_assoc] at h
  obtain ⟨behind, rfl, hdamaged⟩ := h.of_append (by rw [length_ofLE])
  rw [length_ofLE] at hdamaged
  obtain ⟨word, rfl, hlength, hne⟩ := hdamaged.of_append_left (length_ofU32 _)
  rw [length_ofU32] at hlength
  -- A stored word that reads like the checksum has the octets of the checksum.
  have hmismatch : Checksum.ofBytes f.encode ≠ word.u32At 0 := by
    intro hsame
    have hword : ofU32 (word.u32At 0) = (word.drop 0).take 4 := ofU32_u32At (by omega)
    rw [List.drop_zero, ← hlength, List.take_length, ← hsame] at hword
    exact hne hword.symm
  refine ⟨_, _, hmismatch.symm, fun rest => ?_⟩
  rw [← List.append_assoc]
  exact read?_of_mismatch hfits hlength hmismatch rest

end LogFrame

namespace Log

/-- Where up to four octets in a row of a frame's content are damaged, or some
    of its checksum, the frame is refused, and a log is read up to it. -/
theorem damage_is_found {f : LogFrame} {altered : Bytes} {first : Nat}
    (hfits : f.encode.length ≤ LogFrame.maxLength) (hfirst : first = 4 ∨ 8 ≤ first)
    (h : Bytes.Damaged first f.octets altered) :
    ∃ stored computed, stored ≠ computed ∧
      (∀ rest, LogFrame.read? (altered ++ rest) = .error (.checksumMismatch stored computed)) ∧
      ∀ (frames : List LogFrame) (rest : Bytes),
        (∀ g ∈ frames, g.encode.length ≤ LogFrame.maxLength) →
          readAll (frames.flatMap LogFrame.octets ++ (altered ++ rest))
            = (frames, some (.checksumMismatch stored computed)) := by
  have hrefused : ∃ stored computed, stored ≠ computed ∧
      ∀ rest, LogFrame.read? (altered ++ rest) = .error (.checksumMismatch stored computed) := by
    rcases hfirst with rfl | hfirst
    · exact LogFrame.read?_of_damaged_checksum hfits h
    · exact LogFrame.read?_of_damaged_payload hfits hfirst h
  obtain ⟨stored, computed, hne, hread⟩ := hrefused
  refine ⟨stored, computed, hne, hread, fun frames rest hframes => ?_⟩
  -- The frames in front are taken off, and then the reading ends.
  have htaken := (takenOff_flatMap hframes (altered ++ rest)).readFrom_eq #[]
  have hended : readFrom (altered ++ rest) frames.toArray
      = (frames.toArray, some (.checksumMismatch stored computed)) := readFrom_ended (hread rest)
  rw [Array.empty_append, hended] at htaken
  simp only [readAll, htaken]

/-- The header of a log, with another version in place of its own. -/
def otherVersion : Bytes := plainHeader.octets.set 12 2

/-- Another version in the content can still be taken for a header, and the
    frame is refused all the same. So it is with another checksum. -/
theorem damage_is_found_otherVersion :
    LogFrame.parse (otherVersion.drop 8) = .ok (.header ⟨2, 0, "", 1⟩, []) ∧
      (∃ stored computed, stored ≠ computed ∧
        readAll (plainHeader.octets ++ otherVersion)
          = ([plainHeader], some (.checksumMismatch stored computed))) ∧
      ∃ stored computed, stored ≠ computed ∧
        LogFrame.read? (plainHeader.octets.set 4 0)
          = .error (.checksumMismatch stored computed) := by
  have hfits := fits_plainHeader plainHeader List.mem_cons_self
  -- One octet of the content differs, and then one of the checksum.
  have hcontent : Bytes.Damaged 12 plainHeader.octets otherVersion :=
    ⟨by decide +kernel, by decide +kernel, by decide +kernel, by decide +kernel⟩
  have hchecksum : Bytes.Damaged 4 plainHeader.octets (plainHeader.octets.set 4 0) :=
    ⟨by decide +kernel, by decide +kernel, by decide +kernel, by decide +kernel⟩
  refine ⟨by decide +kernel, ?_, ?_⟩
  · obtain ⟨stored, computed, hne, -, hread⟩ :=
      damage_is_found hfits (Or.inr (by decide)) hcontent
    have hlog := hread [plainHeader] [] fits_plainHeader
    rw [List.flatMap_singleton, List.append_nil] at hlog
    exact ⟨stored, computed, hne, hlog⟩
  · obtain ⟨stored, computed, hne, hread, -⟩ := damage_is_found hfits (Or.inl rfl) hchecksum
    have hframe := hread []
    rw [List.append_nil] at hframe
    exact ⟨stored, computed, hne, hframe⟩

end Log

end MarketFeed
