import MarketFeed.Text.Utf8

/-!
# Text Survives its Octets

Reading the octets that characters were written as gives the characters back.

One character is read without regard to what follows it, so the law is shown
for one character in front of any octets, by the count of octets it takes.
The leading octet decides the ranges of those that follow, and the ranges are
narrowed just where a shorter spelling, a surrogate or a number past the last
character would begin. A character is none of these, so what it is written as
lies in the ranges.

## Theorems

* `decodeFrom_encodeChar`: One character, whatever follows.
* `decode_encode`: All characters of a text.
* `length_encode`: Text takes as many octets as the system counts.
-/

namespace MarketFeed

namespace Utf8

variable {index count value low high : Nat} {rest : Bytes} {done : List Char}

/-- The octet that carries the last six bits of a number inside a character. -/
def followOf (n : Nat) : UInt8 := UInt8.ofNat (0x80 + n % 64)

theorem toNat_ofNat {n : Nat} (h : n < 256) : (UInt8.ofNat n).toNat = n :=
  UInt8.toNat_ofNat_of_lt' h

theorem toNat_followOf (n : Nat) : (followOf n).toNat = 0x80 + n % 64 :=
  toNat_ofNat (by omega)

/-! ## One octet -/

/-- The first octet of a longer character tells what may follow it. -/
theorem decodeFrom_lead {b : UInt8} {range : Nat × Nat} {ranges : List (Nat × Nat)}
    (h : lead? b.toNat = some (value, range :: ranges)) :
    decodeFrom (b :: rest) index none done
      = decodeFrom rest (index + 1) (some ⟨index, 1, value, range :: ranges⟩) done := by
  simp only [decodeFrom, h]

/-- An octet inside a character is met where its range allows it. -/
theorem decodeFrom_more {n start : Nat} {range : Nat × Nat} {ranges : List (Nat × Nat)}
    (hlow : low ≤ 0x80 + n % 64) (hhigh : 0x80 + n % 64 ≤ high) :
    decodeFrom (followOf n :: rest) index
        (some ⟨start, count, value, (low, high) :: range :: ranges⟩) done
      = decodeFrom rest (index + 1)
          (some ⟨start, count + 1, value * 64 + n % 64, range :: ranges⟩) done := by
  simp only [decodeFrom, toNat_followOf]
  rw [if_pos ⟨hlow, hhigh⟩, Nat.add_sub_cancel_left]

theorem decodeFrom_last {n start : Nat}
    (hlow : low ≤ 0x80 + n % 64) (hhigh : 0x80 + n % 64 ≤ high) :
    decodeFrom (followOf n :: rest) index (some ⟨start, count, value, [(low, high)]⟩) done
      = decodeFrom rest (index + 1) none (Char.ofNat (value * 64 + n % 64) :: done) := by
  simp only [decodeFrom, toNat_followOf]
  rw [if_pos ⟨hlow, hhigh⟩, Nat.add_sub_cancel_left]

/-! ## The ranges behind a leading octet -/

theorem lead?_one {n : Nat} (h : n < 0x80) : lead? n = some (n, []) := by
  rw [lead?, if_pos h]

/-- Two octets hold what one has no room for, up to eleven bits. -/
theorem lead?_two {n : Nat} (hlow : 0x80 ≤ n) (hhigh : n < 0x800) :
    lead? (0xc0 + n / 64) = some (n / 64, [follow]) := by
  unfold lead?
  rw [if_neg (by omega), if_neg (by omega), if_pos (by omega), Nat.add_sub_cancel_left]

/-- Three octets hold up to sixteen bits. The first octet that follows may be
    narrowed, but never past the number. -/
theorem lead?_three {n : Nat} (hlow : 0x800 ≤ n) (hhigh : n < 0x10000)
    (hvalid : n < 0xd800 ∨ 0xdfff < n) :
    ∃ low high, lead? (0xe0 + n / 4096) = some (n / 4096, [(low, high), follow])
      ∧ low ≤ 0x80 + n / 64 % 64 ∧ 0x80 + n / 64 % 64 ≤ high := by
  unfold lead?
  rw [if_neg (by omega), if_neg (by omega), if_neg (by omega)]
  by_cases hfirst : n / 4096 = 0
  · rw [hfirst, if_pos rfl]
    exact ⟨_, _, rfl, by omega, by omega⟩
  · by_cases hsurrogate : n / 4096 = 0xd
    · rw [hsurrogate, if_neg (by omega), if_pos rfl]
      exact ⟨_, _, rfl, by omega, by omega⟩
    · rw [if_neg (by omega), if_neg (by omega), if_pos (by omega), Nat.add_sub_cancel_left]
      exact ⟨_, _, rfl, by omega, by omega⟩

/-- Four octets hold the rest, and again the narrowed range has the number. -/
theorem lead?_four {n : Nat} (hlow : 0x10000 ≤ n) (hhigh : n < 0x110000) :
    ∃ low high, lead? (0xf0 + n / 262144) = some (n / 262144, [(low, high), follow, follow])
      ∧ low ≤ 0x80 + n / 4096 % 64 ∧ 0x80 + n / 4096 % 64 ≤ high := by
  unfold lead?
  rw [if_neg (by omega), if_neg (by omega), if_neg (by omega), if_neg (by omega),
    if_neg (by omega), if_neg (by omega)]
  by_cases hfirst : n / 262144 = 0
  · rw [hfirst, if_pos rfl]
    exact ⟨_, _, rfl, by omega, by omega⟩
  · by_cases hlast : n / 262144 = 4
    · rw [hlast, if_neg (by omega), if_neg (by omega), if_pos rfl]
      exact ⟨_, _, rfl, by omega, by omega⟩
    · rw [if_neg (by omega), if_pos (by omega), Nat.add_sub_cancel_left]
      exact ⟨_, _, rfl, by omega, by omega⟩

/-! ## Characters -/

variable {n : Nat}

theorem decodeFrom_one (h : n < 0x80) :
    decodeFrom (UInt8.ofNat n :: rest) index none done
      = decodeFrom rest (index + 1) none (Char.ofNat n :: done) := by
  have hnat : (UInt8.ofNat n).toNat = n := toNat_ofNat (by omega)
  simp only [decodeFrom, hnat, lead?_one h]

theorem decodeFrom_two (hlow : 0x80 ≤ n) (hhigh : n < 0x800) :
    decodeFrom (UInt8.ofNat (0xc0 + n / 64) :: followOf n :: rest) index none done
      = decodeFrom rest (index + 2) none (Char.ofNat n :: done) := by
  have hlead := lead?_two hlow hhigh
  rw [← toNat_ofNat (show 0xc0 + n / 64 < 256 by omega)] at hlead
  have hnumber : n / 64 * 64 + n % 64 = n := by omega
  rw [decodeFrom_lead hlead, follow, decodeFrom_last (by omega) (by omega), hnumber]

theorem decodeFrom_three (hlow : 0x800 ≤ n) (hhigh : n < 0x10000)
    (hvalid : n < 0xd800 ∨ 0xdfff < n) :
    decodeFrom (UInt8.ofNat (0xe0 + n / 4096) :: followOf (n / 64) :: followOf n :: rest) index
        none done
      = decodeFrom rest (index + 3) none (Char.ofNat n :: done) := by
  obtain ⟨low, high, hlead, hfrom, hto⟩ := lead?_three hlow hhigh hvalid
  rw [← toNat_ofNat (show 0xe0 + n / 4096 < 256 by omega)] at hlead
  have hnumber : (n / 4096 * 64 + n / 64 % 64) * 64 + n % 64 = n := by omega
  rw [decodeFrom_lead hlead, decodeFrom_more hfrom hto, follow,
    decodeFrom_last (by omega) (by omega), hnumber]

theorem decodeFrom_four (hlow : 0x10000 ≤ n) (hhigh : n < 0x110000) :
    decodeFrom (UInt8.ofNat (0xf0 + n / 262144) :: followOf (n / 4096) :: followOf (n / 64) ::
        followOf n :: rest) index none done
      = decodeFrom rest (index + 4) none (Char.ofNat n :: done) := by
  obtain ⟨low, high, hlead, hfrom, hto⟩ := lead?_four hlow hhigh
  rw [← toNat_ofNat (show 0xf0 + n / 262144 < 256 by omega)] at hlead
  have hnumber :
      ((n / 262144 * 64 + n / 4096 % 64) * 64 + n / 64 % 64) * 64 + n % 64 = n := by omega
  rw [decodeFrom_lead hlead, decodeFrom_more hfrom hto, follow,
    decodeFrom_more (by omega) (by omega), decodeFrom_last (by omega) (by omega), hnumber]

/-- One character is read back, whatever follows it. -/
theorem decodeFrom_encodeChar (c : Char) (rest : Bytes) (index : Nat) (done : List Char) :
    decodeFrom (encodeChar c ++ rest) index none done
      = decodeFrom rest (index + (encodeChar c).length) none (c :: done) := by
  have hvalid : c.toNat < 0xd800 ∨ 0xdfff < c.toNat ∧ c.toNat < 0x110000 := c.valid
  have hc : Char.ofNat c.toNat = c := Char.ofNat_toNat c
  unfold encodeChar
  generalize c.toNat = n at hvalid hc
  subst hc
  -- The cases are those of the encoding.
  by_cases hone : n < 0x80
  · rw [if_pos hone]
    exact decodeFrom_one hone
  rw [if_neg hone]
  by_cases htwo : n < 0x800
  · rw [if_pos htwo]
    exact decodeFrom_two (by omega) htwo
  rw [if_neg htwo]
  by_cases hthree : n < 0x10000
  · rw [if_pos hthree]
    exact decodeFrom_three (by omega) hthree (by omega)
  · rw [if_neg hthree]
    exact decodeFrom_four (by omega) (by omega)

/-- Characters are read back behind those that were read before. -/
theorem decodeFrom_encode (cs : List Char) (index : Nat) (done : List Char) :
    decodeFrom (encode cs) index none done = .ok (done.reverse ++ cs) := by
  induction cs generalizing index done with
  | nil => simp only [encode, List.flatMap_nil, decodeFrom, List.append_nil]
  | cons c cs ih =>
      rw [encode, List.flatMap_cons, decodeFrom_encodeChar, ← encode, ih, List.reverse_cons,
        List.append_assoc, List.singleton_append]

/-- What was encoded is decoded. -/
theorem decode_encode (cs : List Char) : decode (encode cs) = .ok cs :=
  decodeFrom_encode cs 0 []

/-! ## Lengths -/

theorem length_encodeChar (c : Char) : (encodeChar c).length = c.utf8Size := by
  -- Both sides distinguish the same four ranges of characters.
  unfold encodeChar Char.utf8Size
  simp only [UInt32.le_iff_toNat_le, Char.toNat]
  split <;> split <;> simp_all <;> grind

/-- A text takes the octets that its size counts. -/
theorem length_encode (s : String) : (encode s.toList).length = s.utf8ByteSize := by
  have hall : ∀ cs : List Char, (encode cs).length = (String.ofList cs).utf8ByteSize := by
    intro cs
    induction cs with
    | nil => rfl
    | cons c cs ih =>
        have hsplit : String.ofList (c :: cs) = String.singleton c ++ String.ofList cs :=
          String.toList_inj.mp (by simp)
        rw [hsplit, String.utf8ByteSize_append, ← ih, encode, List.flatMap_cons,
          List.length_append, ← encode, length_encodeChar, String.utf8ByteSize_singleton]
  rw [hall, String.ofList_toList]

end Utf8

end MarketFeed
