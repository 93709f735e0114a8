import MarketFeed.Bytes

/-!
# Text as Octets

Characters in the encoding of one to four octets, and what is wrong with
octets that are not such text.

The first octet of a character tells how many follow and in which range each
of them must lie. All follow-ups but the first lie in one range; the first is
narrowed after four of the leading octets, which keeps out spellings longer
than needed, the surrogates, and numbers past the last character.

A fault names the place where its character begins. Octets that break off
inside a character at the end of the text are told apart from octets that are
wrong, since more of the former could have made them right.

Reading is one pass that carries the character begun so far, so it is a
recursion on the octets themselves.

## Main definitions

* `Utf8.encode`: The octets of characters.
* `Utf8.decode`: The characters of octets, or the first fault.
* `Utf8.Fault`: What is wrong, and where.
-/

namespace MarketFeed

namespace Utf8

/-- The octets of one character. -/
def encodeChar (c : Char) : Bytes :=
  let n := c.toNat
  let follow (k : Nat) : UInt8 := UInt8.ofNat (0x80 + k % 64)
  if n < 0x80 then [UInt8.ofNat n]
  else if n < 0x800 then [UInt8.ofNat (0xc0 + n / 64), follow n]
  else if n < 0x10000 then [UInt8.ofNat (0xe0 + n / 4096), follow (n / 64), follow n]
  else [UInt8.ofNat (0xf0 + n / 262144), follow (n / 4096), follow (n / 64), follow n]

/-- The octets of characters. -/
def encode (cs : List Char) : Bytes := cs.flatMap encodeChar

/-- What is wrong with octets that are not text. -/
inductive Fault
  /-- This many octets from this place on begin no character. -/
  | invalid (length index : Nat)
  /-- The text breaks off in the character that begins at this place. -/
  | incomplete (index : Nat)
  deriving DecidableEq, Repr

/-- The fault as a sentence. -/
def Fault.message : Fault → String
  | .invalid length index =>
    "invalid utf-8 sequence of " ++ toString length ++ " bytes from index " ++ toString index
  | .incomplete index => "incomplete utf-8 byte sequence from index " ++ toString index

/-- The range of an octet that follows another. -/
def follow : Nat × Nat := (0x80, 0xbf)

/-- What a leading octet contributes to its character, and the ranges of the
    octets that must follow it. -/
def lead? (b : Nat) : Option (Nat × List (Nat × Nat)) :=
  if b < 0x80 then some (b, [])
  else if b < 0xc2 then none
  else if b < 0xe0 then some (b - 0xc0, [follow])
  else if b = 0xe0 then some (0, [(0xa0, 0xbf), follow])
  else if b = 0xed then some (0xd, [(0x80, 0x9f), follow])
  else if b < 0xf0 then some (b - 0xe0, [follow, follow])
  else if b = 0xf0 then some (0, [(0x90, 0xbf), follow, follow])
  else if b < 0xf4 then some (b - 0xf0, [follow, follow, follow])
  else if b = 0xf4 then some (4, [(0x80, 0x8f), follow, follow])
  else none

/-- A character of which some octets have been read. -/
structure Begun where
  /-- Where it begins. -/
  index : Nat
  /-- How many of its octets have been read. -/
  count : Nat
  /-- What those octets contribute. -/
  value : Nat
  /-- The ranges of the octets still to come. -/
  ranges : List (Nat × Nat)

/-- Read octets from a place on, with the character begun before it and the
    characters complete before that, the last one first. -/
def decodeFrom : Bytes → Nat → Option Begun → List Char → Except Fault (List Char)
  | [], _, none, done => .ok done.reverse
  | [], _, some begun, _ => .error (.incomplete begun.index)
  | b :: rest, index, none, done =>
    match lead? b.toNat with
    | none => .error (.invalid 1 index)
    | some (value, []) => decodeFrom rest (index + 1) none (Char.ofNat value :: done)
    | some (value, ranges) => decodeFrom rest (index + 1) (some ⟨index, 1, value, ranges⟩) done
  | b :: rest, index, some begun, done =>
    match begun.ranges with
    | [] => .error (.invalid begun.count begun.index)
    | (low, high) :: ranges =>
      if low ≤ b.toNat ∧ b.toNat ≤ high then
        let value := begun.value * 64 + (b.toNat - 0x80)
        match ranges with
        | [] => decodeFrom rest (index + 1) none (Char.ofNat value :: done)
        | _ =>
          decodeFrom rest (index + 1) (some ⟨begun.index, begun.count + 1, value, ranges⟩) done
      else .error (.invalid begun.count begun.index)

/-- The characters of octets, or the first fault. -/
def decode (input : Bytes) : Except Fault (List Char) := decodeFrom input 0 none []

end Utf8

end MarketFeed
