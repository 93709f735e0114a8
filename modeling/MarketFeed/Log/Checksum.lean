import MarketFeed.Bytes

/-!
# The Checksum of a Frame

The cyclic redundancy check of 32 bits, in its reflected form.

Octets are taken least significant bit first into a register that starts with
all bits set and is inverted at the end. One bit is one shift, with the
polynomial added whenever a set bit leaves the register. The register is
linear in the input, which is what makes the check find every short burst of
damage.

## Main definitions

* `Checksum.shift`: One bit.
* `Checksum.octet`: Eight bits.
* `Checksum.ofBytes`: The checksum of octets.

## Theorems

* `run_append`: The register takes octets one part after the other.
-/

namespace MarketFeed

namespace Checksum

/-- The polynomial, its coefficients in reflected order. -/
def polynomial : UInt32 := 0xedb88320

/-- Shift the register by one bit. -/
def shift (register : UInt32) : UInt32 :=
  if register &&& 1 = 1 then (register >>> 1) ^^^ polynomial else register >>> 1

/-- Take one octet into the register. -/
def octet (register : UInt32) (b : UInt8) : UInt32 :=
  (List.range 8).foldl (fun r _ => shift r) (register ^^^ b.toUInt32)

/-- Take octets into the register. -/
def run (register : UInt32) (input : Bytes) : UInt32 := input.foldl octet register

/-- The checksum of octets. -/
def ofBytes (input : Bytes) : UInt32 := run 0xffffffff input ^^^ 0xffffffff

/-- The register can be read off between any two octets. -/
theorem run_append (register : UInt32) (front back : Bytes) :
    run register (front ++ back) = run (run register front) back :=
  List.foldl_append

end Checksum

end MarketFeed
