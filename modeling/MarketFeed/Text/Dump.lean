import MarketFeed.Text

/-!
# Octets as a Dump

Sixteen octets a line: where they stand, their digits, and what they would be
as characters.

The digits are set in two groups of eight. A line that is not full keeps the
width of a full one, so that the characters stand in one column. Only the
printing characters of ASCII and the blank are shown as they are; a point
stands for everything else.

## Main definitions

* `Dump.line`: One line.
* `Dump.text`: The dump of any number of octets.
-/

namespace MarketFeed

namespace Dump

/-- How many octets a line shows. -/
def width : Nat := 16

/-- The character an octet is shown as. -/
def shown (b : UInt8) : Char :=
  if 0x20 ≤ b.toNat ∧ b.toNat < 0x7f then Char.ofNat b.toNat else '.'

/-- The digits at a place of the line, or blanks where the line has ended. A
    further blank closes the first group. -/
def cell (row : Bytes) (place : Nat) : String :=
  let digits := match row[place]? with
    | some b => " " ++ Text.octet b
    | none => "   "
  if place = 7 then digits ++ " " else digits

/-- A line that begins at an offset. -/
def line (offset : Nat) (row : Bytes) : String :=
  Text.hexPadded 8 offset ++ " " ++ String.join ((List.range width).map (cell row)) ++ "  |" ++
    String.ofList (row.map shown) ++ "|"

/-- The lines of this many octets from an offset on. -/
def linesFrom (offset : Nat) : Nat → Bytes → List String
  | 0, _ => []
  | count + 1, input =>
    line offset (input.take width) :: linesFrom (offset + width) count (input.drop width)

/-- The dump of octets. -/
def text (input : Bytes) : String :=
  Text.lines (linesFrom 0 ((input.length + width - 1) / width) input)

end Dump

end MarketFeed
