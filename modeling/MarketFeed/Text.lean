import MarketFeed.Bytes

/-!
# Columns and Hexadecimal

The few spellings that tables, messages and dumps share.

Everything here is a plain function from a value to text, kept apart from the
reports that use it so that a report reads as the list of its columns.

## Main definitions

* `Text.alignRight`, `Text.padZeros`: Filling a column from the left.
* `Text.hex`: A number in base sixteen.
* `Text.octets`: Octets as pairs of hexadecimal digits.
* `Text.lines`: Lines with a line feed behind each.

## Theorems

* `length_alignRight`: A column is as wide as asked, or as its text.
-/

namespace MarketFeed

namespace Text

/-- The text behind as many fill characters as bring it to `width`. Longer
    text is left as it is. -/
def fillLeft (fill : Char) (width : Nat) (text : String) : String :=
  String.ofList (List.replicate (width - text.length) fill) ++ text

/-- The text at the right end of a column of blanks. -/
def alignRight (width : Nat) (text : String) : String := fillLeft ' ' width text

/-- The text behind zeros up to `width`. -/
def padZeros (width : Nat) (text : String) : String := fillLeft '0' width text

/-- A number in base sixteen, in small letters and without leading zeros. -/
def hex (n : Nat) : String := String.ofList (Nat.toDigits 16 n)

/-- A number in base sixteen with at least `width` digits. -/
def hexPadded (width n : Nat) : String := padZeros width (hex n)

/-- An octet as its two digits in base sixteen. -/
def octet (b : UInt8) : String := hexPadded 2 b.toNat

/-- Octets as pairs of digits with nothing between them. -/
def octets (input : Bytes) : String := String.join (input.map octet)

/-- Lines with a line feed behind each, the last one too. -/
def lines (rows : List String) : String :=
  String.join (rows.map (· ++ "\n"))

theorem length_alignRight (width : Nat) (text : String) :
    (alignRight width text).length = max width text.length := by
  simp only [alignRight, fillLeft, String.length_append, String.length_ofList,
    List.length_replicate]
  omega

end Text

end MarketFeed
