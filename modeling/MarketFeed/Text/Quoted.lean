import MarketFeed.Text
import MarketFeed.Text.Hidden

/-!
# Quoted Names

A file name between quotation marks, as reports show it.

The marks are escaped inside the name, and so is the character that escapes.
Four control characters have escapes of a letter or digit of their own, and
whatever else does not show is given by its number in braces. All else stands
for itself, in any script.

## Main definitions

* `Text.quotedChar`: How a character stands in a quoted name.
* `Text.quoted`: A name between quotation marks.
-/

namespace MarketFeed

namespace Text

/-- The escape of a character that has one of its own. -/
def escape? (c : Char) : Option Char :=
  if c = '"' ∨ c = '\\' then some c
  else if c = '\n' then some 'n'
  else if c = '\r' then some 'r'
  else if c = '\t' then some 't'
  else if c.toNat = 0 then some '0'
  else none

/-- How a character stands between quotation marks. -/
def quotedChar (c : Char) : String :=
  match escape? c with
  | some e => String.ofList ['\\', e]
  | none => if isHidden c then "\\u\x7b" ++ hex c.toNat ++ "\x7d" else c.toString

/-- A name between quotation marks. -/
def quoted (name : String) : String :=
  "\"" ++ String.join (name.toList.map quotedChar) ++ "\""

end Text

end MarketFeed
