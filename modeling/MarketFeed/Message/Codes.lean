import MarketFeed.Text

/-!
# Coded Fields

The fields of a message that are codes rather than quantities.

An action and a side travel as one octet each. The octets the feed defines
get names of their own; any other octet is kept as it came, so that a message
with an unknown code can be reported and written again without loss. A value
that carries a known octet under `unknown` can be built but is never read off
the wire.

A message's template number is the third code. A number without a template
ends the datagram it stands in, so here an unknown one is no value at all.

## Main definitions

* `Action`, `Side`: The two octet codes.
* `Template`: The kinds of message.

## Theorems

* `Action.toCode_ofCode`, `Side.toCode_ofCode`: Every octet survives being
  read and written.
* `Template.ofNumber?_number`: A template is found by its own number.
-/

namespace MarketFeed

/-- What an update or an execution does to its order. -/
inductive Action
  /-- The order is new. -/
  | new
  /-- The order has changed. -/
  | update
  /-- The order is gone. -/
  | delete
  /-- A code without a meaning. -/
  | unknown (code : UInt8)
  deriving DecidableEq, Repr, Inhabited

namespace Action

/-- The action with this code. -/
def ofCode (code : UInt8) : Action :=
  if code = 0 then .new
  else if code = 1 then .update
  else if code = 2 then .delete
  else .unknown code

/-- The code of an action. -/
def toCode : Action → UInt8
  | .new => 0
  | .update => 1
  | .delete => 2
  | .unknown code => code

/-- The action's name, or its code in decimal. -/
def text : Action → String
  | .new => "new"
  | .update => "update"
  | .delete => "delete"
  | .unknown code => "unknown(" ++ toString code.toNat ++ ")"

/-- Every code is written back as it was read, known or not. -/
theorem toCode_ofCode (code : UInt8) : (ofCode code).toCode = code := by
  unfold ofCode
  split
  · next h => simp [toCode, h]
  · split
    · next h => simp [toCode, h]
    · split
      · next h => simp [toCode, h]
      · rfl

end Action

/-- The side of the book an order rests on. -/
inductive Side
  /-- A buyer's order. -/
  | bid
  /-- A seller's order. -/
  | offer
  /-- The marker of a book without orders. -/
  | emptyBook
  /-- A code without a meaning. -/
  | unknown (code : UInt8)
  deriving DecidableEq, Repr, Inhabited

namespace Side

/-- The side with this code: the characters 0, 1 and J. -/
def ofCode (code : UInt8) : Side :=
  if code = 0x30 then .bid
  else if code = 0x31 then .offer
  else if code = 0x4a then .emptyBook
  else .unknown code

/-- The code of a side. -/
def toCode : Side → UInt8
  | .bid => 0x30
  | .offer => 0x31
  | .emptyBook => 0x4a
  | .unknown code => code

/-- The side's name, or its code in base sixteen. -/
def text : Side → String
  | .bid => "bid"
  | .offer => "offer"
  | .emptyBook => "empty"
  | .unknown code => "unknown(0x" ++ Text.octet code ++ ")"

/-- Every code is written back as it was read, known or not. -/
theorem toCode_ofCode (code : UInt8) : (ofCode code).toCode = code := by
  unfold ofCode
  split
  · next h => simp [toCode, h]
  · split
    · next h => simp [toCode, h]
    · split
      · next h => simp [toCode, h]
      · rfl

end Side

/-- The kinds of message a frame can announce. -/
inductive Template
  /-- A change to a resting order. -/
  | orderUpdate
  /-- A trade against a resting order. -/
  | orderExecution
  /-- The state of a whole book. -/
  | bookSnapshot
  deriving DecidableEq, Repr

namespace Template

/-- The number that announces the template. -/
def number : Template → UInt16
  | .orderUpdate => 15
  | .orderExecution => 16
  | .bookSnapshot => 17

/-- The template announced by a number, if there is one. -/
def ofNumber? (number : UInt16) : Option Template :=
  if number = 15 then some .orderUpdate
  else if number = 16 then some .orderExecution
  else if number = 17 then some .bookSnapshot
  else none

theorem ofNumber?_number (template : Template) : ofNumber? template.number = some template := by
  cases template <;> rfl

/-- A number that stands for a template is the number of that template. -/
theorem number_of_ofNumber? {number : UInt16} {template : Template}
    (h : ofNumber? number = some template) : template.number = number := by
  unfold ofNumber? at h
  split at h
  · next h' => cases h; exact h'.symm
  · split at h
    · next h' => cases h; exact h'.symm
    · split at h
      · next h' => cases h; exact h'.symm
      · cases h

end Template

end MarketFeed
