import MarketFeed.Text

/-!
# Failures and Their Causes

How a command reports what went wrong.

A failure is a chain of sentences: what was being done, and behind it why it
could not be done. A single cause is set under the first sentence; several
are numbered from zero.

## Main definitions

* `Failure`: The sentences, the outermost first.
* `Failure.text`: The report.
-/

namespace MarketFeed

/-- What went wrong, the outermost sentence first. -/
structure Failure where
  /-- What was being done, or what went wrong. -/
  sentence : String
  /-- What lies behind it, from the outside in. -/
  causes : List String := []
  deriving DecidableEq, Repr

namespace Failure

/-- A chain of sentences as a failure. -/
def ofChain : List String → Failure
  | [] => { sentence := "" }
  | sentence :: causes => { sentence, causes }

/-- The failure of something that was done for the sake of something else. -/
def within (context : String) (chain : List String) : Failure :=
  { sentence := context, causes := chain }

/-- A cause with its number. -/
def numbered (index : Nat) (cause : String) : String :=
  Text.alignRight 5 (toString index) ++ ": " ++ cause

/-- The lines of the causes. -/
def causeLines : List String → List String
  | [] => []
  | [cause] => ["", "Caused by:", "    " ++ cause]
  | causes => "" :: "Caused by:" :: causes.mapIdx numbered

/-- The report of a failure. -/
def text (f : Failure) : String := Text.lines (("Error: " ++ f.sentence) :: causeLines f.causes)

end Failure

end MarketFeed
