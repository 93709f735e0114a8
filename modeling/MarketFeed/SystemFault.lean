/-!
# What the System Refuses

The refusals of the file system that can reach a report, and their wording.

The commands open files, make folders and rename, and each of these can be
refused for one reason or another. The reason ends up as the last sentence of
a failure, in the system's own words.

## Main definitions

* `SystemFault`: The refusals.
* `SystemFault.message`: What the system says.

## Theorems

* `message_injective`: Different refusals are worded differently.
-/

namespace MarketFeed

/-- Why the system refuses a step. -/
inductive SystemFault
  /-- There is nothing under the name. -/
  | missing
  /-- A file stands where a folder is to be made. -/
  | exists
  /-- A file stands where a path goes on into a folder. -/
  | notFolder
  /-- A folder stands where a file is to be read or written. -/
  | isFolder
  /-- A path or a name in it has too many octets. -/
  | nameTooLong
  deriving DecidableEq, Repr

namespace SystemFault

/-- What the system says. -/
def message : SystemFault → String
  | .missing => "No such file or directory (os error 2)"
  | .exists => "File exists (os error 17)"
  | .notFolder => "Not a directory (os error 20)"
  | .isFolder => "Is a directory (os error 21)"
  | .nameTooLong => "File name too long (os error 36)"

/-- A fault can be told by its message. -/
theorem message_injective {a b : SystemFault} (h : a.message = b.message) : a = b := by
  cases a <;> cases b <;> first | rfl | (revert h; decide)

end SystemFault

end MarketFeed
