import MarketFeed.Files

/-!
# Changes to the File System

What brings one state of the file system into another.

A command works on the file system as a value, and only when it has ended is
the difference carried out. The difference is a list with at most one change
for each place, so nothing that a command wrote and gave up again is ever
written. Folders are made in the order in which they came to be, which puts a
folder in front of what stands in it.

## Main definitions

* `Change`: One thing to be done.
* `Files.changes`: What has to be done, and where.

## Theorems

* `changes_self`: Nothing has to be done to what stays as it is.
-/

namespace MarketFeed

/-- One thing to be done to the file system. -/
inductive Change
  /-- Make a folder. -/
  | make (place : Location)
  /-- Write a file, in place of the file that stands there. -/
  | write (place : Location) (content : Bytes)
  /-- Remove a file. -/
  | remove (place : Location)
  deriving DecidableEq, Repr

namespace Files

/-- What has to be done at a place. -/
def changeAt (old new : Files) (place : Location) : Option Change :=
  if old.lookup? place = new.lookup? place then none
  else
    match new.lookup? place with
    | some (.file content) => some (.write place content)
    | some .folder => some (.make place)
    | none => some (.remove place)

/-- The places below the root where something stands. -/
def occupied (files : Files) : List Location := files.entries.map Prod.fst

/-- What has to be done to bring one state into another. What is to be gone
    comes first. -/
def changes (old new : Files) : List Change :=
  let gone := old.occupied.filter fun place => new.lookup? place = none
  (gone ++ new.occupied).filterMap (changeAt old new)

theorem changes_self (files : Files) : files.changes files = [] := by
  unfold changes
  rw [List.filterMap_eq_nil_iff]
  intro place _
  simp [changeAt]

end Files

end MarketFeed
