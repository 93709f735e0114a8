import MarketFeed.Files.Folder
import MarketFeed.Files.Path
import MarketFeed.SystemFault
import MarketFeed.Text.Quoted

/-!
# The Staging of Outputs

The steps by which an output is put into its folder.

An output is first written under a staging name and only takes its final name
when it is complete. Each step takes the folder and gives it back, whether
the step succeeds or not, so what a failure leaves behind can be read off the
folder. A step fails where the system would refuse it: a folder stands under
the name that is to be written or replaced, or the path of the file is too
long.

Removing a staged file never fails for a file that was staged. Where a folder
stands under the name instead, it stays.

The path of a folder is given as it was asked for. A staged file is named
behind the folder's trimmed path, a complete one behind the path as given.

## Main definitions

* `Storing`: Steps that change a folder and may fail.
* `Folder.stage`, `Folder.fill`, `Folder.commit`, `Folder.discard`: The life
  of an output.
* `OutputError`: Why a step failed.

## Theorems

* `lookup?_discard_self`: A file that is given up is gone.
* `lookup?_discard_of_ne`: Giving up a file concerns its staging name alone.
-/

namespace MarketFeed

/-- Why an output could not be put into its folder. -/
inductive OutputError
  /-- A folder or a file could not be made. -/
  | create (path : String) (fault : SystemFault)
  /-- A file could not take its final name. -/
  | rename (source target : String) (fault : SystemFault)
  deriving DecidableEq, Repr

namespace OutputError

/-- What was tried. -/
def context : OutputError → String
  | .create path _ => "create " ++ Text.quoted path
  | .rename source target _ => "rename " ++ Text.quoted source ++ " to " ++ Text.quoted target

/-- What was tried, followed by why it was refused. -/
def chain (e : OutputError) : List String :=
  match e with
  | .create _ fault | .rename _ _ fault => [e.context, fault.message]

end OutputError

/-- Steps that change a folder and may fail. The folder comes back from a
    failure as well. -/
abbrev Storing (α : Type) := Folder → Except OutputError α × Folder

namespace Storing

variable {α β : Type}

/-- No step. -/
def done (a : α) : Storing α := fun f => (.ok a, f)

/-- One step after another. A failure ends them where it happens. -/
def andThen (first : Storing α) (next : α → Storing β) : Storing β := fun f =>
  match first f with
  | (.ok a, f) => next a f
  | (.error e, f) => (.error e, f)

end Storing

namespace Folder

/-- The name that a file has until it is complete. -/
def staging (name : String) : String := name ++ ".partial"

/-- The path of a file until it is complete. -/
def stagedPath (path name : String) : String := Path.join (Path.trim path) (staging name)

/-- Begin an output: open a file without content under the staging name. -/
def stage (path name : String) : Storing Unit := fun f =>
  let refuse (fault : SystemFault) : OutputError := .create (stagedPath path name) fault
  if Path.isTooLong (stagedPath path name) then (.error (refuse .nameTooLong), f)
  else
    match f.lookup? (staging name) with
    | some .folder => (.error (refuse .isFolder), f)
    | _ => (.ok (), f.put (staging name) (.file []))

/-- Write the content of an output that has been begun. -/
def fill (name : String) (content : Bytes) : Folder → Folder :=
  put (staging name) (.file content)

/-- Let an output take its final name. -/
def commit (path name : String) : Storing Unit := fun f =>
  let refuse (fault : SystemFault) : OutputError :=
    .rename (stagedPath path name) (Path.join path name) fault
  if Path.isTooLong (Path.join path name) then (.error (refuse .nameTooLong), f)
  else
    match f.lookup? (staging name), f.lookup? name with
    | none, _ => (.error (refuse .missing), f)
    | some _, some .folder => (.error (refuse .isFolder), f)
    | some entry, _ => (.ok (), (f.erase (staging name)).put name entry)

/-- Give up an output that has been begun. -/
def discard (name : String) (f : Folder) : Folder :=
  match f.lookup? (staging name) with
  | some (.file _) => f.erase (staging name)
  | _ => f

/-- A staged file is gone after it has been discarded. -/
theorem lookup?_discard_self {name : String} {content : Bytes} {f : Folder}
    (h : f.lookup? (staging name) = some (.file content)) :
    (f.discard name).lookup? (staging name) = none := by
  simp only [discard, h, lookup?_erase_self]

/-- Discarding touches the staged file alone. -/
theorem lookup?_discard_of_ne {name other : String} (hne : staging name ≠ other) (f : Folder) :
    (f.discard name).lookup? other = f.lookup? other := by
  unfold discard
  split
  · exact lookup?_erase_of_ne hne f
  · rfl

end Folder

end MarketFeed
