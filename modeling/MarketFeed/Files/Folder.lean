import MarketFeed.Bytes
import MarketFeed.Keyed

/-!
# Folders

What stands in a folder, by name.

A folder is seen from the outside: a file with its content, and of a folder
inside it only that it is one. This is all that matters to whoever writes
files into the folder, since a file is written or replaced under its name and
never reaches into another folder.

## Main definitions

* `Entry`: What stands under a name.
* `Folder`: The entries of a folder.
* `Folder.lookup?`, `Folder.put`, `Folder.erase`: One entry.

## Theorems

* `lookup?_put_self`, `lookup?_put_of_ne`: A write concerns one name.
* `lookup?_erase_self`, `lookup?_erase_of_ne`: So does a removal.
-/

namespace MarketFeed

/-- What stands under a name. -/
inductive Entry
  /-- A file with its content. -/
  | file (content : Bytes)
  /-- A folder. -/
  | folder
  deriving DecidableEq, Repr

/-- The entries of a folder. -/
structure Folder where
  /-- The entries by name. -/
  entries : List (String × Entry) := []
  deriving DecidableEq, Repr

namespace Folder

/-- The order of names. -/
def nameOrder (a b : String) : Bool := a < b

/-- What stands under a name. -/
def lookup? (name : String) (f : Folder) : Option Entry := Keyed.find? name f.entries

/-- Let an entry stand under a name, in place of what stood there. -/
def put (name : String) (entry : Entry) (f : Folder) : Folder :=
  { f with entries := Keyed.insert nameOrder name entry f.entries }

/-- Let nothing stand under a name. -/
def erase (name : String) (f : Folder) : Folder :=
  { f with entries := Keyed.erase name f.entries }

/-- A folder with these entries. Of two under one name the later counts. -/
def ofList (entries : List (String × Entry)) : Folder :=
  entries.foldl (fun f (name, entry) => f.put name entry) {}

theorem lookup?_put_self (name : String) (entry : Entry) (f : Folder) :
    (f.put name entry).lookup? name = some entry :=
  Keyed.find?_insert_self _ _ _ _

/-- Putting an entry under a name leaves the other names alone. -/
theorem lookup?_put_of_ne {name other : String} (hne : name ≠ other) (entry : Entry) (f : Folder) :
    (f.put name entry).lookup? other = f.lookup? other :=
  Keyed.find?_insert_of_ne _ _ hne _

theorem lookup?_erase_self (name : String) (f : Folder) : (f.erase name).lookup? name = none :=
  Keyed.find?_erase_self _ _

/-- Erasing a name leaves the other names alone. -/
theorem lookup?_erase_of_ne {name other : String} (hne : name ≠ other) (f : Folder) :
    (f.erase name).lookup? other = f.lookup? other :=
  Keyed.find?_erase_of_ne hne _

end Folder

end MarketFeed
