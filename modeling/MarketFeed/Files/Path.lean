/-!
# Paths

How the text of a path leads to a file, and where it can be cut.

A path is a start and a list of steps. It starts at the root folder, or at
the working folder, which it may name by a point of its own. The steps are
kept with the innermost in front, because a path is cut and extended at that
end. Two of them lead nowhere: the empty step of a doubled slash, and the
point. They are kept as they were written, so that a path is shown as it was
given, but they are dropped where a path is cut.

The system refuses a path by its length alone, and a step by its own. Both
limits count octets.

## Main definitions

* `Path`, `Path.ofText`, `Path.text`: A path taken apart and put together.
* `Path.trimmed`: A path without steps at its end that lead nowhere.
* `Path.folders`: A path and the folders around it.
* `Path.join`: The path of a file in a folder.
* `Path.places`: The places that a path passes.

## Theorems

* `trimmed_trimmed`: Trimming a second time changes nothing.
-/

namespace MarketFeed

/-- A place in the file system: the names of the folders around it and its
    own, which stands in front. The root folder has no name. -/
abbrev Location := List String

/-- Where a path starts. -/
inductive PathStart
  /-- At the root folder. -/
  | root
  /-- At the working folder, named by a point. -/
  | here
  /-- At the working folder, without a word. -/
  | inside
  deriving DecidableEq, Repr

/-- A start and the steps from there, the innermost in front. -/
structure Path where
  /-- Where the path starts. -/
  start : PathStart
  /-- The steps, the innermost in front. -/
  steps : List String
  deriving DecidableEq, Repr

namespace Path

/-- The parts of a text between slashes. There is always one. -/
def splitSlash : List Char → List (List Char)
  | [] => [[]]
  | c :: rest =>
    if c = '/' then [] :: splitSlash rest
    else
      match splitSlash rest with
      | [] => [[c]]
      | part :: parts => (c :: part) :: parts

/-- A path taken apart. -/
def ofText (text : String) : Path :=
  match (splitSlash text.toList).map String.ofList with
  | [] => ⟨.inside, []⟩
  | first :: rest =>
    if first = "." then ⟨.here, rest.reverse⟩
    else if first ≠ "" then ⟨.inside, (first :: rest).reverse⟩
    else if rest = [] then ⟨.inside, []⟩
    else ⟨.root, rest.reverse⟩

/-- A path as it is written. -/
def text (p : Path) : String :=
  let steps := "/".intercalate p.steps.reverse
  match p.start with
  | .root => "/" ++ steps
  | .here => if p.steps = [] then "." else "./" ++ steps
  | .inside => steps

/-- Whether a step leads nowhere. -/
def isIdle (step : String) : Bool := step == "" || step == "."

/-- A path without the steps at its end that lead nowhere. -/
def trimmed (p : Path) : Path := { p with steps := p.steps.dropWhile isIdle }

/-- A path and what lies around it, from the inside out, without the root
    folder and without a working folder that is not named. -/
def foldersFrom (start : PathStart) : List String → List Path
  | [] => if start = .here then [⟨.here, []⟩] else []
  | step :: around =>
    if isIdle step then foldersFrom start around
    else ⟨start, step :: around⟩ :: foldersFrom start around

/-- The folders that have to be there for a path to be one, from the inside
    out. -/
def folders (p : Path) : List Path := foldersFrom p.start p.steps

/-- The place that a step leads to from another. -/
def placeAfter (place : Location) (step : String) : Location :=
  if isIdle step then place
  else if step = ".." then place.tail
  else step :: place

/-- The place that a path starts from. -/
def startingPlace (p : Path) (working : Location) : Location :=
  if p.start = .root then [] else working

/-- The places that steps pass, from a first place on. -/
def placesFrom (place : Location) : List String → List Location
  | [] => [place]
  | step :: rest => place :: placesFrom (placeAfter place step) rest

/-- The places that a path passes, from its start on. -/
def places (p : Path) (working : Location) : List Location :=
  placesFrom (p.startingPlace working) p.steps.reverse

/-- The path of a file in a folder. -/
def join (folder name : String) : String :=
  if folder.isEmpty then name
  else if folder.endsWith "/" then folder ++ name
  else folder ++ "/" ++ name

/-- The text of a path without the steps at its end that lead nowhere. -/
def trim (path : String) : String := (ofText path).trimmed.text

/-- Whether the system refuses a path for its length. -/
def isTooLong (path : String) : Bool := 4096 ≤ path.utf8ByteSize

/-- Whether the system refuses a name for its length. -/
def isLongName (name : String) : Bool := 255 < name.utf8ByteSize

/-- A path without separators at its end has none to lose. -/
theorem trimmed_trimmed (p : Path) : p.trimmed.trimmed = p.trimmed := by
  obtain ⟨start, steps⟩ := p
  simp only [trimmed, mk.injEq, true_and]
  induction steps with
  | nil => rfl
  | cons step around ih =>
    rw [List.dropWhile_cons]
    split
    · exact ih
    · next h => rw [List.dropWhile_cons, if_neg h]

end Path

end MarketFeed
