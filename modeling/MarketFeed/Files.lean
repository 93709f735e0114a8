import MarketFeed.Files.Folder
import MarketFeed.Files.Path
import MarketFeed.SystemFault

/-!
# The File System

Files and folders under one root, with a working folder among them.

The file system is a map from places to what stands there. A folder has no
list of its own: what stands in it is what stands at the places below it.
So one change is one entry, and a folder can be taken out, worked on and put
back without touching what lies deeper.

A path is followed step by step, and each step is taken from a folder. The
first step that cannot be taken decides how the path is refused. A path that
ends in a slash or a point is refused where a file stands in front of it,
because these steps, too, are taken from a folder.

## Main definitions

* `Files`: The file system.
* `Files.walk`, `Files.locate`: Where a path leads.
* `Files.find`: What stands under a path.
* `Files.makeFolder`, `Files.makeFolders`: One folder, and a folder with all
  around it.
* `Files.folder`, `Files.putFolder`, `Files.onFolder`: Work on one folder.
-/

namespace MarketFeed

/-- The file system. -/
structure Files where
  /-- What stands below the root. -/
  entries : List (Location × Entry) := []
  /-- The working folder. -/
  working : Location := []
  deriving DecidableEq, Repr

namespace Files

/-- What stands at a place. At the root it is a folder. -/
def lookup? (place : Location) (files : Files) : Option Entry :=
  if place = [] then some .folder else Keyed.find? place files.entries

/-- Let an entry stand at a place. What is new comes last. -/
def put (place : Location) (entry : Entry) (files : Files) : Files :=
  { files with entries := Keyed.insert (fun _ _ => false) place entry files.entries }

/-- Refuse to go on from a place that is not a folder. -/
def requireFolder (files : Files) (place : Location) : Except SystemFault Unit :=
  match files.lookup? place with
  | some .folder => .ok ()
  | some (.file _) => .error .notFolder
  | none => .error .missing

/-- Whether a step is one of those that name no entry of a folder. -/
def isRelative (step : String) : Bool := Path.isIdle step || step == ".."

/-- Take one step from a place. -/
def step (files : Files) (place : Location) (name : String) : Except SystemFault Location := do
  files.requireFolder place
  let next := Path.placeAfter place name
  if isRelative name then return next
  else if Path.isLongName name then throw .nameTooLong
  else if files.lookup? next = none then throw .missing
  else return next

/-- Take steps one after the other. -/
def walk (files : Files) : Location → List String → Except SystemFault Location
  | place, [] => .ok place
  | place, name :: rest =>
    match files.step place name with
    | .ok next => walk files next rest
    | .error fault => .error fault

/-- Refuse a path for its text alone. -/
def requireShort (path : Path) : Except SystemFault Unit :=
  if path.text.isEmpty then .error .missing
  else if Path.isTooLong path.text then .error .nameTooLong
  else .ok ()

/-- The place that a path leads to. -/
def locate (files : Files) (path : Path) : Except SystemFault Location := do
  requireShort path
  files.walk (path.startingPlace files.working) path.steps.reverse

/-- What stands under a path. -/
def find (files : Files) (path : String) : Except SystemFault Entry := do
  let place ← files.locate (.ofText path)
  match files.lookup? place with
  | some entry => return entry
  | none => throw .missing

/-- The place of the folder that a path leads to, if it leads to one. -/
def folderPlace? (files : Files) (path : Path) : Option Location :=
  match files.locate path with
  | .error _ => none
  | .ok place => if files.lookup? place = some .folder then some place else none

/-- Where the folder of a path is to be made, if it can be. Its last step
    has to name a place that is free. -/
def vacancy (files : Files) (path : Path) : Except SystemFault Location := do
  requireShort path
  match path.steps with
  | [] => throw .exists
  | name :: around =>
    let place ← files.walk (path.startingPlace files.working) around.reverse
    files.requireFolder place
    if isRelative name then throw .exists
    else if Path.isLongName name then throw .nameTooLong
    else if files.lookup? (name :: place) = none then return name :: place
    else throw .exists

/-- Make one folder. -/
def makeFolder (path : Path) (files : Files) : Except SystemFault Unit × Files :=
  match files.vacancy path with
  | .ok place => (.ok (), files.put place .folder)
  | .error fault => (.error fault, files)

/-- Make one folder, unless it is there. -/
def ensureFolder (path : Path) (files : Files) : Except SystemFault Unit × Files :=
  match files.makeFolder path with
  | (.error .exists, files) =>
    if (files.folderPlace? path).isSome then (.ok (), files) else (.error .exists, files)
  | other => other

/-- Make folders, given from the inside out. An outer one is made only where
    an inner one is refused because something around it is missing. -/
def makeEach : List Path → Files → Except SystemFault Unit × Files
  | [], files => (.ok (), files)
  | path :: around, files =>
    match files.ensureFolder path with
    | (.error .missing, files) =>
      match makeEach around files with
      | (.ok (), files) => files.ensureFolder path
      | (.error fault, files) => (.error fault, files)
    | other => other

/-- Make the folder of a path with all folders around it. What has been made
    stays when a later step is refused. -/
def makeFolders (path : String) (files : Files) : Except SystemFault Unit × Files :=
  makeEach (Path.ofText path).folders files

/-- An entry as it is named in a folder, if it stands in that folder. -/
def nameIn? (place : Location) (entry : Location × Entry) : Option (String × Entry) :=
  match entry with
  | (name :: around, e) => if around = place then some (name, e) else none
  | ([], _) => none

/-- The folder at a place. -/
def folder (files : Files) (place : Location) : Folder :=
  .ofList (files.entries.filterMap (nameIn? place))

/-- Let a folder stand at a place instead of the one that stood there. What
    lies deeper stays. -/
def putFolder (place : Location) (f : Folder) (files : Files) : Files :=
  { files with
    entries :=
      files.entries.filter (fun entry => (nameIn? place entry).isNone) ++
        f.entries.map fun (name, entry) => (name :: place, entry) }

/-- Work on the folder of a path and put it back. Where there is no such
    folder the work is done on an empty one, which is not kept. -/
def onFolder {α : Type} (path : String) (work : Folder → α × Folder) (files : Files) : α × Files :=
  match files.folderPlace? (.ofText path) with
  | some place =>
    let (result, f) := work (files.folder place)
    (result, files.putFolder place f)
  | none => ((work {}).1, files)

end Files

end MarketFeed
