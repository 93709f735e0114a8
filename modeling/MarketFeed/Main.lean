import MarketFeed.Command.Analyze
import MarketFeed.Command.Replay
import MarketFeed.Files.Change
import Std.Time.DateTime.Timestamp

/-!
# The Command Line

The commands `analyze` and `replay`, with the files and the clocks that they
need.

A command is a function of the file system. Before it runs, what its paths
pass is looked at, and with it the names that its outputs use. After it has
run, the difference that it made is carried out.

## Main definitions

* `CommandLine.analyze`, `CommandLine.replay`: The commands with their files.
* `main`: The command that the first argument names.
-/

namespace MarketFeed

namespace CommandLine

/-- What stands under a path. What stands there and cannot be read is taken
    for a folder. -/
def readEntry (path : String) : IO (Option Entry) := do
  match ← (IO.FS.readBinFile path).toBaseIO with
  | .ok content => return some (.file content.toList)
  | .error (.noFileOrDirectory ..) => return none
  | .error _ => return some .folder

/-- The path of a place. -/
def pathOf (place : Location) : String := "/" ++ "/".intercalate place.reverse

/-- Add to the file system what stands at a place. -/
def lookAt (files : Files) (place : Location) : IO Files := do
  if place.isEmpty then return files
  match ← readEntry (pathOf place) with
  | some entry => return files.put place entry
  | none => return files

/-- Add to the file system what a path passes. -/
def lookAlong (files : Files) (path : String) : IO Files :=
  ((Path.ofText path).places files.working).foldlM lookAt files

/-- Add to the file system what outputs have to do with in a folder. -/
def lookInto (files : Files) (path : String) : IO Files := do
  let files ← lookAlong files path
  match files.folderPlace? (.ofText (Path.trim path)) with
  | none => return files
  | some place => Outputs.names.foldlM (fun files name => lookAt files (name :: place)) files

/-- The working folder and what lies around it. -/
def surroundings : IO Files := do
  let working := (← IO.currentDir).toString
  lookAlong { working := (Path.ofText working).trimmed.steps } working

/-- Carry out one change. -/
def carryOut : Change → IO Unit
  | .make place => IO.FS.createDirAll (pathOf place)
  | .write place content => IO.FS.writeBinFile (pathOf place) ⟨content.toArray⟩
  | .remove place => IO.FS.removeFile (pathOf place)

/-- The time in nanoseconds since 1970. -/
def now : IO Nat := do
  return (← Std.Time.Timestamp.now).toNanosecondsSinceUnixEpoch.val.toNat

/-- Report arguments that cannot be understood. -/
def refuse (e : UsageError) : IO UInt32 := do
  IO.eprintln ("error: " ++ e.message)
  return 2

/-- Analyze a capture. -/
def analyze (arguments : List String) : IO UInt32 := do
  match AnalyzeOptions.parse arguments with
  | .error e => refuse e
  | .ok options =>
    let started ← IO.monoNanosNow
    let before ← lookInto (← lookAlong (← surroundings) options.file) options.outDir
    let (outcome, after) := Analyze.execute options (← now) before
    for change in before.changes after do
      carryOut change
    match outcome with
    | .error failure =>
      IO.eprint failure.text
      return 1
    | .ok analysis =>
      let elapsed := (← IO.monoNanosNow) - started
      match analysis.text? options.bookDepth (Elapsed.text elapsed) with
      | some text =>
        IO.print text
        return 0
      | none => return 101

/-- Replay an event log. -/
def replay (arguments : List String) : IO UInt32 := do
  match ReplayOptions.parse arguments with
  | .error e => refuse e
  | .ok options =>
    let files ← lookAlong (← surroundings) options.input
    let (final, failure) := Replay.execute options (files.find options.input)
    for text in final.printed do
      IO.print text
    for remark in final.remarks do
      IO.eprint remark
    match failure with
    | none => return 0
    | some failure =>
      IO.eprint failure.text
      return 1

end CommandLine

end MarketFeed

/-- The command that the first argument names. -/
def main : List String → IO UInt32
  | "analyze" :: arguments => MarketFeed.CommandLine.analyze arguments
  | "replay" :: arguments => MarketFeed.CommandLine.replay arguments
  | _ => do
    IO.eprintln "usage: analyze --file FILE [OPTION ...] | replay --input FILE [OPTION ...]"
    return 2
