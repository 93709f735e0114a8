import MarketFeed.Capture.Header
import MarketFeed.Count
import MarketFeed.Files.Folder

/-!
# An Open Capture File

A file's octets and the offset up to which they have been used.

Opening a file reads its header; the offset then stands behind it. Reading
gives octets from the offset on and leaves the offset alone, so a record that
was only partly read is read again from its start. The offset is moved by
saying how many octets are done with, and it never passes the end of the
file. Any number may be said, also one with which the offset has no sum of
64 bits. The sum is taken before it is held against the size, so the offset is
then not moved to the end of the file. Moving it fails.

## Main definitions

* `CaptureFile`: The open file.
* `CaptureFile.open?`: Open what stands under a path.
* `CaptureFile.readChunk`: The octets from the offset on.
* `CaptureFile.consume?`: Move the offset.

## Theorems

* `readChunk_eq_ok_iff`: When a read succeeds, and with what.
* `consume?_eq_some_iff`: When the offset can be moved, and where to.
-/

namespace MarketFeed

/-- An open capture file. -/
structure CaptureFile where
  /-- The name it was opened under. -/
  path : String
  /-- Its octets, the header included. -/
  content : Bytes
  /-- The header that was read on opening. -/
  header : CaptureHeader
  /-- The first octet that has not been used. -/
  offset : Nat := CaptureHeader.length

namespace CaptureFile

/-- Open what was found under a path, if anything was. A folder can be opened
    like a file, but there is no reading it. -/
def open? (path : String) (found : Except SystemFault Entry) : Except CaptureError CaptureFile :=
  match found with
  | .error fault => .error (.unopened path fault)
  | .ok .folder => .error (.refused .isFolder)
  | .ok (.file []) => .error (.zeroLength path)
  | .ok (.file content) =>
    match content.window? 0 CaptureHeader.length with
    | none => .error (.shortRead 0 CaptureHeader.length content.length)
    | some raw => (CaptureHeader.parse raw).map fun header => { path, content, header }

/-- The size of the file. -/
def size (f : CaptureFile) : Nat := f.content.length

/-- How many octets follow the offset. -/
def remaining (f : CaptureFile) : Nat := f.size - f.offset

/-- The octets from the offset on, `count` of them. The offset stays where it
    is, whether they are all there or not. -/
def readChunk (f : CaptureFile) (count : Nat) : Except CaptureError Bytes :=
  let found := (f.content.drop f.offset).take count
  if found.length < count then .error (.shortRead f.offset count found.length) else .ok found

/-- Move the offset over octets that are done with, up to the end of the
    file. This fails if the sum has no place in 64 bits. -/
def consume? (f : CaptureFile) (count : UInt64) : Option CaptureFile :=
  (Count.sum? f.offset count.toNat).map fun total => { f with offset := min total f.size }

/-- A read succeeds if what it asks for is there. -/
theorem readChunk_eq_ok_iff {f : CaptureFile} {count : Nat} {found : Bytes} :
    f.readChunk count = .ok found ↔
      count ≤ f.remaining ∧ found = (f.content.drop f.offset).take count := by
  unfold readChunk remaining size
  simp only [List.length_take, List.length_drop]
  split
  · next h =>
    simp only [reduceCtorEq, false_iff]
    omega
  · next h =>
    simp only [Except.ok.injEq]
    constructor
    · intro hs
      exact ⟨by omega, hs.symm⟩
    · exact fun hs => hs.2.symm

/-- The offset is moved by a sum that fits, and nothing else of the file
    changes. -/
theorem consume?_eq_some_iff {f g : CaptureFile} {count : UInt64} :
    f.consume? count = some g ↔
      f.offset + count.toNat < UInt64.size ∧
        g = { f with offset := min (f.offset + count.toNat) f.size } := by
  simp only [consume?, Option.map_eq_some_iff, Count.sum?_eq_some_iff]
  constructor
  · rintro ⟨_, ⟨hfits, rfl⟩, rfl⟩
    exact ⟨hfits, rfl⟩
  · rintro ⟨hfits, rfl⟩
    exact ⟨_, ⟨hfits, rfl⟩, rfl⟩

/-- Marking fails exactly if the sum with the offset has no place in 64 bits. -/
theorem consume?_eq_none_iff {f : CaptureFile} {count : UInt64} :
    f.consume? count = none ↔ UInt64.size ≤ f.offset + count.toNat := by
  rw [consume?, Option.map_eq_none_iff, Count.sum?_eq_none_iff]

end CaptureFile

end MarketFeed
