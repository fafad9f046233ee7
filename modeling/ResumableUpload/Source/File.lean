import ResumableUpload.Source.Range

/-!
# A source on disk

An `OpenFile` has content, which others may change, and a cursor. A `File` source notes the size
when the file is opened, moves the cursor to each range it is asked for, and reads from there.
-/

namespace ResumableUpload.Source

/-- An open file: what it holds now, and the place of the next read. -/
structure OpenFile where
  content : ByteArray
  cursor : Nat

namespace OpenFile

/-- Moves the cursor. -/
def seek (f : OpenFile) (offset : Nat) : OpenFile := { f with cursor := offset }

/-- Reads exactly `count` bytes at the cursor and moves it past what could be read. -/
def readExact (f : OpenFile) (count : Nat) : Except SystemError ByteArray × OpenFile :=
  let stop := f.cursor + count
  if count = 0 ∨ stop ≤ f.content.size then
    (.ok (f.content.extract f.cursor stop), { f with cursor := stop })
  else (.error .unexpectedEof, { f with cursor := max f.cursor f.content.size })

/-- Cuts the content to `size` bytes or fills it up with zeros. -/
def resize (f : OpenFile) (size : Nat) : OpenFile :=
  let zeros := ByteArray.mk (Array.replicate (size - f.content.size) 0)
  { f with content := f.content.extract 0 size ++ zeros }

end OpenFile

/-- A file being uploaded. -/
structure File where
  file : OpenFile
  /-- The size of the file when it was opened. -/
  size : Nat

namespace File

/-- Opens a file with this content. -/
def opening (content : ByteArray) : File := ⟨⟨content, 0⟩, content.size⟩

/-- The bytes of a range, and the source after the read. -/
def read (s : File) (r : ByteRange) : Except ReadError ByteArray × File :=
  match r.checkWithin s.size with
  | .error e => (.error e, s)
  | .ok _ =>
    let (result, file) := (s.file.seek r.offset).readExact r.length
    (result.mapError .system, { s with file })

/-- Answers several ranges in turn. -/
def readAll (s : File) : List ByteRange → List (Except ReadError ByteArray) × File
  | [] => ([], s)
  | r :: rs =>
    let (result, s) := s.read r
    let (results, s) := s.readAll rs
    (result :: results, s)

/-- Resizes the file behind the source's back. -/
def resize (s : File) (size : Nat) : File := { s with file := s.file.resize size }

end File

end ResumableUpload.Source
