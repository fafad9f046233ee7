import ResumableUpload.Source.Range

/-!
# A source in memory

`Memory.read` answers a range with the slice of the held bytes.
-/

namespace ResumableUpload.Source

/-- The bytes of an upload, held in memory. -/
structure Memory where
  data : ByteArray

namespace Memory

/-- The size of the file. -/
def size (m : Memory) : Nat := m.data.size

/-- The bytes of a range. -/
def read (m : Memory) (r : ByteRange) : Except ReadError ByteArray :=
  (r.checkWithin m.size).map fun _ => m.data.extract r.offset r.stop

end Memory

end ResumableUpload.Source
