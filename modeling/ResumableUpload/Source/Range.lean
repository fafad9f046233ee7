/-!
# Byte ranges

A `ByteRange` is a stretch of the file being uploaded. `ByteRange.checkWithin` accepts exactly the
ranges that lie inside a file of a given size (`checkWithin_eq_ok_iff`).
-/

namespace ResumableUpload

/-- The bytes from `offset` up to, but not including, `offset + length`. -/
structure ByteRange where
  offset : Nat
  length : Nat
  deriving DecidableEq, Repr

namespace Source

/-- Why the operating system could not do what was asked. -/
inductive SystemError
  /-- The file ended before the bytes asked for. -/
  | unexpectedEof
  | notFound
  | other (text : String)
  deriving DecidableEq, Repr

/-- The wording of a system error. -/
def SystemError.message : SystemError → String
  | unexpectedEof => "early eof"
  | notFound => "No such file or directory (os error 2)"
  | other text => text

/-- Why a range could not be read. -/
inductive ReadError
  | system (cause : SystemError)
  | outOfBounds (range : ByteRange) (size : Nat)
  deriving DecidableEq, Repr

/-- The wording of a read error. -/
def ReadError.message : ReadError → String
  | system cause => s!"I/O error: {cause.message}"
  | outOfBounds range size => s!"range {range.offset}+{range.length} exceeds source size {size}"

end Source

namespace ByteRange

/-- The first offset after the range. -/
def stop (r : ByteRange) : Nat := r.offset + r.length

/-- Refuses a range that does not lie inside a file of `size` bytes. -/
def checkWithin (r : ByteRange) (size : Nat) : Except Source.ReadError Unit :=
  if r.stop ≤ size then .ok () else .error (.outOfBounds r size)

theorem checkWithin_eq_ok_iff {r : ByteRange} {size : Nat} :
    r.checkWithin size = .ok () ↔ r.offset + r.length ≤ size := by
  unfold checkWithin stop
  split <;> simp [*]

end ByteRange

end ResumableUpload
