import ResumableUpload.Source.Range

/-!
# The send-ahead window

A `Window` counts the chunks that were sent on a connection and not acknowledged yet, and lets the
next chunk be read only while there are fewer of them than the server allows and no other read is
pending. Acknowledgements that do not match anything in flight are refused.
-/

namespace ResumableUpload

/-- The accounting of one transfer. -/
structure Window where
  /-- Bytes per chunk. -/
  chunkSize : Nat
  /-- The most chunks in flight. -/
  limit : Nat
  chunks : Nat
  bytes : Nat
  /-- A chunk is being read. -/
  reading : Bool
  deriving DecidableEq, Repr

/-- An acknowledgement of `acked` bytes that does not match what is in flight. -/
structure UnexpectedAck where
  acked : Nat
  chunks : Nat
  bytes : Nat
  deriving DecidableEq, Repr

/-- The wording of a refused acknowledgement. -/
def UnexpectedAck.message (e : UnexpectedAck) : String :=
  s!"acknowledged {e.acked} bytes with {e.chunks} chunks / {e.bytes} bytes in flight"

namespace Window

/-- A window with nothing in flight. -/
def empty (chunkSize limit : Nat) : Window := ⟨chunkSize, limit, 0, 0, false⟩

/-- The next chunk may be read. -/
def isOpen (w : Window) (sent total : Nat) (cancelling : Bool) : Bool :=
  w.chunks < w.limit && !w.reading && sent < total && !cancelling

/-- The chunk that starts at `sent`: as long as a chunk may be, but not beyond `total`. -/
def nextChunk (w : Window) (sent total : Nat) : ByteRange :=
  ⟨sent, min (sent + w.chunkSize) total - sent⟩

/-- Grants the next chunk for reading, if the window is open. -/
def grant (w : Window) (sent total : Nat) (cancelling : Bool) : Option (ByteRange × Window) :=
  if w.isOpen sent total cancelling then
    some (w.nextChunk sent total, { w with reading := true })
  else none

/-- The pending read has ended in one way or another. -/
def readFinished (w : Window) : Window := { w with reading := false }

/-- A chunk of `length` bytes has been sent. -/
def sent (w : Window) (length : Nat) : Window :=
  { w with chunks := w.chunks + 1, bytes := w.bytes + length }

/-- The server has acknowledged a chunk of `length` bytes. -/
def acked (w : Window) (length : Nat) : Except UnexpectedAck Window :=
  if w.chunks = 0 ∨ w.bytes < length then .error ⟨length, w.chunks, w.bytes⟩
  else .ok { w with chunks := w.chunks - 1, bytes := w.bytes - length }

/-- Forgets everything in flight. -/
def reset (w : Window) : Window := empty w.chunkSize w.limit

variable {w w' : Window} {length sent total : Nat} {cancelling : Bool}

theorem isOpen_eq_true_iff :
    w.isOpen sent total cancelling = true ↔
      w.chunks < w.limit ∧ w.reading = false ∧ sent < total ∧ cancelling = false := by
  simp [isOpen, and_assoc]

theorem acked_eq_ok_iff :
    w.acked length = .ok w' ↔
      w.chunks ≠ 0 ∧ length ≤ w.bytes ∧
        w' = { w with chunks := w.chunks - 1, bytes := w.bytes - length } := by
  unfold acked
  split
  · rename_i h
    simp only [reduceCtorEq, false_iff, not_and]
    omega
  · rename_i h
    constructor
    · intro he
      cases he
      exact ⟨by omega, by omega, rfl⟩
    · rintro ⟨-, -, rfl⟩
      rfl

end Window

end ResumableUpload
