import ResumableUpload.Source.Range
import ResumableUpload.Text.Quoted
import ResumableUpload.Window

/-!
# Errors of a session

A `SessionError` is either reported by the server, with a code of its own, or found by the session
itself, with a negative code: `-1` for a chunk that could not be read, `-2` for a cancellation that
the server never confirmed, `-3` for a record that breaks the protocol.
-/

namespace ResumableUpload

/-- How a server broke the protocol. -/
inductive Violation
  /-- A frame that could not be read as a record. -/
  | undecodable (detail : String)
  /-- A record of a kind that has no place at this stage. -/
  | unexpectedRecord (label stage : String)
  | resumeBeyondEnd (offset total : Nat)
  | ackBeforeConfig
  | unexpectedAck (e : UnexpectedAck)
  deriving DecidableEq, Repr

/-- The wording of a violation. -/
def Violation.message : Violation → String
  | undecodable detail => detail
  | unexpectedRecord label stage => s!"unexpected {label} record {stage}"
  | resumeBeyondEnd offset total => s!"resume offset {offset} beyond file size {total}"
  | ackBeforeConfig => "chunk acknowledged before upload config"
  | unexpectedAck e => e.message

/-- Why a chunk could not be sent. -/
inductive ReadFailure
  /-- The source gave another number of bytes than was asked of it. -/
  | short (got wanted : Nat)
  | failed (e : Source.ReadError)
  deriving DecidableEq, Repr

/-- The wording of a read failure. -/
def ReadFailure.message : ReadFailure → String
  | short got wanted => s!"short read: {got} of {wanted} bytes"
  | failed e => e.message

/-- An error recorded on a session. -/
inductive SessionError
  /-- The server said so. -/
  | reported (code : Int32) (message : String)
  | unreadable (failure : ReadFailure)
  /-- The channel closed while a cancellation was not confirmed. -/
  | unconfirmed
  /-- Cancelled without a channel on which the server could be told. -/
  | unnotified
  | violation (v : Violation)
  deriving DecidableEq, Repr

namespace SessionError

/-- The code of an error. -/
def code : SessionError → Int
  | reported code _ => code.toInt
  | unreadable _ => -1
  | unconfirmed | unnotified => -2
  | violation _ => -3

/-- The wording of an error without its code. -/
def message : SessionError → String
  | reported _ message => message
  | unreadable failure => s!"unexpected read error: {failure.message}"
  | unconfirmed => "connection closed before the server confirmed the cancellation"
  | unnotified => "upload cancelled while disconnected; the server was not notified"
  | violation v => s!"protocol violation: {v.message}"

/-- The wording of an error. -/
def display (e : SessionError) : String := s!"error {e.code}: {e.message}"

/-- An error as shown in diagnostics. -/
def inspect (e : SessionError) : String :=
  s!"SessionError \x7b code: {e.code}, message: {Text.quote e.message} \x7d"

end SessionError

end ResumableUpload
