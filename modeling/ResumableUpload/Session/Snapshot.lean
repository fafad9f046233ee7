import ResumableUpload.Session.Error
import ResumableUpload.Session.Phase

/-!
# Snapshots

A `Snapshot` is what observers and callers get to see of a session.
-/

namespace ResumableUpload

/-- The observable state of a session at one moment. -/
structure Snapshot where
  id : String
  phase : Phase
  total : Nat
  /-- Bytes handed to the channel, counted from the start of the file. -/
  sent : Nat
  /-- Bytes that the server has confirmed, counted from the start of the file. -/
  acked : Nat
  /-- Absent until the server has announced its parameters. -/
  chunkSize : Option Nat
  limit : Option Nat
  chunksInFlight : Nat
  bytesInFlight : Nat
  /-- Chunks sent on this connection. -/
  chunksSent : Nat
  /-- Chunks acknowledged on this connection. -/
  chunksAcked : Nat
  paused : Bool
  canPause : Bool
  canCancel : Bool
  connected : Bool
  retryPending : Bool
  error : Option SessionError
  cancelReason : Option String
  deriving DecidableEq, Repr

namespace Snapshot

/-- The acknowledged fraction of the file, one for an empty file. -/
def fractionAcked (s : Snapshot) : Float :=
  if s.total = 0 then 1.0 else s.acked.toUInt64.toFloat / s.total.toUInt64.toFloat

/-- The status line of a snapshot. -/
def status (s : Snapshot) : String := s.phase.description

end Snapshot

/-- The notifications that an observer can ask for. -/
inductive Hook
  | progress
  | finished
  | cancelled
  | error
  deriving DecidableEq, Repr

/-- A notification: which one, and the snapshot of that moment. -/
structure Notice where
  hook : Hook
  snapshot : Snapshot
  deriving DecidableEq, Repr

end ResumableUpload
