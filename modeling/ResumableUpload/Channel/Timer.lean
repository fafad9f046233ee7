import ResumableUpload.Session.Basic

/-!
# Timers of a connection

A keepalive timer pings once per period until it is cancelled or nobody takes its pings; a retry
timer fires once unless it is cancelled first. Times are in milliseconds from the start of the
timer, and of a cancellation and an expiry at one time the cancellation comes first.
-/

namespace ResumableUpload.Channel

/-- The number of whole periods that have passed before `cancelAt`. -/
def periodsBefore (period cancelAt : Nat) : Nat := (cancelAt - 1) / period

/-- What a keepalive timer did. -/
structure KeepaliveLog where
  /-- The number of pings that were taken. -/
  pings : Nat
  /-- The timer stopped before it was cancelled. -/
  stoppedEarly : Bool
  deriving DecidableEq, Repr

/-- A keepalive timer that is cancelled at some time, with or without a taker for its pings. -/
def keepalive (period cancelAt : Nat) (taken : Bool) : KeepaliveLog :=
  let due := periodsBefore period cancelAt
  if taken then ⟨due, false⟩ else ⟨0, 0 < due⟩

/-- The inputs from a retry timer that may be cancelled. -/
def retryInputs (token : RetryToken) (delay : Nat) (cancelAt : Option Nat) : List Input :=
  match cancelAt with
  | some t => if t ≤ delay then [] else [.retryElapsed token]
  | none => [.retryElapsed token]

end ResumableUpload.Channel
