import ResumableUpload.Ident

/-!
# Retry timers

A `Retry` knows the one timer that is armed, if any. Arming replaces an armed timer, and only the
expiry of the armed timer counts.
-/

namespace ResumableUpload

/-- The armed timer and the number of timers armed so far. -/
structure Retry where
  armed : Option RetryToken
  /-- The number of the last token, and like that a natural number. -/
  count : Nat
  deriving DecidableEq, Repr

namespace Retry

/-- No timer has ever been armed. -/
def idle : Retry := ⟨none, 0⟩

/-- Arms a new timer: its token, the token it replaces, and the timers afterwards. -/
def arm (r : Retry) : RetryToken × Option RetryToken × Retry :=
  let token : RetryToken := ⟨r.count + 1⟩
  (token, r.armed, ⟨some token, r.count + 1⟩)

/-- Disarms the armed timer. -/
def disarm (r : Retry) : Option RetryToken × Retry := (r.armed, { r with armed := none })

/-- The timers after the expiry of the armed timer, or nothing for any other token. -/
def fire? (r : Retry) (token : RetryToken) : Option Retry :=
  if r.armed = some token then some { r with armed := none } else none

/-- A timer is armed. -/
def isArmed (r : Retry) : Bool := r.armed.isSome

theorem fire?_eq_some_iff {r r' : Retry} {token : RetryToken} :
    r.fire? token = some r' ↔ r.armed = some token ∧ r' = { r with armed := none } := by
  unfold fire?
  split <;> simp_all [eq_comm]

theorem fire?_eq_none_iff {r : Retry} {token : RetryToken} :
    r.fire? token = none ↔ r.armed ≠ some token := by
  unfold fire?
  split <;> simp_all

end Retry

end ResumableUpload
