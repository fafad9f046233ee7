import Mathlib.Tactic.ByContra
import ResumableUpload.Proofs.Operations

/-!
# Consistent sessions

Every session that inputs can lead to satisfies `Session.Consistent`. Its parts:

* `Books.Balanced` : the counters of a session agree with each other.
* `Session.Tidy` : what a session holds — a channel, a pending read, an armed timer — is what its
  phase calls for.
* the rest, which only makes the two inductive: when a session can be cancelled or paused, that the
  counters stand at zero before the parameters are announced, and that what is held carries the
  latest number of its kind.

That a step keeps a session consistent is shown in `ResumableUpload.Proofs.Reachable`.
-/

namespace ResumableUpload

namespace Phase

/-- A session in this phase holds nothing. -/
def isIdle : Phase → Bool
  | notStarted | paused | finished | cancelled | errored => true
  | _ => false

/-- A session in this phase holds a channel, or waits for a timer to open one. -/
def isLive : Phase → Bool
  | connecting | handshaking | transferring | awaitingCompletion => true
  | _ => false

theorem goesOn_of_isLive {p : Phase} (h : p.isLive = true) :
    p ≠ .paused ∧ p ≠ .cancelling ∧ p.isTerminal = false := by
  cases p <;> simp_all [isLive, isTerminal]

end Phase

/-- The counters that a snapshot shows. -/
structure Books where
  total : Nat
  sent : Nat
  acked : Nat
  limit : Option Nat
  chunksInFlight : Nat
  bytesInFlight : Nat
  chunksSent : Nat
  chunksAcked : Nat
  deriving DecidableEq, Repr

/-- The counters of a snapshot. -/
def Snapshot.books (p : Snapshot) : Books where
  total := p.total
  sent := p.sent
  acked := p.acked
  limit := p.limit
  chunksInFlight := p.chunksInFlight
  bytesInFlight := p.bytesInFlight
  chunksSent := p.chunksSent
  chunksAcked := p.chunksAcked

/-- What was sent is what was acknowledged and what is in flight, in bytes since the start of the
file and in chunks since the start of the connection; it lies within the file, and no more is in
flight than allowed. -/
structure Books.Balanced (b : Books) : Prop where
  sent_le_total : b.sent ≤ b.total
  sent_eq : b.sent = b.acked + b.bytesInFlight
  chunksSent_eq : b.chunksSent = b.chunksAcked + b.chunksInFlight
  inFlight_le : ∀ n, b.limit = some n → b.chunksInFlight ≤ n

namespace Session

/-- What a session holds is what its phase calls for. -/
structure Tidy (s : Session) : Prop where
  idle : s.phase.isIdle = true →
    s.channel = none ∧ s.pendingRead = none ∧ s.retry.armed = none
  /-- Exactly one of a channel and a timer is held. -/
  live : s.phase.isLive = true → s.channel.isSome = !s.retry.armed.isSome
  open_iff : s.phase.isLive = true → ∀ c, s.channel = some c →
    (c.isOpen = true ↔ s.phase ≠ .connecting)
  cancelling : s.phase = .cancelling →
    (∃ conn, s.channel = some ⟨conn, true⟩) ∧ s.retry.armed = none ∧ s.pendingReason.isSome ∧
      (s.interrupted = some .handshaking ∨ s.interrupted = some .transferring)
  paused_iff : s.paused = true ↔ s.phase = .paused
  reading_iff : s.window.any (·.reading) = s.pendingRead.isSome
  /-- A pending read fetches the next chunk, which may be sent at once. -/
  read : ∀ read range, s.pendingRead = some (read, range) →
    s.phase = .transferring ∧ (∃ conn, s.channel = some ⟨conn, true⟩) ∧
      s.sent < s.total.toNat ∧ range.offset = s.sent ∧
      ∃ w, s.window = some w ∧ w.chunks < w.limit ∧ range = w.nextChunk s.sent s.total.toNat
  /-- The server processes the file, or has processed it, only when every byte of it was sent and
  acknowledged. -/
  complete : s.phase = .awaitingCompletion ∨ s.phase = .finished →
    s.acked = s.total.toNat ∧ s.sent = s.total.toNat

/-- The invariant of a session. -/
structure Consistent (s : Session) : Prop extends Tidy s where
  balanced : s.snapshot.books.Balanced
  canCancel_iff : s.canCancel = true ↔
    s.phase = .connecting ∨ s.phase = .handshaking ∨
      s.phase = .transferring ∧ s.sent < s.total.toNat
  canPause_iff : s.phase ≠ .paused →
    (s.canPause = true ↔
      s.retry.armed.isSome ∨
        s.phase = .transferring ∧ s.channel.isSome ∧ s.sent < s.total.toNat)
  /-- Before the parameters are announced nothing was sent on the connection. -/
  unsent : s.handler = .connecting ∨ s.handler = .handshaking →
    s.sent = s.acked ∧ s.chunksSent = 0 ∧ s.chunksAcked = 0
  announced : s.handler = .transferring → s.window.isSome
  channel_latest : ∀ c, s.channel = some c → c.id.number = s.connections
  read_latest : ∀ read range, s.pendingRead = some (read, range) → read.number = s.reads
  timer_latest : ∀ token, s.retry.armed = some token → token.number = s.retry.count

theorem consistent_new (id : String) (total : UInt64) (delay : Nat) :
    (new id total delay).Consistent where
  idle _ := ⟨rfl, rfl, rfl⟩
  live h := by cases h
  open_iff h := by cases h
  cancelling h := by cases h
  paused_iff := by simp [new]
  reading_iff := rfl
  read _ _ h := by cases h
  complete h := by simp [new] at h
  balanced := ⟨by simp [new, snapshot, Snapshot.books], rfl, rfl, fun _ h => by cases h⟩
  canCancel_iff := by simp [new]
  canPause_iff := by simp [new, Retry.idle]
  unsent h := by simp [new, handler] at h
  announced h := by simp [new, handler] at h
  channel_latest _ h := by cases h
  read_latest _ _ h := by cases h
  timer_latest _ h := by cases h

/-! ### Operations that leave the counters alone -/

variable (s : Session)

theorem released_books : s.released.snapshot.books = s.snapshot.books := by
  rw [← endRead_snapshot s]
  rfl

theorem suspended_books : s.suspended.snapshot.books = s.snapshot.books := by
  rw [← endRead_snapshot s]
  rfl

theorem cancelling_books (reason : String) :
    (s.cancelling reason).snapshot.books = s.snapshot.books := by
  rw [← endRead_snapshot s]
  rfl

end Session

end ResumableUpload
