import ResumableUpload.Proofs.Reachable

/-!
# Breaks of the protocol

What a session does with a record on its open channel is decided by `Session.Accepts` alone: a
record that it accepts is answered by the notification for its kind (`Wire.ServerRecord.hook`), and
every other one ends the session at once, with all its counters as they were
(`Session.EndsBroken`). There is no third way, because a session with an open channel is in a phase
that serves records, or has interrupted such a phase to cancel.

* `Session.answered_or_violated` : a record is answered if it is accepted, and a violation if not.
* `Session.endsBroken_violate` : how a violation ends the session.
* `Session.guards_run` : the guards of every session that a run leads to.
-/

namespace ResumableUpload

/-- The notification that answers a record of this kind. -/
def Wire.ServerRecord.hook : Wire.ServerRecord → Hook
  | uploadConfig _ | chunkAck _ => .progress
  | allDone => .finished
  | cancel _ | cancelAck => .cancelled
  | error .. => .error

/-- Records are served in this phase. -/
def Phase.serves : Phase → Bool
  | handshaking | transferring | awaitingCompletion => true
  | _ => false

namespace Session

open Wire (ServerRecord)

/-- The session has ended over a break of the protocol. -/
def BrokenOff (s : Session) : Prop :=
  s.phase = .errored ∧ ∃ v, s.error = some (.violation v)

/-- What is left to see of a session that a violation ends: its counters stand as they did. -/
def brokenSnapshot (s : Session) (v : Violation) : Snapshot :=
  { s.snapshot with
    phase := .errored
    error := some (.violation v)
    canPause := false
    canCancel := false
    connected := false
    retryPending := false }

/-- The reaction ends the session over a violation on the channel `conn`. -/
structure EndsBroken (s : Session) (conn : ConnectionId) (v : Violation) (r : Reaction) :
    Prop where
  phase_eq : r.session.phase = .errored
  error_eq : r.session.error = some (.violation v)
  code_eq : r.session.error.map (·.code) = some (-3)
  snapshot_eq : r.session.snapshot = s.brokenSnapshot v
  effects_eq : r.effects = s.readRelease ++ [.closeChannel conn]
  notices_eq : r.notices = [⟨.error, s.brokenSnapshot v⟩]

variable {s : Session} {conn : ConnectionId} {r : ServerRecord}

/-! ### A violation -/

theorem violate_snapshot (v : Violation) :
    (s.violate v).session.snapshot = s.brokenSnapshot v := by
  cases hw : s.window <;>
    simp [violate, released, snapshot, brokenSnapshot, openConnection, Retry.isArmed, hw]

theorem endsBroken_violate (h : s.Consistent) (hc : s.channel = some ⟨conn, true⟩)
    (v : Violation) : s.EndsBroken conn v (s.violate v) := by
  have hsnapshot := violate_snapshot (s := s) v
  -- next to a channel there is no timer to disarm
  have htimer : s.retry.armed = none := h.armed_of_channel hc
  exact
    { phase_eq := by simp [violate, released]
      error_eq := by simp [violate, released]
      code_eq := by simp [violate, released, SessionError.code]
      snapshot_eq := hsnapshot
      effects_eq := by
        simp [violate, releases, timerRelease, readRelease, channelRelease, htimer, hc]
      notices_eq := by
        rw [← hsnapshot]
        simp [violate] }

theorem EndsBroken.brokenOff {v : Violation} {r : Reaction} (h : s.EndsBroken conn v r) :
    r.session.BrokenOff :=
  ⟨h.phase_eq, v, h.error_eq⟩

/-! ### Which records are violations -/

/-- The reaction answers the record and goes on, or comes to an end that is no violation. -/
structure Answered (r : ServerRecord) (reaction : Reaction) : Prop where
  hooks_eq : reaction.notices.map (·.hook) = [r.hook]
  unbroken : ¬reaction.session.BrokenOff

/-- What the session does with a record on its open channel: one thing or the other, as it accepts
the record or not. -/
theorem answered_or_violated (h : s.Consistent) (hc : s.channel = some ⟨conn, true⟩)
    (r : ServerRecord) :
    s.Accepts r ∧ Answered r (s.step (.record conn r)) ∨
      ¬s.Accepts r ∧ ∃ v, s.step (.record conn r) = s.violate v := by
  have ht : s.Transition (.record conn r) (s.step (.record conn r)) := transition_record h conn r
  generalize s.step (.record conn r) = reaction at ht
  cases ht with
  | ignored hi => simp [Ignores, isOpen_iff.2 hc] at hi
  | violated v _ hn => exact .inr ⟨hn, v, rfl⟩
  | cancelConfirmed hp =>
    exact .inl ⟨hp, by simp [finishCancel, ServerRecord.hook],
      by simp [finishCancel, BrokenOff, released]⟩
  | serverCancelled =>
    exact .inl ⟨trivial, by simp [onServerCancel, ServerRecord.hook],
      by simp [onServerCancel, BrokenOff, released]⟩
  | finished hp =>
    exact .inl ⟨by simp [Accepts, handler, hp], by simp [ServerRecord.hook],
      by simp [BrokenOff, released]⟩
  -- here the session does end errored, with the error of the server
  | failedCompleting | failedUncancelled =>
    exact .inl ⟨trivial, by simp [endWith, ServerRecord.hook],
      by simp [endWith, BrokenOff, released]⟩
  | serverFailed =>
    exact .inl ⟨trivial, by simp [ServerRecord.hook], by simp [BrokenOff, cancelling]⟩
  | errorNoted hp =>
    exact .inl ⟨trivial, by simp [ServerRecord.hook], by simp [BrokenOff, hp]⟩
  | configNoted hp _ ha | ackNoted hp _ ha | ackContinues hp _ ha =>
    exact .inl ⟨ha, by simp [ServerRecord.hook],
      by simp [BrokenOff, configured, acknowledged, hp]⟩
  | configCompletes _ _ ha | configBegins _ _ ha | ackCompletes _ _ ha =>
    exact .inl ⟨ha, by simp [ServerRecord.hook], by simp [BrokenOff]⟩

theorem violate_of_not_accepts (h : s.Consistent) (hc : s.channel = some ⟨conn, true⟩)
    (hr : ¬s.Accepts r) : ∃ v, s.step (.record conn r) = s.violate v := by
  rcases answered_or_violated h hc r with ⟨ha, -⟩ | ⟨-, hv⟩
  · exact absurd ha hr
  · exact hv

theorem answered_of_accepts (h : s.Consistent) (hc : s.channel = some ⟨conn, true⟩)
    (hr : s.Accepts r) : Answered r (s.step (.record conn r)) := by
  rcases answered_or_violated h hc r with ⟨-, ha⟩ | ⟨hn, -⟩
  · exact ha
  · exact absurd hr hn

/-- The session ends over a record exactly if it does not accept it. -/
theorem brokenOff_iff (h : s.Consistent) (hc : s.channel = some ⟨conn, true⟩) (r : ServerRecord) :
    (s.step (.record conn r)).session.BrokenOff ↔ ¬s.Accepts r := by
  constructor
  · intro hb hr
    exact (answered_of_accepts h hc hr).unbroken hb
  · intro hr
    obtain ⟨v, hv⟩ := violate_of_not_accepts h hc hr
    rw [hv]
    exact (endsBroken_violate h hc v).brokenOff

/-! ### Which handler serves the records -/

theorem serves_handler (h : s.Consistent) (hc : s.channel = some ⟨conn, true⟩) :
    s.handler.serves = true := by
  rcases h.phase_of_open hc with hp | hp | hp | hp
  · simp [handler, hp, Phase.serves]
  · simp [handler, hp, Phase.serves]
  · simp [handler, hp, Phase.serves]
  · obtain ⟨-, -, -, hi | hi⟩ := h.cancelling hp <;> simp [handler, hp, hi, Phase.serves]

theorem interrupted_eq_handler (h : s.Consistent) (hp : s.phase = .cancelling) :
    s.interrupted = some s.handler := by
  obtain ⟨-, -, -, hi | hi⟩ := h.cancelling hp <;> simp [handler, hp, hi]

/-! ### Every run -/

/-- How a session guards the channel `conn`, which is open. -/
structure Guards (s : Session) (conn : ConnectionId) : Prop where
  /-- The handler is that of the phase, or of the phase that a cancellation has interrupted. -/
  handler_eq : if s.phase = .cancelling then s.interrupted = some s.handler
    else s.phase = s.handler
  /-- No record reaches a phase that would ignore it. -/
  serves : s.handler.serves = true
  /-- Every record is answered by exactly one notification. -/
  hooks_eq : ∀ r, (s.step (.record conn r)).notices.map (·.hook) =
    [if s.Accepts r then r.hook else .error]
  brokenOff_iff : ∀ r, (s.step (.record conn r)).session.BrokenOff ↔ ¬s.Accepts r
  refuses : ∀ r, ¬s.Accepts r → ∃ v, s.EndsBroken conn v (s.step (.record conn r))
  undecodable : ∀ detail,
    s.EndsBroken conn (.undecodable detail) (s.step (.undecodable conn detail))

theorem Consistent.guards (h : s.Consistent) (ho : s.isOpen conn = true) : s.Guards conn := by
  have hc := isOpen_iff.1 ho
  have hrefuses : ∀ r, ¬s.Accepts r → ∃ v, s.EndsBroken conn v (s.step (.record conn r)) := by
    intro r hr
    obtain ⟨v, hv⟩ := violate_of_not_accepts h hc hr
    rw [hv]
    exact ⟨v, endsBroken_violate h hc v⟩
  refine
    { handler_eq := ?_
      serves := serves_handler h hc
      hooks_eq := ?_
      brokenOff_iff := Session.brokenOff_iff h hc
      refuses := hrefuses
      undecodable := ?_ }
  · by_cases hp : s.phase = .cancelling
    · rw [if_pos hp]
      exact interrupted_eq_handler h hp
    · rw [if_neg hp]
      exact (handler_of_ne_cancelling hp).symm
  · intro r
    by_cases hr : s.Accepts r
    · rw [if_pos hr]
      exact (answered_of_accepts h hc hr).hooks_eq
    · obtain ⟨v, hv⟩ := hrefuses r hr
      rw [if_neg hr, hv.notices_eq]
      rfl
  · intro detail
    have hstep : s.step (.undecodable conn detail) = s.violate (.undecodable detail) := if_pos ho
    rw [hstep]
    exact endsBroken_violate h hc _

/-- **Breaks of the protocol are found exactly, and nothing but the end of the session follows from
them.** After every run, a record on the open channel is either accepted or ends the session with
its counters unchanged, and none is passed over in silence. -/
theorem guards_run (id : String) (total : UInt64) (delay : Nat) {is : List Input}
    (h : OpensOnce is) {conn : ConnectionId}
    (ho : ((new id total delay).run is).session.isOpen conn = true) :
    ((new id total delay).run is).session.Guards conn :=
  (consistent_run id total delay h).guards ho

/-- More bytes are acknowledged than are in flight, after a cancellation and before it is
confirmed. -/
theorem guards_run_of_excess_ack :
    OpensOnce [.start, .channelOpened ⟨1⟩, .record ⟨1⟩ (.uploadConfig ⟨4, 2, 0⟩),
      .chunkRead ⟨1⟩ (.ok ⟨#[1, 2, 3, 4]⟩), .cancel "enough"] ∧
    ((new "upload" 10 500).run [.start, .channelOpened ⟨1⟩,
      .record ⟨1⟩ (.uploadConfig ⟨4, 2, 0⟩), .chunkRead ⟨1⟩ (.ok ⟨#[1, 2, 3, 4]⟩),
      .cancel "enough"]).session.isOpen ⟨1⟩ = true ∧
    (((new "upload" 10 500).run [.start, .channelOpened ⟨1⟩,
      .record ⟨1⟩ (.uploadConfig ⟨4, 2, 0⟩), .chunkRead ⟨1⟩ (.ok ⟨#[1, 2, 3, 4]⟩),
      .cancel "enough"]).session.step (.record ⟨1⟩ (.chunkAck 5))).session.BrokenOff :=
  ⟨by decide, by decide,
    ((guards_run "upload" 10 500 (by decide) (by decide)).brokenOff_iff (.chunkAck 5)).2
      (by decide)⟩

end Session

end ResumableUpload
