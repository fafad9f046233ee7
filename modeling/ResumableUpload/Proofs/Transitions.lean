import ResumableUpload.Proofs.Consistency

/-!
# What an input does to a consistent session

`Session.Transition s i r` lists the ways in which a consistent session can react to an input, each
with the circumstances in which it does so. `Session.transition` shows that `Session.step` always
reacts in one of these ways, so that a property of all steps is proved by going through the list
and not by opening the handlers.

`Session.Accepts` says which records the session takes on its open channel; every other one breaks
the protocol.
-/

namespace ResumableUpload

namespace Session

open Reaction (quiet ask tell)
open Wire (ServerRecord UploadParams)

/-- The session takes this record when it arrives on the open channel. -/
def Accepts (s : Session) : ServerRecord → Prop
  | .uploadConfig params => s.handler = .handshaking ∧ params.resumeOffset ≤ s.total
  | .chunkAck size =>
    s.handler = .transferring ∧ 0 < s.snapshot.chunksInFlight ∧
      size.toNat ≤ s.snapshot.bytesInFlight
  | .allDone => s.handler = .awaitingCompletion
  | .cancelAck => s.phase = .cancelling
  | .error .. | .cancel _ => True

instance (s : Session) : DecidablePred s.Accepts := fun r => by
  cases r <;> unfold Accepts <;> infer_instance

/-- The input is stale, or the session refuses it. -/
def Ignores (s : Session) : Input → Prop
  | .start => s.phase.isTerminal = true ∨ s.phase = .cancelling ∨ s.phase = .paused
  | .pause mode =>
    s.phase.isTerminal = true ∨ s.phase = .cancelling ∨ mode.resolve s.paused = s.paused
  | .cancel _ => s.canCancel = false
  | .channelOpened conn | .channelClosed conn => s.holds conn = false
  | .record conn _ | .undecodable conn _ => s.isOpen conn = false
  | .chunkRead read _ => ∀ range, s.pendingRead ≠ some (read, range)
  | .retryElapsed token => s.retry.armed ≠ some token

/-- The channel is not reported open a second time. -/
def Timely (s : Session) (i : Input) : Prop := ∀ conn, i = .channelOpened conn → ¬s.isOpen conn

/-- A phase in which a cancellation can be asked for on an open channel. -/
def MayCancel (s : Session) : Prop :=
  s.phase = .handshaking ∨ s.phase = .transferring ∧ s.sent < s.total.toNat

/-- How a consistent session can react to an input. -/
inductive Transition (s : Session) : Input → Reaction → Prop
  | ignored {i : Input} (hi : s.Ignores i) : Transition s i (quiet s)
  | restarted (ht : s.phase.isTerminal = false) (hc : s.phase ≠ .cancelling)
      (hp : s.phase ≠ .paused) :
      Transition s .start
        ⟨s.reconnected, s.releases ++ [.openChannel ⟨s.connections + 1⟩], []⟩
  | unpaused {mode : PauseMode} (hp : s.phase = .paused) (hm : mode ≠ .pause) :
      Transition s (.pause mode) ⟨s.reconnected, [.openChannel ⟨s.connections + 1⟩], []⟩
  | retried {token : RetryToken} (hl : s.phase.isLive = true) (hc : s.channel = none)
      (ht : s.retry.armed = some token) :
      Transition s (.retryElapsed token)
        ⟨s.reconnected, [.openChannel ⟨s.connections + 1⟩], []⟩
  | opened {conn : ConnectionId} (hp : s.phase = .connecting)
      (hc : s.channel = some ⟨conn, false⟩) :
      Transition s (.channelOpened conn)
        (ask { s with channel := some ⟨conn, true⟩, phase := .handshaking }
          (.sendRecord conn (.uploadRequest s.id s.total)))
  | suspended {mode : PauseMode} (ht : s.phase.isTerminal = false) (hc : s.phase ≠ .cancelling)
      (hp : s.phase ≠ .paused) (hm : mode ≠ .unpause) :
      Transition s (.pause mode)
        ⟨s.suspended, s.readRelease ++ s.timerRelease ++ s.goodbye ++ s.channelRelease,
          [⟨.progress, s.suspended.snapshot⟩]⟩
  /-- The caller cancels while the channel is open. -/
  | cancelSent {conn : ConnectionId} {reason : String} (hc : s.channel = some ⟨conn, true⟩)
      (hm : s.MayCancel) :
      Transition s (.cancel reason)
        ⟨s.cancelling reason, s.readRelease ++ [.sendRecord conn (.cancel reason)], []⟩
  /-- The caller cancels and there is no open channel on which the server could be told. -/
  | cancelledOffline {reason : String} (hl : s.phase.isLive = true)
      (hc : s.openConnection = none) :
      Transition s (.cancel reason)
        (s.shutDown.andThen (endUnconfirmed (some reason) .unnotified))
  | cancelConfirmed {conn : ConnectionId} (hp : s.phase = .cancelling)
      (hc : s.channel = some ⟨conn, true⟩) :
      Transition s (.record conn .cancelAck) s.finishCancel
  | serverCancelled {conn : ConnectionId} {reason : String}
      (hc : s.channel = some ⟨conn, true⟩) :
      Transition s (.record conn (.cancel reason)) (s.onServerCancel reason)
  | violated {conn : ConnectionId} {r : ServerRecord} (v : Violation)
      (hc : s.channel = some ⟨conn, true⟩) (hr : ¬s.Accepts r) :
      Transition s (.record conn r) (s.violate v)
  | undecodable {conn : ConnectionId} {detail : String} (hc : s.channel = some ⟨conn, true⟩) :
      Transition s (.undecodable conn detail) (s.violate (.undecodable detail))
  | finished {conn : ConnectionId} (hp : s.phase = .awaitingCompletion)
      (hc : s.channel = some ⟨conn, true⟩) :
      Transition s (.record conn .allDone)
        (shutDown { s with phase := .finished } |>.andThen (tell .finished))
  /-- The server reports an error while it processes the file. -/
  | failedCompleting {conn : ConnectionId} {code : Int32} {message : String}
      (hp : s.phase = .awaitingCompletion) (hc : s.channel = some ⟨conn, true⟩) :
      Transition s (.record conn (.error code message)) (s.endWith (.reported code message))
  /-- The server reports an error after the last chunk was sent. -/
  | failedUncancelled {conn : ConnectionId} {code : Int32} {message : String}
      (hp : s.phase = .transferring) (hs : s.sent = s.total.toNat)
      (hc : s.channel = some ⟨conn, true⟩) :
      Transition s (.record conn (.error code message))
        ((tell .error { s with error := some (.reported code message), phase := .errored }).andThen
          shutDown)
  /-- The server reports an error, for which the session cancels. -/
  | serverFailed {conn : ConnectionId} {code : Int32} {message : String} (hm : s.MayCancel)
      (hc : s.channel = some ⟨conn, true⟩) :
      Transition s (.record conn (.error code message))
        ⟨{ s.cancelling s!"server error: {message}" with error := some (.reported code message) },
          s.readRelease ++ [.sendRecord conn (.cancel s!"server error: {message}")],
          [⟨.error, snapshot
            { s with error := some (.reported code message), phase := .errored }⟩]⟩
  /-- A chunk cannot be read, for which the session cancels. -/
  | readFailed {conn : ConnectionId} {read : ReadId} {range : ByteRange}
      {result : Except Source.ReadError ByteArray} (failure : ReadFailure)
      (hr : s.pendingRead = some (read, range))
      (hd : ∀ data, result = .ok data → data.size ≠ range.length)
      (hc : s.channel = some ⟨conn, true⟩) (hm : s.MayCancel) :
      Transition s (.chunkRead read result)
        ⟨{ s.cancelling "unexpected read error" with error := some (.unreadable failure) },
          [.sendRecord conn (.cancel "unexpected read error")],
          [⟨.error, snapshot
            { s with error := some (.unreadable failure), phase := .errored }⟩]⟩
  /-- The server reports an error while a cancellation is not confirmed. -/
  | errorNoted {conn : ConnectionId} {code : Int32} {message : String}
      (hp : s.phase = .cancelling) (hc : s.channel = some ⟨conn, true⟩) :
      Transition s (.record conn (.error code message))
        (tell .error { s with error := some (.reported code message) })
  | configNoted {conn : ConnectionId} {params : UploadParams} (hp : s.phase = .cancelling)
      (hc : s.channel = some ⟨conn, true⟩) (hr : s.Accepts (.uploadConfig params)) :
      Transition s (.record conn (.uploadConfig params)) (tell .progress (s.configured params))
  /-- The server already holds the whole file. -/
  | configCompletes {conn : ConnectionId} {params : UploadParams} (hp : s.phase = .handshaking)
      (hc : s.channel = some ⟨conn, true⟩) (hr : s.Accepts (.uploadConfig params))
      (he : params.resumeOffset = s.total) :
      Transition s (.record conn (.uploadConfig params))
        ((ask { s.configured params with
            canCancel := false, canPause := false, phase := .awaitingCompletion }
          (.sendRecord conn .ack)).andThen (tell .progress))
  | configBegins {conn : ConnectionId} {params : UploadParams} (hp : s.phase = .handshaking)
      (hc : s.channel = some ⟨conn, true⟩) (hr : s.Accepts (.uploadConfig params))
      (he : params.resumeOffset < s.total) :
      Transition s (.record conn (.uploadConfig params))
        ((ask { s.configured params with canPause := true, phase := .transferring }
          (.sendRecord conn .ack)).andThen fun s => s.requestNextChunk.andThen (tell .progress))
  | ackNoted {conn : ConnectionId} {size : UInt64} (hp : s.phase = .cancelling)
      (hc : s.channel = some ⟨conn, true⟩) (hr : s.Accepts (.chunkAck size)) :
      Transition s (.record conn (.chunkAck size)) (tell .progress (s.acknowledged size.toNat))
  /-- The last byte is acknowledged. -/
  | ackCompletes {conn : ConnectionId} {size : UInt64} (hp : s.phase = .transferring)
      (hc : s.channel = some ⟨conn, true⟩) (hr : s.Accepts (.chunkAck size))
      (he : s.acked + size.toNat = s.total.toNat) :
      Transition s (.record conn (.chunkAck size))
        (tell .progress { s.acknowledged size.toNat with phase := .awaitingCompletion })
  | ackContinues {conn : ConnectionId} {size : UInt64} (hp : s.phase = .transferring)
      (hc : s.channel = some ⟨conn, true⟩) (hr : s.Accepts (.chunkAck size))
      (he : s.acked + size.toNat ≠ s.total.toNat) :
      Transition s (.record conn (.chunkAck size))
        ((s.acknowledged size.toNat).requestNextChunk.andThen (tell .progress))
  /-- The pending read brings the next chunk. -/
  | sent {conn : ConnectionId} {read : ReadId} {range : ByteRange} {data : ByteArray}
      (hr : s.pendingRead = some (read, range)) (hc : s.channel = some ⟨conn, true⟩)
      (hd : data.size = range.length) :
      Transition s (.chunkRead read (.ok data)) (s.endRead.sendChunk conn data)
  /-- The channel is lost and a timer armed for the next attempt. -/
  | lost {c : Channel} (hl : s.phase.isLive = true) (hc : s.channel = some c) :
      Transition s (.channelClosed c.id)
        ((abortRead { s with channel := none }).andThen awaitRetry)
  /-- The channel is lost before a cancellation is confirmed. -/
  | cancelLost {conn : ConnectionId} (hp : s.phase = .cancelling)
      (hc : s.channel = some ⟨conn, true⟩) :
      Transition s (.channelClosed conn)
        ((abortRead { s with channel := none }).andThen abandonCancel)

variable {s : Session}

/-! ### Phases and what they hold -/

namespace Consistent

theorem armed_of_channel (h : s.Consistent) {c : Channel} (hc : s.channel = some c) :
    s.retry.armed = none := by
  have hi := h.idle
  have hl := h.live
  have hx := h.cancelling
  cases hp : s.phase <;> simp_all [Phase.isIdle, Phase.isLive]

theorem phase_of_open (h : s.Consistent) {conn : ConnectionId}
    (hc : s.channel = some ⟨conn, true⟩) :
    s.phase = .handshaking ∨ s.phase = .transferring ∨ s.phase = .awaitingCompletion ∨
      s.phase = .cancelling := by
  have hi := h.idle
  have ho := h.open_iff
  cases hp : s.phase <;> simp_all [Phase.isIdle, Phase.isLive]

theorem phase_of_channel (h : s.Consistent) {c : Channel} (hc : s.channel = some c) :
    s.phase.isLive = true ∨ s.phase = .cancelling := by
  have hi := h.idle
  cases hp : s.phase <;> simp_all [Phase.isIdle, Phase.isLive]

theorem read_none_of_phase (h : s.Consistent) (hp : s.phase ≠ .transferring) :
    s.pendingRead = none := by
  cases hr : s.pendingRead with
  | none => rfl
  | some p => exact absurd (h.read p.1 p.2 hr).1 hp

/-- An open window has no read pending. -/
theorem unread_of_isOpen (h : s.Consistent) {w : Window} (hw : s.window = some w)
    {sent total : Nat} {cancelling : Bool} (hopen : w.isOpen sent total cancelling = true) :
    s.pendingRead = none := by
  obtain ⟨-, hfree, -⟩ := Window.isOpen_eq_true_iff.1 hopen
  simpa [hw, hfree] using h.reading_iff

theorem mayCancel_of_canCancel (h : s.Consistent) {conn : ConnectionId}
    (hc : s.channel = some ⟨conn, true⟩) (hcan : s.canCancel = true) : s.MayCancel := by
  rcases h.canCancel_iff.1 hcan with hp | hp | hp
  · have := (h.open_iff (by simp [hp, Phase.isLive]) _ hc).1 rfl
    exact absurd hp this
  · exact .inl hp
  · exact .inr hp

theorem canCancel_of_mayCancel (h : s.Consistent) (hm : s.MayCancel) : s.canCancel = true :=
  h.canCancel_iff.2 (.inr hm)

end Consistent

/-! ### Every reaction is on the list -/

theorem transition_start (h : s.Consistent) : Transition s .start s.start := by
  by_cases hcond : (s.phase.isTerminal || s.phase == .cancelling || s.paused) = true
  · rw [start, if_pos hcond]
    refine .ignored ?_
    simp only [Bool.or_eq_true, beq_iff_eq, h.paused_iff, or_assoc] at hcond
    exact hcond
  · simp only [Bool.or_eq_true, beq_iff_eq, not_or, Bool.not_eq_true] at hcond
    obtain ⟨⟨ht, hc⟩, hp⟩ := hcond
    rw [start_eq s ht hc hp]
    exact .restarted ht hc fun hph => by simp [h.paused_iff.2 hph] at hp

theorem transition_pause (h : s.Consistent) (mode : PauseMode) :
    Transition s (.pause mode) (s.pause mode) := by
  unfold pause
  by_cases hcond : (s.phase.isTerminal || s.phase == .cancelling) = true
  · rw [if_pos hcond]
    simp only [Bool.or_eq_true, beq_iff_eq] at hcond
    exact .ignored (hcond.imp_right .inl)
  · rw [if_neg hcond]
    simp only [Bool.or_eq_true, beq_iff_eq, not_or, Bool.not_eq_true] at hcond
    obtain ⟨ht, hc⟩ := hcond
    have hpaused := h.paused_iff
    cases hp : s.paused with
    | false =>
      have hph : s.phase ≠ .paused := fun hph => by simp [hpaused.2 hph] at hp
      cases mode with
      | unpause => exact .ignored (.inr (.inr hp.symm))
      | pause | toggle =>
        simp only [PauseMode.resolve, Bool.not_false, reduceCtorEq, ↓reduceIte, suspend_eq]
        exact .suspended ht hc hph (by simp)
    | true =>
      -- a paused session holds nothing, so that `start` has nothing to release
      have hph : s.phase = .paused := hpaused.1 hp
      obtain ⟨hch, hr, ha⟩ := h.idle (by simp [hph, Phase.isIdle])
      cases mode with
      | pause => exact .ignored (.inr (.inr hp.symm))
      | unpause | toggle =>
        simp only [PauseMode.resolve, Bool.not_true, Bool.false_eq_true, ↓reduceIte]
        rw [start_of_idle s ht hc hch hr ha]
        exact .unpaused hph (by simp)

theorem transition_cancel (h : s.Consistent) (reason : String) :
    Transition s (.cancel reason) (s.cancel reason) := by
  unfold cancel
  by_cases hcond : s.phase = .cancelled ∨ ¬s.canCancel
  · rw [if_pos hcond]
    refine .ignored (Bool.eq_false_iff.2 fun hcan => ?_)
    rcases hcond with hp | hcan'
    · have := h.canCancel_iff.1 hcan
      simp [hp] at this
    · exact hcan' hcan
  · rw [if_neg hcond]
    simp only [not_or, not_not] at hcond
    obtain ⟨-, hcan⟩ := hcond
    cases ho : s.openConnection with
    | some conn =>
      have hc := openConnection_eq_some_iff.1 ho
      rw [beginCancel_of_open s ho, timerRelease, h.armed_of_channel hc]
      exact .cancelSent hc (h.mayCancel_of_canCancel hc hcan)
    | none =>
      rw [beginCancel_of_not_open s ho]
      refine .cancelledOffline ?_ ho
      rcases h.canCancel_iff.1 hcan with hp | hp | ⟨hp, -⟩ <;> simp [hp, Phase.isLive]

theorem transition_channelOpened (h : s.Consistent) {conn : ConnectionId}
    (ht : ¬s.isOpen conn) : Transition s (.channelOpened conn) (s.onChannelOpened conn) := by
  unfold onChannelOpened
  by_cases hh : s.holds conn = true
  · rw [if_pos hh]
    obtain ⟨⟨id, o⟩, hc, rfl⟩ := holds_iff.1 hh
    cases o with
    | true => exact absurd (isOpen_iff.2 hc) ht
    | false =>
      -- a channel is held closed in the phase `connecting` only
      refine .opened ?_ hc
      rcases h.phase_of_channel hc with hl | hp
      · simpa using (h.open_iff hl _ hc).not
      · obtain ⟨⟨conn, hc'⟩, -⟩ := h.cancelling hp
        simp [hc] at hc'
  · rw [if_neg hh]
    exact .ignored (Bool.eq_false_iff.2 hh)

theorem transition_channelClosed (h : s.Consistent) (conn : ConnectionId) :
    Transition s (.channelClosed conn) (s.onChannelClosed conn) := by
  unfold onChannelClosed
  by_cases hh : s.holds conn = true
  · rw [if_pos hh]
    obtain ⟨c, hc, rfl⟩ := holds_iff.1 hh
    have hphase : (abortRead { s with channel := none }).session.phase = s.phase := by
      simp [endRead]
    -- the phase decides between a retry and the end of a cancellation
    rcases h.phase_of_channel hc with hl | hp
    · rw [Reaction.andThen_congr (g := awaitRetry)]
      · exact .lost hl hc
      · cases hp : s.phase <;> simp_all [Phase.isLive]
    · obtain ⟨⟨conn, hc'⟩, -⟩ := h.cancelling hp
      obtain rfl : c = ⟨conn, true⟩ := by simpa [hc] using hc'
      have hphase := hphase.trans hp
      rw [Reaction.andThen_congr (g := abandonCancel)]
      · exact .cancelLost hp hc
      · simp only [hphase]
  · rw [if_neg hh]
    exact .ignored (Bool.eq_false_iff.2 hh)

theorem transition_retryElapsed (h : s.Consistent) (token : RetryToken) :
    Transition s (.retryElapsed token) (s.onRetryElapsed token) := by
  unfold onRetryElapsed
  cases hf : s.retry.fire? token with
  | none => exact .ignored (Retry.fire?_eq_none_iff.1 hf)
  | some retry =>
    obtain ⟨ha, rfl⟩ := Retry.fire?_eq_some_iff.1 hf
    -- next to an armed timer there is no channel, and so no pending read
    have hc : s.channel = none := by
      cases hc : s.channel with
      | none => rfl
      | some c => simp [h.armed_of_channel hc] at ha
    have hl : s.phase.isLive = true := by
      have hi := h.idle
      have hx := h.cancelling
      cases hp : s.phase <;> simp_all [Phase.isIdle, Phase.isLive]
    have hr : s.pendingRead = none := by
      cases hr : s.pendingRead with
      | none => rfl
      | some p => obtain ⟨-, ⟨conn, hc'⟩, -⟩ := h.read p.1 p.2 hr; simp [hc] at hc'
    have hp : s.paused = false := by
      by_contra hp
      simp [h.paused_iff.1 (by simpa using hp), Phase.isLive] at hl
    obtain ⟨-, hcancel, hend⟩ := Phase.goesOn_of_isLive hl
    change Transition s _ (start { s with retry := { s.retry with armed := none } })
    rw [start_eq { s with retry := { s.retry with armed := none } } hend hcancel hp]
    simpa [releases, timerRelease, readRelease, channelRelease, hc, hr, reconnected]
      using Transition.retried hl hc ha

/-! ### Records -/

theorem handler_of_ne_cancelling (hp : s.phase ≠ .cancelling) : s.handler = s.phase := by
  simp [handler, hp]

theorem onUploadConfig_eq {params : UploadParams} (hle : params.resumeOffset ≤ s.total) :
    s.onUploadConfig params =
      if s.phase = .cancelling then tell .progress (s.configured params)
      else
        match s.openConnection with
        | none => quiet (s.configured params)
        | some conn =>
          ((s.configured params).beginTransfer conn params).andThen (tell .progress) := by
  unfold onUploadConfig
  rw [if_neg (UInt64.not_lt.2 hle)]
  rfl

theorem transition_config {conn : ConnectionId} {params : UploadParams}
    (hc : s.channel = some ⟨conn, true⟩) (hh : s.handler = .handshaking) :
    Transition s (.record conn (.uploadConfig params)) (s.onUploadConfig params) := by
  by_cases hlt : s.total < params.resumeOffset
  · rw [onUploadConfig, if_pos hlt]
    exact .violated _ hc fun hr => UInt64.not_lt.2 hr.2 hlt
  · have hle : params.resumeOffset ≤ s.total := UInt64.not_lt.1 hlt
    have hr : s.Accepts (.uploadConfig params) := ⟨hh, hle⟩
    rw [onUploadConfig_eq hle]
    by_cases hp : s.phase = .cancelling
    · rw [if_pos hp]
      exact .configNoted hp hc hr
    · have hph : s.phase = .handshaking := by rwa [handler_of_ne_cancelling hp] at hh
      rw [if_neg hp]
      simp only [openConnection_eq_some_iff.2 hc]
      by_cases he : params.resumeOffset = s.total
      · rw [beginTransfer_of_eq (s.configured params) he]
        exact .configCompletes hph hc hr he
      · rw [beginTransfer_of_ne (s.configured params) he, Reaction.andThen_assoc]
        exact .configBegins hph hc hr (UInt64.lt_of_le_of_ne hle he)

theorem transition_ack (h : s.Consistent) {conn : ConnectionId} (size : UInt64)
    (hc : s.channel = some ⟨conn, true⟩) (hh : s.handler = .transferring) :
    Transition s (.record conn (.chunkAck size)) (s.onChunkAck size) := by
  obtain ⟨w, hw⟩ := Option.isSome_iff_exists.1 (h.announced hh)
  unfold onChunkAck
  simp only [hw]
  cases ha : w.acked size.toNat with
  | error e =>
    refine .violated _ hc fun hr => ?_
    obtain ⟨-, hchunks, hbytes⟩ := hr
    simp only [snapshot, hw, Option.map_some, Option.getD_some] at hchunks hbytes
    rw [Window.acked_eq_ok_iff.2 ⟨Nat.pos_iff_ne_zero.1 hchunks, hbytes, rfl⟩] at ha
    cases ha
  | ok w' =>
    obtain ⟨hchunks, hbytes, rfl⟩ := Window.acked_eq_ok_iff.1 ha
    have hr : s.Accepts (.chunkAck size) :=
      ⟨hh, by simp [snapshot, hw]; omega, by simpa [snapshot, hw] using hbytes⟩
    -- what is left to do depends on the session with the acknowledgement counted
    have hacked : { s with
        window := some { w with chunks := w.chunks - 1, bytes := w.bytes - size.toNat }
        acked := s.acked + size.toNat
        chunksAcked := s.chunksAcked + 1 } = s.acknowledged size.toNat := by
      simp [acknowledged, hw]
    simp only [hacked, Reaction.quiet_andThen, afterAck]
    by_cases hp : s.phase = .cancelling
    · have hq : (s.acknowledged size.toNat).requestNextChunk = quiet (s.acknowledged size.toNat) :=
        requestNextChunk_of_cancelling _ hp
      have hne : (s.acknowledged size.toNat).phase ≠ .transferring := by simp [acknowledged, hp]
      simp only [hq, if_neg hne, ite_self]
      exact .ackNoted hp hc hr
    · have hph : s.phase = .transferring := by rwa [handler_of_ne_cancelling hp] at hh
      have hph' : (s.acknowledged size.toNat).phase = .transferring := hph
      rw [if_pos hph']
      by_cases he : (s.acknowledged size.toNat).acked = (s.acknowledged size.toNat).total.toNat
      · rw [if_pos he]
        exact .ackCompletes hph hc hr he
      · rw [if_neg he]
        exact .ackContinues hph hc hr he

theorem MayCancel.phase_ne (h : s.MayCancel) : s.phase ≠ .cancelling := by
  rcases h with hp | ⟨hp, -⟩ <;> simp [hp]

theorem transition_error (h : s.Consistent) {conn : ConnectionId} (code : Int32)
    (message : String) (hc : s.channel = some ⟨conn, true⟩)
    (hp : s.phase ≠ .awaitingCompletion) :
    Transition s (.record conn (.error code message)) (s.onServerError code message) := by
  unfold onServerError
  by_cases hx : s.phase = .cancelling
  · rw [failWith_of_cancelling s hx]
    exact .errorNoted hx hc
  · cases hcan : s.canCancel with
    | true =>
      rw [failWith_of_canCancel s hx hcan (openConnection_eq_some_iff.2 hc), timerRelease,
        h.armed_of_channel hc]
      exact .serverFailed (h.mayCancel_of_canCancel hc hcan) hc
    | false =>
      rw [failWith_of_not_canCancel s hx hcan]
      have hcan' : ¬(s.phase = .connecting ∨ s.phase = .handshaking ∨
          s.phase = .transferring ∧ s.sent < s.total.toNat) := mt h.canCancel_iff.2 (by simp [hcan])
      simp only [not_or, not_and] at hcan'
      obtain ⟨-, hh, hs⟩ := hcan'
      have hph : s.phase = .transferring := by
        rcases h.phase_of_open hc with hph | hph | hph | hph
        · exact absurd hph hh
        · exact hph
        · exact absurd hph hp
        · exact absurd hph hx
      have hle : s.sent ≤ s.total.toNat := h.balanced.sent_le_total
      exact .failedUncancelled hph (Nat.le_antisymm hle (Nat.not_lt.1 (hs hph))) hc

theorem transition_record (h : s.Consistent) (conn : ConnectionId) (r : ServerRecord) :
    Transition s (.record conn r) (s.onRecord conn r) := by
  unfold onRecord
  by_cases ho : s.isOpen conn = true
  · rw [if_pos ho]
    have hc := isOpen_iff.1 ho
    by_cases hx : s.phase = .cancelling ∧ r = .cancelAck
    · rw [if_pos hx, hx.2]
      exact .cancelConfirmed hx.1 hc
    · rw [if_neg hx]
      have hack : r = .cancelAck → ¬s.Accepts r := by
        rintro rfl hr
        exact hx ⟨hr, rfl⟩
      -- while it cancels, a session handles records as the phase that was interrupted
      have hhandler : (s.handler = .awaitingCompletion ∧ s.phase = .awaitingCompletion) ∨
          s.phase ≠ .awaitingCompletion ∧
            (s.handler = .handshaking ∨ s.handler = .transferring) := by
        rcases h.phase_of_open hc with hp | hp | hp | hp
        · simp [handler, hp]
        · simp [handler, hp]
        · simp [handler, hp]
        · obtain ⟨-, -, -, hi | hi⟩ := h.cancelling hp <;> simp [handler, hp, hi]
      rcases hhandler with ⟨hh, hp⟩ | ⟨hp, hh | hh⟩
      · rw [hh]
        cases r with
        | allDone => exact .finished hp hc
        | error code message => exact .failedCompleting hp hc
        | cancel reason => exact .serverCancelled hc
        | uploadConfig params => exact .violated _ hc fun hr => by simp [Accepts, hh] at hr
        | chunkAck size => exact .violated _ hc fun hr => by simp [Accepts, hh] at hr
        | cancelAck => exact .violated _ hc (hack rfl)
      · rw [hh]
        cases r with
        | uploadConfig params => exact transition_config hc hh
        | error code message => exact transition_error h code message hc hp
        | cancel reason => exact .serverCancelled hc
        | allDone => exact .violated _ hc fun hr => by simp [Accepts, hh] at hr
        | chunkAck size => exact .violated _ hc fun hr => by simp [Accepts, hh] at hr
        | cancelAck => exact .violated _ hc (hack rfl)
      · rw [hh]
        cases r with
        | chunkAck size => exact transition_ack h size hc hh
        | error code message => exact transition_error h code message hc hp
        | cancel reason => exact .serverCancelled hc
        | allDone => exact .violated _ hc fun hr => by simp [Accepts, hh] at hr
        | uploadConfig params => exact .violated _ hc fun hr => by simp [Accepts, hh] at hr
        | cancelAck => exact .violated _ hc (hack rfl)
  · rw [if_neg ho]
    exact .ignored (Bool.eq_false_iff.2 ho)

/-! ### Reads -/

theorem transition_readFailure (h : s.Consistent) {read : ReadId} {range : ByteRange}
    {result : Except Source.ReadError ByteArray} (hr : s.pendingRead = some (read, range))
    (hd : ∀ data, result = .ok data → data.size ≠ range.length) (failure : ReadFailure) :
    Transition s (.chunkRead read result) (s.endRead.onReadFailure failure) := by
  obtain ⟨hp, ⟨conn, hc⟩, hs, -⟩ := h.read _ _ hr
  have hm : s.MayCancel := .inr ⟨hp, hs⟩
  have hcan := h.canCancel_of_mayCancel hm
  have hne : ¬(s.endRead.phase = .cancelling ∨ s.endRead.phase = .paused ∨
      s.endRead.phase.isTerminal = true) := by
    simp [endRead, hp, Phase.isTerminal]
  rw [onReadFailure, if_neg hne,
    failWith_of_canCancel s.endRead hm.phase_ne hcan (openConnection_eq_some_iff.2 hc)]
  -- the read has ended before the observer is told, which shows in no snapshot
  have hsnap := endRead_snapshot
    { s with error := some (.unreadable failure), phase := .errored }
  have ht := h.armed_of_channel hc
  simp only [endRead] at hsnap
  have hfailed : Transition s (.chunkRead read result) _ := .readFailed failure hr hd hc hm
  simpa [cancelling, endRead, timerRelease, readRelease, ht, hsnap] using hfailed

theorem transition_chunkRead (h : s.Consistent) (read : ReadId)
    (result : Except Source.ReadError ByteArray) :
    Transition s (.chunkRead read result) (s.onChunkRead read result) := by
  unfold onChunkRead
  cases hr : s.pendingRead with
  | none => exact .ignored fun range => by simp [hr]
  | some p =>
    obtain ⟨pending, range⟩ := p
    by_cases he : pending = read
    · subst he
      simp only [↓reduceIte]
      cases result with
      | error e => exact transition_readFailure h hr (fun _ he => by cases he) _
      | ok data =>
        unfold onRangeRead
        by_cases hd : data.size = range.length
        · obtain ⟨hp, ⟨conn, hc⟩, -⟩ := h.read _ _ hr
          have hp' : s.endRead.phase = .transferring := hp
          have ho' : s.endRead.openConnection = some conn := openConnection_eq_some_iff.2 hc
          simp only [hd, hp', ho', ↓reduceIte]
          exact .sent hr hc hd
        · simp only [hd, ↓reduceIte]
          exact transition_readFailure h hr (fun _ he => by cases he; exact hd) _
    · simp only [he, ↓reduceIte]
      exact .ignored fun range => by simp [hr, he]

theorem transition_undecodable (conn : ConnectionId) (detail : String) :
    Transition s (.undecodable conn detail) (s.onUndecodable conn detail) := by
  unfold onUndecodable
  by_cases ho : s.isOpen conn = true
  · rw [if_pos ho]
    exact .undecodable (isOpen_iff.1 ho)
  · rw [if_neg ho]
    exact .ignored (Bool.eq_false_iff.2 ho)

/-- **A consistent session reacts in one of the listed ways.** -/
theorem transition (h : s.Consistent) {i : Input} (ht : s.Timely i) :
    Transition s i (s.step i) := by
  cases i with
  | start => exact transition_start h
  | pause mode => exact transition_pause h mode
  | cancel reason => exact transition_cancel h reason
  | channelOpened conn => exact transition_channelOpened h (ht conn rfl)
  | record conn r => exact transition_record h conn r
  | undecodable conn detail => exact transition_undecodable conn detail
  | channelClosed conn => exact transition_channelClosed h conn
  | chunkRead read result => exact transition_chunkRead h read result
  | retryElapsed token => exact transition_retryElapsed h token

end Session

end ResumableUpload
