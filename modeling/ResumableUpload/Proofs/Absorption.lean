import ResumableUpload.Proofs.Reachable

/-!
# Sessions that have ended

That a session is consistent rests on every channel being reported open once at most. That an ended
session stays as it is does not: it rests on every ending giving up all that could bring news, and
this holds whatever a session is told, in any order and however often.

* `Session.Settled` : nothing is held, and nothing can be cancelled any more.
* `Session.Robust` : an ended session is settled, and what a session holds is numbered from one on.
  Every operation leads to a robust session (`Session.Robust.step`).
* `Session.absorption_run` : nothing follows an end.
-/

namespace ResumableUpload

namespace Session

open Reaction (quiet tell)
open Wire (ServerRecord UploadParams)

/-- Nothing is held that could bring news, and the caller has nothing left to cancel. -/
structure Settled (s : Session) : Prop where
  channel : s.channel = none
  read : s.pendingRead = none
  timer : s.retry.armed = none
  canCancel : s.phase = .cancelled ∨ s.canCancel = false

/-- What is held has a number other than zero. -/
structure Numbered (s : Session) : Prop where
  channel_pos : ∀ c, s.channel = some c → 0 < c.id.number
  read_pos : ∀ read range, s.pendingRead = some (read, range) → 0 < read.number
  timer_pos : ∀ token, s.retry.armed = some token → 0 < token.number

/-- What holds of a session whatever it was told. -/
structure Robust (s : Session) : Prop extends Numbered s where
  settled : s.phase.isTerminal = true → s.Settled

variable {s : Session}

/-! ### An ended session answers nothing -/

theorem Settled.step (h : s.Settled) (hp : s.phase.isTerminal = true) (i : Input) :
    s.step i = quiet s := by
  obtain ⟨hc, hr, ht, hcan⟩ := h
  cases i with
  | start => simp [Session.step, start, hp]
  | pause mode => simp [Session.step, pause, hp]
  | cancel reason => simpa [Session.step, cancel] using fun hx hcan' => by simp_all
  | channelOpened conn => simp [Session.step, onChannelOpened, holds, hc]
  | record conn r => simp [Session.step, onRecord, isOpen, hc]
  | undecodable conn detail => simp [Session.step, onUndecodable, isOpen, hc]
  | channelClosed conn => simp [Session.step, onChannelClosed, holds, hc]
  | chunkRead read result => simp [Session.step, onChunkRead, hr]
  | retryElapsed token => simp [Session.step, onRetryElapsed, Retry.fire?, ht]

theorem Settled.run (h : s.Settled) (hp : s.phase.isTerminal = true) (is : List Input) :
    s.run is = quiet s := by
  induction is with
  | nil => rfl
  | cons i is ih => rw [Session.run, h.step hp i, Reaction.quiet_andThen, ih]

/-- A consistent session has given everything up when it ends. -/
theorem Consistent.settled (h : s.Consistent) (hend : s.phase.isTerminal = true) : s.Settled := by
  have hidle : s.phase.isIdle = true := by
    cases hp : s.phase <;> simp_all [Phase.isTerminal, Phase.isIdle]
  obtain ⟨hc, hr, ht⟩ := h.idle hidle
  refine ⟨hc, hr, ht, .inr ?_⟩
  by_contra hcan
  rcases h.canCancel_iff.1 (by simpa using hcan) with hp | hp | ⟨hp, -⟩ <;>
    simp [hp, Phase.isTerminal] at hend

/-! ### What the operations lead to -/

theorem Settled.robust (h : s.Settled) : s.Robust where
  channel_pos _ hc := by simp [h.channel] at hc
  read_pos _ _ hr := by simp [h.read] at hr
  timer_pos _ ht := by simp [h.timer] at ht
  settled _ := h

theorem Numbered.robust (h : s.Numbered) (hp : s.phase.isTerminal = false) : s.Robust where
  toNumbered := h
  settled hend := by simp [hp] at hend

theorem settled_released : s.released.Settled := ⟨rfl, rfl, rfl, .inr rfl⟩

theorem robust_shutDown : s.shutDown.session.Robust := by
  rw [shutDown_session]
  exact settled_released.robust

namespace Numbered

/-- A session that holds nothing but a channel. -/
theorem of_channel (hc : ∀ c, s.channel = some c → 0 < c.id.number) (hr : s.pendingRead = none)
    (ht : s.retry.armed = none) : s.Numbered where
  channel_pos := hc
  read_pos _ _ hr' := by simp [hr] at hr'
  timer_pos _ ht' := by simp [ht] at ht'

theorem endRead (h : s.Numbered) : s.endRead.Numbered where
  channel_pos := h.channel_pos
  read_pos _ _ hr := by cases hr
  timer_pos := h.timer_pos

/-- A request is numbered after all earlier ones. -/
theorem requestNextChunk (h : s.Numbered) : s.requestNextChunk.session.Numbered where
  channel_pos := by
    rw [requestNextChunk_channel]
    exact h.channel_pos
  read_pos read range hr := by
    rcases s.requestNextChunk_cases with hq | ⟨w, -, -, -, -, hq⟩ <;> rw [hq] at hr
    · exact h.read_pos _ _ hr
    · obtain ⟨rfl, -⟩ := Prod.mk.inj (Option.some.inj hr)
      exact Nat.succ_pos _
  timer_pos := by
    rw [requestNextChunk_retry]
    exact h.timer_pos

theorem start (h : s.Numbered) (hp : s.phase.isTerminal = false) : s.start.session.Robust := by
  by_cases hquiet : (s.phase.isTerminal || s.phase == .cancelling || s.paused) = true
  · rw [Session.start, if_pos hquiet]
    exact h.robust hp
  · simp only [Bool.or_eq_true, beq_iff_eq, not_or, Bool.not_eq_true] at hquiet
    obtain ⟨⟨ht, hc⟩, hpaused⟩ := hquiet
    rw [start_eq s ht hc hpaused]
    refine robust (of_channel ?_ rfl rfl) rfl
    rintro _ ⟨⟩
    exact Nat.succ_pos _

theorem pause (h : s.Numbered) (hp : s.phase.isTerminal = false) (mode : PauseMode) :
    (s.pause mode).session.Robust := by
  unfold Session.pause
  split
  · exact h.robust hp
  · simp only
    split
    · exact h.robust hp
    · split
      · rw [suspend_eq]
        exact robust (of_channel (fun _ hc => by cases hc) rfl rfl) rfl
      · exact start ⟨h.channel_pos, h.read_pos, h.timer_pos⟩ hp

theorem beginCancel (h : s.Numbered) (reason : String) (p : Phase) :
    (s.beginCancel reason p).session.Robust := by
  cases ho : s.openConnection with
  | some conn =>
    rw [beginCancel_of_open s ho]
    exact robust (of_channel h.channel_pos rfl rfl) rfl
  | none =>
    rw [beginCancel_of_not_open s ho]
    refine Settled.robust ?_
    simp only [Reaction.andThen_session, endUnconfirmed_session, shutDown_session]
    exact ⟨rfl, rfl, rfl, .inl rfl⟩

theorem failWith (h : s.Numbered) (e : SessionError) (reason : String) :
    (s.failWith e reason).session.Robust := by
  unfold Session.failWith
  split
  · rename_i hp
    exact robust ⟨h.channel_pos, h.read_pos, h.timer_pos⟩ (by simp [hp, Phase.isTerminal])
  · have hfailed : Numbered { s with error := some e, phase := .errored } :=
      ⟨h.channel_pos, h.read_pos, h.timer_pos⟩
    rw [Reaction.andThen_session, Reaction.tell_session]
    by_cases hcan : s.canCancel = true
    · rw [if_pos hcan]
      exact hfailed.beginCancel reason s.phase
    · rw [if_neg hcan]
      exact robust_shutDown

theorem onChannelOpened (h : s.Numbered) (hp : s.phase.isTerminal = false) (conn : ConnectionId) :
    (s.onChannelOpened conn).session.Robust := by
  unfold Session.onChannelOpened
  split
  · rename_i hh
    obtain ⟨c, hc, rfl⟩ := holds_iff.1 hh
    refine robust ⟨?_, h.read_pos, h.timer_pos⟩ rfl
    rintro _ ⟨⟩
    exact h.channel_pos c hc
  · exact h.robust hp

theorem onUploadConfig (h : s.Numbered) (hp : s.phase.isTerminal = false) (params : UploadParams) :
    (s.onUploadConfig params).session.Robust := by
  by_cases hlt : s.total < params.resumeOffset
  · rw [Session.onUploadConfig, if_pos hlt]
    exact robust_shutDown
  · have hconfigured : (s.configured params).Numbered := ⟨h.channel_pos, h.read_pos, h.timer_pos⟩
    rw [onUploadConfig_eq (UInt64.not_lt.1 hlt)]
    split
    · exact hconfigured.robust hp
    · split
      · exact hconfigured.robust hp
      · rename_i conn _
        by_cases he : params.resumeOffset = s.total
        · rw [beginTransfer_of_eq (s.configured params) he]
          exact robust ⟨h.channel_pos, h.read_pos, h.timer_pos⟩ rfl
        · rw [beginTransfer_of_ne (s.configured params) he]
          refine robust (requestNextChunk ⟨h.channel_pos, h.read_pos, h.timer_pos⟩) ?_
          simp [Phase.isTerminal]

theorem afterAck (h : s.Numbered) (hp : s.phase.isTerminal = false) : s.afterAck.session.Robust := by
  unfold Session.afterAck
  split
  · split
    · exact robust ⟨h.channel_pos, h.read_pos, h.timer_pos⟩ rfl
    · exact h.robust hp
  · exact h.requestNextChunk.robust (by rwa [requestNextChunk_phase])

theorem onChunkAck (h : s.Numbered) (hp : s.phase.isTerminal = false) (size : UInt64) :
    (s.onChunkAck size).session.Robust := by
  unfold Session.onChunkAck
  split
  · exact robust_shutDown
  · split
    · exact robust_shutDown
    · exact afterAck ⟨h.channel_pos, h.read_pos, h.timer_pos⟩ hp

theorem dispatch (h : s.Numbered) (hp : s.phase.isTerminal = false) (handler : Phase)
    (r : ServerRecord) : (s.dispatch handler r).session.Robust := by
  cases handler with
  | handshaking =>
    cases r with
    | uploadConfig params => exact h.onUploadConfig hp params
    | error code message => exact h.failWith _ _
    | cancel _ | chunkAck _ | allDone | cancelAck => exact robust_shutDown
  | transferring =>
    cases r with
    | chunkAck size => exact h.onChunkAck hp size
    | error code message => exact h.failWith _ _
    | cancel _ | uploadConfig _ | allDone | cancelAck => exact robust_shutDown
  | awaitingCompletion => cases r <;> exact robust_shutDown
  | _ => exact h.robust hp

theorem onRecord (h : s.Numbered) (hp : s.phase.isTerminal = false) (conn : ConnectionId)
    (r : ServerRecord) : (s.onRecord conn r).session.Robust := by
  unfold Session.onRecord
  split
  · split
    · exact robust_shutDown
    · exact h.dispatch hp s.handler r
  · exact h.robust hp

theorem onReadFailure (h : s.Numbered) (hp : s.phase.isTerminal = false) (failure : ReadFailure) :
    (s.onReadFailure failure).session.Robust := by
  unfold Session.onReadFailure
  split
  · exact h.robust hp
  · exact h.failWith _ _

/-- A chunk is handed to the channel, and perhaps another one asked for. -/
theorem chunkSent (h : s.Numbered) (hp : s.phase.isTerminal = false) (conn : ConnectionId)
    (data : ByteArray) : (s.endRead.sendChunk conn data).session.Robust := by
  have hsent : (s.chunkSent data.size).Numbered :=
    ⟨h.channel_pos, fun _ _ hr => (by cases hr), h.timer_pos⟩
  rw [sendChunk_endRead]
  exact hsent.requestNextChunk.robust (by rwa [requestNextChunk_phase])

theorem onChunkRead (h : s.Numbered) (hp : s.phase.isTerminal = false) (read : ReadId)
    (result : Except Source.ReadError ByteArray) : (s.onChunkRead read result).session.Robust := by
  unfold Session.onChunkRead
  split
  · split
    · unfold onRangeRead
      split
      · exact h.endRead.onReadFailure hp _
      · split
        · split
          · split
            · exact h.chunkSent hp _ _
            · exact h.endRead.robust hp
          · exact h.endRead.robust hp
        · exact h.endRead.onReadFailure hp _
    · exact h.robust hp
  · exact h.robust hp

theorem awaitRetry (h : s.Numbered) (hp : s.phase.isTerminal = false) :
    s.awaitRetry.session.Robust := by
  rw [awaitRetry_eq]
  refine robust ⟨h.channel_pos, h.read_pos, ?_⟩ hp
  rintro _ ⟨⟩
  exact Nat.succ_pos _

/-- Only a session that is being cancelled ends with its channel. -/
theorem onChannelClosed (h : s.Numbered) (hp : s.phase.isTerminal = false) (conn : ConnectionId) :
    (s.onChannelClosed conn).session.Robust := by
  unfold Session.onChannelClosed
  split
  · have hlost : Numbered (Session.endRead { s with channel := none }) :=
      ⟨fun _ hc => (by cases hc), fun _ _ hr => (by cases hr), h.timer_pos⟩
    rw [Reaction.andThen_session, abortRead_session]
    split
    · simp only [abandonCancel, Reaction.andThen_session, disarmRetry_session,
        endUnconfirmed_session]
      exact Settled.robust ⟨rfl, rfl, rfl, .inl rfl⟩
    · exact hlost.awaitRetry hp
    · exact hlost.awaitRetry hp
    · exact hlost.awaitRetry hp
    · exact hlost.awaitRetry hp
    · exact hlost.robust hp
  · exact h.robust hp

end Numbered

/-! ### Steps and runs -/

/-- **Whatever a session is told, it stays robust.** -/
theorem Robust.step (h : s.Robust) (i : Input) : (s.step i).session.Robust := by
  cases hp : s.phase.isTerminal with
  | true =>
    rw [(h.settled hp).step hp i]
    exact h
  | false =>
    have hn := h.toNumbered
    cases i with
    | start => exact hn.start hp
    | pause mode => exact hn.pause hp mode
    | cancel reason =>
      change (s.cancel reason).session.Robust
      unfold cancel
      split
      · exact h
      · exact hn.beginCancel reason s.phase
    | channelOpened conn => exact hn.onChannelOpened hp conn
    | record conn r => exact hn.onRecord hp conn r
    | undecodable conn detail =>
      change (s.onUndecodable conn detail).session.Robust
      unfold onUndecodable
      split
      · exact robust_shutDown
      · exact h
    | channelClosed conn => exact hn.onChannelClosed hp conn
    | chunkRead read result => exact hn.onChunkRead hp read result
    | retryElapsed token =>
      change (s.onRetryElapsed token).session.Robust
      unfold onRetryElapsed
      split
      · rename_i retry hf
        obtain ⟨-, rfl⟩ := Retry.fire?_eq_some_iff.1 hf
        exact Numbered.start ⟨hn.channel_pos, hn.read_pos, fun _ ht => (by cases ht)⟩ hp
      · exact h

theorem robust_run (id : String) (total : UInt64) (delay : Nat) (is : List Input) :
    ((new id total delay).run is).session.Robust := by
  induction is using List.reverseRecOn with
  | nil =>
    exact Numbered.robust (.of_channel (fun _ hc => by cases hc) rfl rfl) rfl
  | append_singleton is i ih =>
    rw [run_concat]
    exact ih.step i

/-- **Nothing follows an end.** A session that has ended, whatever it was told before, holds no
channel, stays as it is, and asks for nothing and tells nothing any more. -/
theorem absorption_run (id : String) (total : UInt64) (delay : Nat) {is : List Input}
    (hend : ((new id total delay).run is).session.phase.isTerminal = true) (js : List Input) :
    ((new id total delay).run is).session.isDone = true ∧
      ((new id total delay).run is).session.run js = quiet ((new id total delay).run is).session := by
  have hsettled := (robust_run id total delay is).settled hend
  refine ⟨?_, hsettled.run hend js⟩
  simp [isDone, hend, hsettled.channel]

/-- The channel is reported open again while a read is pending, and the server breaks the protocol
before that read is answered. -/
theorem absorption_run_of_second_opening :
    ((new "upload" 10 500).run [.start, .channelOpened ⟨1⟩,
      .record ⟨1⟩ (.uploadConfig ⟨4, 0, 2⟩), .channelOpened ⟨1⟩,
      .record ⟨1⟩ .allDone]).session.phase.isTerminal = true ∧
    ((new "upload" 10 500).run [.start, .channelOpened ⟨1⟩,
      .record ⟨1⟩ (.uploadConfig ⟨4, 0, 2⟩), .channelOpened ⟨1⟩,
      .record ⟨1⟩ .allDone]).session.isDone = true ∧
    ((new "upload" 10 500).run [.start, .channelOpened ⟨1⟩,
      .record ⟨1⟩ (.uploadConfig ⟨4, 0, 2⟩), .channelOpened ⟨1⟩,
      .record ⟨1⟩ .allDone]).session.run [.chunkRead ⟨1⟩ (.ok ⟨#[0, 1, 2, 3]⟩), .start,
        .pause .toggle, .cancel "too late", .channelOpened ⟨1⟩, .record ⟨1⟩ .cancelAck,
        .undecodable ⟨1⟩ "no record", .channelClosed ⟨1⟩, .retryElapsed ⟨1⟩] =
      quiet ((new "upload" 10 500).run [.start, .channelOpened ⟨1⟩,
        .record ⟨1⟩ (.uploadConfig ⟨4, 0, 2⟩), .channelOpened ⟨1⟩,
        .record ⟨1⟩ .allDone]).session :=
  ⟨by decide, absorption_run "upload" 10 500 (by decide) _⟩

end Session

end ResumableUpload
