import Mathlib.Algebra.GroupWithZero.Nat
import ResumableUpload.Session.Step

/-!
# What the operations of a session do

`Session.step` is put together from operations that release what a session holds, ask for
something new, or tell the observer. Here the session after such an operation, its effects and its
notices are given by equations, so that no later proof has to open one.

* `Session.releases` : the effects that give back all that a session holds, and
  `Session.released` : the session afterwards.
* `Session.reconnected` : the session after it has asked for a new channel (`Session.start_eq`).
* `Session.cancelling` : the session after it has asked the server to cancel.
* `Session.configured`, `Session.acknowledged`, `Session.chunkSent` : what an accepted
  configuration, an accepted acknowledgement and a chunk handed to the channel do to the counters.
* `Session.requested` : the session after it has asked for a chunk
  (`Session.requestNextChunk_cases`).
-/

namespace ResumableUpload

namespace Reaction

variable (s : Session) (e : Effect) (h : Hook)

@[simp] theorem ask_session : (ask s e).session = s := rfl

@[simp] theorem ask_effects : (ask s e).effects = [e] := rfl

@[simp] theorem ask_notices : (ask s e).notices = [] := rfl

@[simp] theorem tell_session : (tell h s).session = s := rfl

@[simp] theorem tell_effects : (tell h s).effects = [] := rfl

@[simp] theorem tell_notices : (tell h s).notices = [⟨h, s.snapshot⟩] := rfl

@[ext] theorem ext {r r' : Reaction} (hs : r.session = r'.session) (he : r.effects = r'.effects)
    (hn : r.notices = r'.notices) : r = r' := by
  cases r; cases r'; simp_all

theorem andThen_congr {r : Reaction} {f g : Session → Reaction}
    (h : f r.session = g r.session) : r.andThen f = r.andThen g := by
  simp only [andThen, h]

theorem andThen_of_quiet {r : Reaction} {f : Session → Reaction} (h : f r.session = quiet r.session) :
    r.andThen f = r := by
  ext1 <;> simp [h]

end Reaction

namespace Window

variable (w : Window)

@[simp] theorem readFinished_chunkSize : w.readFinished.chunkSize = w.chunkSize := rfl

@[simp] theorem readFinished_limit : w.readFinished.limit = w.limit := rfl

@[simp] theorem readFinished_chunks : w.readFinished.chunks = w.chunks := rfl

@[simp] theorem readFinished_bytes : w.readFinished.bytes = w.bytes := rfl

@[simp] theorem readFinished_reading : w.readFinished.reading = false := rfl

@[simp] theorem sent_limit (n : Nat) : (w.sent n).limit = w.limit := rfl

@[simp] theorem sent_chunkSize (n : Nat) : (w.sent n).chunkSize = w.chunkSize := rfl

@[simp] theorem chunkSize_comp_readFinished : chunkSize ∘ readFinished = chunkSize := rfl

@[simp] theorem chunkSize_comp_reset : chunkSize ∘ reset = chunkSize := rfl

@[simp] theorem limit_comp_readFinished : limit ∘ readFinished = limit := rfl

@[simp] theorem limit_comp_reset : limit ∘ reset = limit := rfl

@[simp] theorem reset_comp_readFinished : reset ∘ readFinished = reset := rfl

@[simp] theorem readFinished_comp_readFinished : readFinished ∘ readFinished = readFinished := rfl

end Window

namespace Session

open Reaction (quiet ask tell)
open Wire (UploadParams)

variable (s : Session)

/-! ### The channel -/

theorem openConnection_eq_some_iff {s : Session} {conn : ConnectionId} :
    s.openConnection = some conn ↔ s.channel = some ⟨conn, true⟩ := by
  unfold openConnection
  split
  · rename_i c hc
    obtain ⟨id, o⟩ := c
    cases o <;> simp [hc]
  · simp_all

theorem isOpen_iff {s : Session} {conn : ConnectionId} :
    s.isOpen conn = true ↔ s.channel = some ⟨conn, true⟩ := by
  unfold isOpen
  split
  · rename_i c hc
    obtain ⟨id, o⟩ := c
    cases o <;> simp [hc]
  · simp_all

theorem holds_iff {s : Session} {conn : ConnectionId} :
    s.holds conn = true ↔ ∃ c, s.channel = some c ∧ c.id = conn := by
  unfold holds
  split <;> simp_all

/-! ### Releasing -/

/-- The release of the armed timer. -/
def timerRelease : List Effect := (s.retry.armed.map Effect.disarmRetry).toList

/-- The release of the pending read. -/
def readRelease : List Effect := (s.pendingRead.map fun p => Effect.abortRead p.1).toList

/-- The release of the channel. -/
def channelRelease : List Effect := (s.channel.map fun c => Effect.closeChannel c.id).toList

/-- The release of all that a session holds. -/
def releases : List Effect := s.timerRelease ++ s.readRelease ++ s.channelRelease

/-- The session without anything that has to be released. -/
def released : Session :=
  { s with
    retry := ⟨none, s.retry.count⟩
    pendingRead := none
    window := s.window.map Window.readFinished
    canCancel := false
    canPause := false
    channel := none }

@[simp] theorem disarmRetry_session :
    s.disarmRetry.session = { s with retry := ⟨none, s.retry.count⟩ } := by
  cases h : s.retry.armed with
  | none =>
    have hr : (⟨none, s.retry.count⟩ : Retry) = s.retry := by rw [← h]
    simp [disarmRetry, Retry.disarm, h, hr]
  | some token => simp [disarmRetry, Retry.disarm, h]

@[simp] theorem disarmRetry_effects : s.disarmRetry.effects = s.timerRelease := by
  cases h : s.retry.armed <;> simp [disarmRetry, Retry.disarm, timerRelease, h]

@[simp] theorem disarmRetry_notices : s.disarmRetry.notices = [] := by
  cases h : s.retry.armed <;> simp [disarmRetry, Retry.disarm, h]

@[simp] theorem abortRead_session : s.abortRead.session = s.endRead := by
  unfold abortRead; split <;> rfl

@[simp] theorem abortRead_effects : s.abortRead.effects = s.readRelease := by
  cases h : s.pendingRead <;> simp [abortRead, readRelease, h]

@[simp] theorem abortRead_notices : s.abortRead.notices = [] := by
  unfold abortRead; split <;> rfl

@[simp] theorem releaseChannel_session : s.releaseChannel.session = { s with channel := none } := by
  cases h : s.channel with
  | none =>
    have hs : { s with channel := none } = s := by rw [← h]
    simp [releaseChannel, h, hs]
  | some c => simp [releaseChannel, h]

@[simp] theorem releaseChannel_effects : s.releaseChannel.effects = s.channelRelease := by
  cases h : s.channel <;> simp [releaseChannel, channelRelease, h]

@[simp] theorem releaseChannel_notices : s.releaseChannel.notices = [] := by
  cases h : s.channel <;> simp [releaseChannel, h]

@[simp] theorem shutDown_session : s.shutDown.session = s.released := by
  simp [shutDown, released, endRead]

@[simp] theorem shutDown_effects : s.shutDown.effects = s.releases := by
  simp [shutDown, releases, endRead, readRelease, channelRelease]

@[simp] theorem shutDown_notices : s.shutDown.notices = [] := by
  simp [shutDown]

/-! ### Connecting and pausing -/

/-- The session after it has asked for a new channel. -/
def reconnected : Session :=
  { s with
    sent := s.acked
    window := s.window.map Window.reset
    chunksSent := 0
    chunksAcked := 0
    paused := false
    canCancel := true
    canPause := false
    connections := s.connections + 1
    channel := some ⟨⟨s.connections + 1⟩, false⟩
    phase := .connecting
    pendingRead := none
    retry := ⟨none, s.retry.count⟩ }

theorem start_eq (ht : s.phase.isTerminal = false) (hc : s.phase ≠ .cancelling)
    (hp : s.paused = false) :
    s.start = ⟨s.reconnected, s.releases ++ [.openChannel ⟨s.connections + 1⟩], []⟩ := by
  have hcond : (s.phase.isTerminal || s.phase == .cancelling || s.paused) = false := by
    simp [ht, hc, hp]
  rw [start, if_neg (by simp [hcond])]
  ext1
  · simp [connect, reconnected, endRead, hp]
  · simp [connect, releases, endRead, readRelease, channelRelease]
  · simp [connect]

/-- A session that holds nothing has nothing to release before it connects. -/
theorem start_of_idle (ht : s.phase.isTerminal = false) (hx : s.phase ≠ .cancelling)
    (hc : s.channel = none) (hr : s.pendingRead = none) (ha : s.retry.armed = none) :
    start { s with paused := false } =
      ⟨s.reconnected, [.openChannel ⟨s.connections + 1⟩], []⟩ := by
  rw [start_eq { s with paused := false } ht hx rfl]
  simp [releases, timerRelease, readRelease, channelRelease, hc, hr, ha, reconnected]

/-- The farewell on an open channel. -/
def goodbye : List Effect :=
  match s.openConnection with
  | some conn => [.sendRecord conn .pause]
  | none => []

/-- The session after it was paused. -/
def suspended : Session :=
  { s with
    paused := true
    pendingRead := none
    window := s.window.map Window.readFinished
    retry := ⟨none, s.retry.count⟩
    channel := none
    canCancel := false
    phase := .paused }

theorem leaveChannel_eq :
    s.leaveChannel = ⟨{ s with channel := none }, s.goodbye ++ s.channelRelease, []⟩ := by
  cases h : s.channel with
  | none =>
    have hs : { s with channel := none } = s := by rw [← h]
    simp [leaveChannel, goodbye, openConnection, channelRelease, h, hs, quiet]
  | some c => cases ho : c.isOpen <;>
      simp [leaveChannel, goodbye, openConnection, channelRelease, h, ho]

theorem suspend_eq :
    s.suspend =
      ⟨s.suspended, s.readRelease ++ s.timerRelease ++ s.goodbye ++ s.channelRelease,
        [⟨.progress, s.suspended.snapshot⟩]⟩ := by
  ext1
  · simp [suspend, suspended, leaveChannel_eq, endRead]
  · simp [suspend, leaveChannel_eq, endRead, readRelease, timerRelease, goodbye, openConnection,
      channelRelease]
  · simp [suspend, suspended, leaveChannel_eq, endRead]

/-! ### Endings -/

/-- The session after it has asked the server to cancel. -/
def cancelling (reason : String) : Session :=
  { s with
    retry := ⟨none, s.retry.count⟩
    pendingRead := none
    window := s.window.map Window.readFinished
    canCancel := false
    canPause := false
    interrupted := some s.phase
    pendingReason := some reason
    phase := .cancelling }

theorem beginCancel_of_open {conn : ConnectionId} (h : s.openConnection = some conn)
    (reason : String) (p : Phase) :
    s.beginCancel reason p =
      ⟨{ s.cancelling reason with interrupted := some p },
        s.timerRelease ++ s.readRelease ++ [.sendRecord conn (.cancel reason)], []⟩ := by
  unfold openConnection at h
  ext1 <;> simp [beginCancel, endRead, openConnection, h, cancelling, readRelease]

theorem beginCancel_of_not_open (h : s.openConnection = none) (reason : String) (p : Phase) :
    s.beginCancel reason p =
      s.shutDown.andThen (endUnconfirmed (some reason) .unnotified) := by
  unfold openConnection at h
  ext1 <;> simp [beginCancel, endRead, openConnection, h, released, releases, readRelease,
    channelRelease]

@[simp] theorem endUnconfirmed_session (reason : Option String) (e : SessionError) :
    (s.endUnconfirmed reason e).session =
      { s with cancelReason := reason, phase := .cancelled, error := s.error.or (some e) } := by
  cases h : s.error <;> simp [endUnconfirmed, h]

@[simp] theorem endUnconfirmed_effects (reason : Option String) (e : SessionError) :
    (s.endUnconfirmed reason e).effects = [] := by
  cases h : s.error <;> simp [endUnconfirmed, h]

theorem failWith_of_cancelling (h : s.phase = .cancelling) (e : SessionError) (reason : String) :
    s.failWith e reason = tell .error { s with error := some e } := by
  simp [failWith, h]

theorem failWith_of_canCancel {conn : ConnectionId} (hp : s.phase ≠ .cancelling)
    (hcan : s.canCancel = true) (ho : s.openConnection = some conn) (e : SessionError)
    (reason : String) :
    s.failWith e reason =
      ⟨{ s.cancelling reason with error := some e },
        s.timerRelease ++ s.readRelease ++ [.sendRecord conn (.cancel reason)],
        [⟨.error, snapshot { s with error := some e, phase := .errored }⟩]⟩ := by
  -- the session is errored for as long as it takes to tell so, and then cancels
  have hb := beginCancel_of_open { s with error := some e, phase := .errored } ho reason s.phase
  rw [failWith, if_neg hp,
    Reaction.andThen_congr (g := beginCancel reason s.phase) (by simp [hcan])]
  have hs := congrArg Reaction.session hb
  have he := congrArg Reaction.effects hb
  ext1
  · exact hs
  · exact he
  · simp [hb]

theorem failWith_of_not_canCancel (hp : s.phase ≠ .cancelling) (hcan : s.canCancel = false)
    (e : SessionError) (reason : String) :
    s.failWith e reason =
      (tell .error { s with error := some e, phase := .errored }).andThen shutDown := by
  rw [failWith, if_neg hp]
  exact Reaction.andThen_congr (by simp [hcan])

/-- The end of a read does not show in what others get to see. -/
@[simp] theorem endRead_snapshot : s.endRead.snapshot = s.snapshot := by
  cases hw : s.window <;> simp [endRead, snapshot, openConnection, hw]

/-! ### Losing the channel -/

theorem awaitRetry_eq :
    s.awaitRetry =
      ⟨{ s with canPause := true, retry := ⟨some ⟨s.retry.count + 1⟩, s.retry.count + 1⟩ },
        s.timerRelease ++ [.armRetry ⟨s.retry.count + 1⟩ s.retryDelay],
        [⟨.progress, snapshot { s with canPause := true }⟩]⟩ := rfl

/-! ### Transferring -/

/-- The session after it has taken down the announced parameters. -/
def configured (params : UploadParams) : Session :=
  { s with
    acked := params.resumeOffset.toNat
    sent := params.resumeOffset.toNat
    window := some (.empty params.chunkSize.toNat params.sendAhead.toNat) }

/-- The session after it has counted an acknowledgement of `size` bytes. -/
def acknowledged (size : Nat) : Session :=
  { s with
    window := s.window.map fun w => { w with chunks := w.chunks - 1, bytes := w.bytes - size }
    acked := s.acked + size
    chunksAcked := s.chunksAcked + 1 }

/-- The session after it has handed a chunk of `size` bytes to the channel. -/
def chunkSent (size : Nat) : Session :=
  { s with
    pendingRead := none
    window := s.window.map fun w => w.readFinished.sent size
    sent := s.sent + size
    chunksSent := s.chunksSent + 1
    canCancel := s.canCancel && decide (s.sent + size ≠ s.total.toNat)
    canPause := s.canPause && decide (s.sent + size ≠ s.total.toNat) }

theorem sendChunk_endRead (conn : ConnectionId) (data : ByteArray) :
    s.endRead.sendChunk conn data =
      ⟨(s.chunkSent data.size).requestNextChunk.session,
        .sendChunk conn data :: (s.chunkSent data.size).requestNextChunk.effects,
        ⟨.progress, (s.chunkSent data.size).snapshot⟩ ::
          (s.chunkSent data.size).requestNextChunk.notices⟩ := by
  have hs : ((ask
      { s.endRead with
        sent := s.endRead.sent + data.size
        chunksSent := s.endRead.chunksSent + 1
        window := s.endRead.window.map (·.sent data.size) } (.sendChunk conn data)).update
      (fun s =>
        if s.sent = s.total.toNat then { s with canCancel := false, canPause := false }
        else s)).session = s.chunkSent data.size := by
    -- the flags fall with the last byte of the file, as `chunkSent` writes it
    by_cases he : s.sent + data.size = s.total.toNat <;>
      simp [endRead, chunkSent, he, Function.comp_def]
  ext1 <;> simp [sendChunk, ← hs]

theorem beginTransfer_of_eq {params : UploadParams} (he : params.resumeOffset = s.total)
    (conn : ConnectionId) :
    s.beginTransfer conn params =
      ask { s with canCancel := false, canPause := false, phase := .awaitingCompletion }
        (.sendRecord conn .ack) := by
  ext1 <;> simp [beginTransfer, he]

theorem beginTransfer_of_ne {params : UploadParams} (he : params.resumeOffset ≠ s.total)
    (conn : ConnectionId) :
    s.beginTransfer conn params =
      (ask { s with canPause := true, phase := .transferring } (.sendRecord conn .ack)).andThen
        requestNextChunk := by
  ext1 <;> simp [beginTransfer, he]

/-! ### Asking for the next chunk -/

theorem requestNextChunk_of_cancelling (h : s.phase = .cancelling) :
    s.requestNextChunk = quiet s := by
  unfold requestNextChunk
  split
  · split
    · simp [Window.grant, Window.isOpen, h]
    · rfl
  · rfl

/-- A session that transfers asks for the next chunk exactly when its window is open. -/
theorem requestNextChunk_of_transferring {conn : ConnectionId} {w : Window}
    (hp : s.phase = .transferring) (hc : s.openConnection = some conn) (hw : s.window = some w) :
    s.requestNextChunk =
      if w.isOpen s.sent s.total.toNat false then
        ask
          { s with
            reads := s.reads + 1
            pendingRead := some (⟨s.reads + 1⟩, w.nextChunk s.sent s.total.toNat)
            window := some { w with reading := true } }
          (.readChunk ⟨s.reads + 1⟩ (w.nextChunk s.sent s.total.toNat))
      else quiet s := by
  have hcan : decide (Phase.transferring = .cancelling) = false := rfl
  simp only [requestNextChunk, hp, hc, hw, true_or, ↓reduceIte, Window.grant, hcan]
  split <;> simp_all

/-- The session after it has asked for the next chunk of its window `w`. -/
def requested (w : Window) : Session :=
  { s with
    reads := s.reads + 1
    pendingRead := some (⟨s.reads + 1⟩, w.nextChunk s.sent s.total.toNat)
    window := some { w with reading := true } }

/-- Nothing is asked for, or the next chunk of an open window. -/
theorem requestNextChunk_cases :
    s.requestNextChunk = quiet s ∨
      ∃ w, s.phase = .transferring ∧ s.openConnection.isSome = true ∧ s.window = some w ∧
        w.isOpen s.sent s.total.toNat false = true ∧
        s.requestNextChunk = ask (s.requested w)
          (.readChunk ⟨s.reads + 1⟩ (w.nextChunk s.sent s.total.toNat)) := by
  by_cases hp : s.phase = .transferring
  · cases ho : s.openConnection with
    | none => exact .inl (by simp [requestNextChunk, hp, ho])
    | some conn =>
      cases hw : s.window with
      | none => exact .inl (by simp [requestNextChunk, hp, ho, hw])
      | some w =>
        rw [requestNextChunk_of_transferring s hp ho hw]
        split
        · rename_i hopen
          exact .inr ⟨w, hp, rfl, rfl, hopen, rfl⟩
        · exact .inl rfl
  · left
    by_cases hx : s.phase = .cancelling
    · exact requestNextChunk_of_cancelling s hx
    · rw [requestNextChunk, if_neg (by simp [hp, hx])]

/-- Asking for a chunk changes nothing but the pending read and the window that notes it. -/
theorem requestNextChunk_session :
    s.requestNextChunk.session =
      { s with
        reads := s.requestNextChunk.session.reads
        pendingRead := s.requestNextChunk.session.pendingRead
        window := s.requestNextChunk.session.window } := by
  rcases s.requestNextChunk_cases with h | ⟨w, -, -, -, -, h⟩ <;> rw [h] <;> rfl

@[simp] theorem requestNextChunk_phase : s.requestNextChunk.session.phase = s.phase := by
  rw [requestNextChunk_session]

@[simp] theorem requestNextChunk_channel : s.requestNextChunk.session.channel = s.channel := by
  rw [requestNextChunk_session]

@[simp] theorem requestNextChunk_sent : s.requestNextChunk.session.sent = s.sent := by
  rw [requestNextChunk_session]

@[simp] theorem requestNextChunk_acked : s.requestNextChunk.session.acked = s.acked := by
  rw [requestNextChunk_session]

@[simp] theorem requestNextChunk_connections :
    s.requestNextChunk.session.connections = s.connections := by
  rw [requestNextChunk_session]

@[simp] theorem requestNextChunk_total : s.requestNextChunk.session.total = s.total := by
  rw [requestNextChunk_session]

@[simp] theorem requestNextChunk_chunksSent :
    s.requestNextChunk.session.chunksSent = s.chunksSent := by
  rw [requestNextChunk_session]

@[simp] theorem requestNextChunk_retry : s.requestNextChunk.session.retry = s.retry := by
  rw [requestNextChunk_session]

theorem requestNextChunk_reads_le : s.requestNextChunk.session.reads ≤ s.reads + 1 := by
  rcases s.requestNextChunk_cases with h | ⟨w, -, -, -, -, h⟩ <;> simp [h, requested]

@[simp] theorem requestNextChunk_notices : s.requestNextChunk.notices = [] := by
  rcases s.requestNextChunk_cases with h | ⟨w, -, -, -, -, h⟩ <;> simp [h]

/-- A request does not show in what others get to see. -/
@[simp] theorem requestNextChunk_snapshot :
    s.requestNextChunk.session.snapshot = s.snapshot := by
  rcases s.requestNextChunk_cases with h | ⟨w, -, -, hw, -, h⟩
  · rw [h, Reaction.quiet_session]
  · simp [h, requested, snapshot, openConnection, hw]

end Session

end ResumableUpload
