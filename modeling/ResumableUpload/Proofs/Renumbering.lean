import ResumableUpload.Proofs.Absorption

/-!
# Counting from another number

Connections, reads and timers are numbered in the order in which they are taken up, and a session
only ever compares these numbers. So it does not matter where the counting starts: a session that
has taken up some before does as one that has not, with all numbers moved by as many.

* `Past` : how many of each kind were taken up before. `after` moves what a session holds, what it
  is given and what it asks for to the numbers that follow, and `since` moves an input back. An
  input about the past is moved to the number zero, which nothing ever has.
* `Session.Uniform` : an operation commutes with `after`.
* `Session.run_after` : so does the answer to any list of inputs.
-/

namespace ResumableUpload

/-- How many connections, reads and timers were taken up before. -/
structure Past where
  connections : Nat
  reads : Nat
  timers : Nat
  deriving DecidableEq, Repr

/-! ### Moving to later numbers -/

/-- The connection as it is numbered after others. -/
def ConnectionId.after (p : Past) (c : ConnectionId) : ConnectionId := ⟨p.connections + c.number⟩

/-- The read as it is numbered after others. -/
def ReadId.after (p : Past) (r : ReadId) : ReadId := ⟨p.reads + r.number⟩

/-- The timer as it is numbered after others. -/
def RetryToken.after (p : Past) (t : RetryToken) : RetryToken := ⟨p.timers + t.number⟩

/-- The effect with later numbers. -/
def Effect.after (p : Past) : Effect → Effect
  | openChannel conn => openChannel (conn.after p)
  | sendRecord conn record => sendRecord (conn.after p) record
  | sendChunk conn data => sendChunk (conn.after p) data
  | closeChannel conn => closeChannel (conn.after p)
  | readChunk read range => readChunk (read.after p) range
  | abortRead read => abortRead (read.after p)
  | armRetry token delay => armRetry (token.after p) delay
  | disarmRetry token => disarmRetry (token.after p)

/-- The channel with a later number. -/
def Channel.after (p : Past) (c : Channel) : Channel := { c with id := c.id.after p }

/-- The timers with later numbers. -/
def Retry.after (p : Past) (r : Retry) : Retry :=
  ⟨r.armed.map (·.after p), p.timers + r.count⟩

/-- The session with later numbers. -/
def Session.after (p : Past) (s : Session) : Session :=
  { s with
    channel := s.channel.map (·.after p)
    connections := p.connections + s.connections
    pendingRead := s.pendingRead.map fun r => (r.1.after p, r.2)
    reads := p.reads + s.reads
    retry := s.retry.after p }

/-- The reaction with later numbers. -/
def Reaction.after (p : Past) (r : Reaction) : Reaction :=
  ⟨r.session.after p, r.effects.map (·.after p), r.notices⟩

/-- The input with later numbers. -/
def Input.after (p : Past) : Input → Input
  | channelOpened conn => channelOpened (conn.after p)
  | record conn r => record (conn.after p) r
  | undecodable conn detail => undecodable (conn.after p) detail
  | channelClosed conn => channelClosed (conn.after p)
  | chunkRead read result => chunkRead (read.after p) result
  | retryElapsed token => retryElapsed (token.after p)
  | i => i

/-! ### Moving back -/

/-- The connection as it is numbered without those before. -/
def ConnectionId.since (p : Past) (c : ConnectionId) : ConnectionId := ⟨c.number - p.connections⟩

/-- The read as it is numbered without those before. -/
def ReadId.since (p : Past) (r : ReadId) : ReadId := ⟨r.number - p.reads⟩

/-- The timer as it is numbered without those before. -/
def RetryToken.since (p : Past) (t : RetryToken) : RetryToken := ⟨t.number - p.timers⟩

/-- The input with the numbers that it has without those before. -/
def Input.since (p : Past) : Input → Input
  | channelOpened conn => channelOpened (conn.since p)
  | record conn r => record (conn.since p) r
  | undecodable conn detail => undecodable (conn.since p) detail
  | channelClosed conn => channelClosed (conn.since p)
  | chunkRead read result => chunkRead (read.since p) result
  | retryElapsed token => retryElapsed (token.since p)
  | i => i

variable {p : Past}

theorem ConnectionId.after_eq_iff {c d : ConnectionId} (h : 0 < c.number) :
    c.after p = d ↔ c = d.since p := by
  cases c
  cases d
  simp only [ConnectionId.since, ConnectionId.after, ConnectionId.mk.injEq] at *
  omega

theorem ReadId.after_eq_iff {r q : ReadId} (h : 0 < r.number) :
    r.after p = q ↔ r = q.since p := by
  cases r
  cases q
  simp only [ReadId.since, ReadId.after, ReadId.mk.injEq] at *
  omega

theorem RetryToken.after_eq_iff {t u : RetryToken} (h : 0 < t.number) :
    t.after p = u ↔ t = u.since p := by
  cases t
  cases u
  simp only [RetryToken.since, RetryToken.after, RetryToken.mk.injEq] at *
  omega

/-! ### Uniform operations -/

namespace Session

open Reaction (quiet ask tell)
open Wire (ServerRecord UploadParams)

/-- The operation does the same from whatever number on the counting starts. -/
def Uniform (f : Session → Reaction) : Prop := ∀ p s, f (s.after p) = (f s).after p

variable {s : Session}

theorem openConnection_after :
    (s.after p).openConnection = s.openConnection.map (·.after p) := by
  cases hc : s.channel with
  | none => simp [openConnection, Session.after, hc]
  | some c => cases ho : c.isOpen <;> simp [openConnection, Session.after, hc, ho, Channel.after]

theorem snapshot_after : (s.after p).snapshot = s.snapshot := by
  have hopen : (s.after p).openConnection.isSome = s.openConnection.isSome := by
    rw [openConnection_after, Option.isSome_map]
  have harmed : (s.after p).retry.isArmed = s.retry.isArmed :=
    Option.isSome_map
  simp only [snapshot, hopen, harmed]
  rfl

namespace Uniform

variable {f g : Session → Reaction}

theorem quiet : Uniform quiet := fun _ _ => rfl

theorem tell (h : Hook) : Uniform (tell h) := fun p s => by
  simp only [Reaction.tell, Reaction.after, snapshot_after, List.map_nil]

/-- What follows a reaction moves with it. -/
theorem after_andThen (hg : Uniform g) (r : Reaction) :
    (r.after p).andThen g = (r.andThen g).after p := by
  simp only [Reaction.andThen, Reaction.after, hg p r.session, List.map_append]

theorem andThen (hf : Uniform f) (hg : Uniform g) : Uniform fun s => (f s).andThen g := by
  intro p s
  simp only [hf p s, hg.after_andThen]

/-- What is changed first has nothing to do with the numbers. -/
theorem comp (hf : Uniform f) {u : Session → Session} (hu : ∀ p s, u (s.after p) = (u s).after p) :
    Uniform fun s => f (u s) := by
  intro p s
  simp only [hu p s, hf p (u s)]

/-- What an operation depends on has nothing to do with the numbers. -/
theorem ite {c : Session → Prop} [DecidablePred c] (hc : ∀ p s, c (s.after p) ↔ c s)
    (hf : Uniform f) (hg : Uniform g) : Uniform fun s => if c s then f s else g s := by
  intro p s
  by_cases h : c s
  · simp only [if_pos h, if_pos ((hc p s).2 h), hf p s]
  · simp only [if_neg h, if_neg (mt (hc p s).1 h), hg p s]

/-- A change of the session that it makes for some sessions only. -/
theorem quiet_ite {c : Session → Prop} [DecidablePred c] (hc : ∀ p s, c (s.after p) ↔ c s)
    {u : Session → Session} (hu : ∀ p s, u (s.after p) = (u s).after p) :
    Uniform fun s => Reaction.quiet (if c s then u s else s) := by
  simp only [apply_ite Reaction.quiet]
  exact ite hc (quiet.comp hu) quiet

theorem update (hf : Uniform f) {u : Session → Session}
    (hu : ∀ p s, u (s.after p) = (u s).after p) : Uniform fun s => (f s).update u := by
  intro p s
  simp only [Reaction.update, hf p s, Reaction.after, hu p (f s).session]

end Uniform

/-! #### Releasing -/

theorem uniform_disarmRetry : Uniform disarmRetry := fun p s => by
  cases h : s.retry.armed <;>
    simp [disarmRetry, Retry.disarm, Session.after, Retry.after, h, Reaction.after, ask, quiet,
      Effect.after]

theorem uniform_armRetry : Uniform armRetry := fun p s => by
  cases h : s.retry.armed <;>
    simp [armRetry, Retry.arm, Session.after, Retry.after, h, Reaction.after, Effect.after,
      RetryToken.after, Nat.add_assoc]

theorem uniform_abortRead : Uniform abortRead := fun p s => by
  cases h : s.pendingRead <;>
    simp [abortRead, endRead, Session.after, h, Reaction.after, ask, quiet, Effect.after]

theorem uniform_releaseChannel : Uniform releaseChannel := fun p s => by
  cases h : s.channel <;>
    simp [releaseChannel, Session.after, h, Reaction.after, ask, quiet, Effect.after, Channel.after]

theorem uniform_leaveChannel : Uniform leaveChannel := fun p s => by
  cases h : s.channel with
  | none => simp [leaveChannel, Session.after, h, Reaction.after, quiet]
  | some c =>
    cases ho : c.isOpen <;>
      simp [leaveChannel, Session.after, h, Reaction.after, Effect.after, Channel.after, ho]

theorem uniform_shutDown : Uniform shutDown :=
  ((uniform_disarmRetry.andThen uniform_abortRead).update fun _ _ => rfl).andThen
    uniform_releaseChannel

/-! #### Connecting and pausing -/

theorem uniform_connect : Uniform connect := fun _ _ => rfl

theorem uniform_start : Uniform start :=
  .ite (fun _ _ => .rfl) .quiet
    (((uniform_disarmRetry.andThen uniform_abortRead).andThen uniform_releaseChannel).andThen
      uniform_connect)

theorem uniform_suspend : Uniform suspend :=
  (((((Uniform.quiet.comp fun _ _ => rfl).andThen uniform_abortRead).andThen
    uniform_disarmRetry).andThen uniform_leaveChannel).update fun _ _ => rfl).andThen
    (.tell .progress)

theorem uniform_pause (mode : PauseMode) : Uniform (pause · mode) :=
  .ite (fun _ _ => .rfl) .quiet
    (.ite (fun _ _ => .rfl) .quiet
      (.ite (fun _ _ => .rfl) uniform_suspend (uniform_start.comp fun _ _ => rfl)))

/-! #### Endings -/

theorem uniform_violate (v : Violation) : Uniform (violate v) :=
  (uniform_shutDown.comp fun _ _ => rfl).andThen (.tell .error)

theorem uniform_endUnconfirmed (reason : Option String) (e : SessionError) :
    Uniform (endUnconfirmed reason e) :=
  ((Uniform.tell .cancelled).comp fun _ _ => rfl).andThen
    (.ite (fun _ _ => .rfl) .quiet ((Uniform.tell .error).comp fun _ _ => rfl))

theorem uniform_beginCancel (reason : String) (q : Phase) : Uniform (beginCancel reason q) := by
  refine ((uniform_disarmRetry.andThen uniform_abortRead).update fun _ _ => rfl).andThen ?_
  intro p s
  -- whether there is a channel to ask on does not depend on its number
  simp only [openConnection_after]
  cases s.openConnection with
  | none => exact (uniform_releaseChannel.andThen (uniform_endUnconfirmed _ _)) p s
  | some conn => rfl

theorem uniform_cancel (reason : String) : Uniform (cancel · reason) :=
  .ite (fun _ _ => .rfl) .quiet fun p s => uniform_beginCancel reason s.phase p s

theorem uniform_failWith (e : SessionError) (reason : String) : Uniform (failWith e reason) := by
  refine .ite (fun _ _ => .rfl) ((Uniform.tell .error).comp fun _ _ => rfl) ?_
  intro p s
  -- the cancellation depends on the phase that it interrupts, which is that before the failure
  have hcancel : Uniform fun failed =>
      if failed.canCancel then failed.beginCancel reason s.phase else failed.shutDown :=
    .ite (fun _ _ => .rfl) (uniform_beginCancel reason s.phase) uniform_shutDown
  rw [← hcancel.after_andThen]
  exact congrArg (Reaction.andThen · _)
    ((Uniform.tell .error) p { s with error := some e, phase := .errored })

theorem uniform_finishCancel : Uniform finishCancel :=
  (uniform_shutDown.comp fun _ _ => rfl).andThen (.tell .cancelled)

theorem uniform_onServerCancel (reason : String) : Uniform (onServerCancel reason) :=
  (uniform_shutDown.comp fun _ _ => rfl).andThen (.tell .cancelled)

theorem uniform_endWith (e : SessionError) : Uniform (endWith e) :=
  (uniform_shutDown.comp fun _ _ => rfl).andThen (.tell .error)

theorem uniform_onReadFailure (failure : ReadFailure) : Uniform (onReadFailure failure) :=
  .ite (fun _ _ => .rfl) .quiet (uniform_failWith _ _)

/-! #### Transferring -/

theorem uniform_requestNextChunk : Uniform requestNextChunk := by
  refine .ite (fun _ _ => .rfl) ?_ .quiet
  intro p s
  simp only [openConnection_after]
  cases hc : s.openConnection with
  | none => simp [Reaction.after, quiet]
  | some conn =>
    cases hw : s.window with
    | none => simp [Session.after, hw, Reaction.after, quiet]
    | some w =>
      cases hg : w.grant s.sent s.total.toNat (s.phase = .cancelling) with
      | none => simp [Session.after, hw, hg, Reaction.after, quiet]
      | some granted =>
        simp [Session.after, hw, hg, Reaction.after, ask, Effect.after, ReadId.after, Nat.add_assoc]

/-- The channel is named to the operation here, and so is moved with the session. -/
theorem beginTransfer_after (conn : ConnectionId) (params : UploadParams) (s : Session) :
    (s.after p).beginTransfer (conn.after p) params = (s.beginTransfer conn params).after p := by
  by_cases he : params.resumeOffset = s.total
  · rw [beginTransfer_of_eq (s.after p) he, beginTransfer_of_eq s he]
    rfl
  · rw [beginTransfer_of_ne (s.after p) he, beginTransfer_of_ne s he,
      ← uniform_requestNextChunk.after_andThen]
    rfl

theorem uniform_onUploadConfig (params : UploadParams) : Uniform (onUploadConfig params) := by
  intro p s
  by_cases hlt : s.total < params.resumeOffset
  · rw [onUploadConfig, onUploadConfig, if_pos hlt, if_pos (show (s.after p).total < _ from hlt)]
    exact uniform_violate _ p s
  · have hle := UInt64.not_lt.1 hlt
    have hconfigured : (s.after p).configured params = (s.configured params).after p := rfl
    rw [onUploadConfig_eq hle, onUploadConfig_eq (show _ ≤ (s.after p).total from hle),
      openConnection_after, hconfigured]
    by_cases hp : s.phase = .cancelling
    · rw [if_pos hp, if_pos (show (s.after p).phase = _ from hp)]
      exact Uniform.tell .progress p (s.configured params)
    · rw [if_neg hp, if_neg (show (s.after p).phase ≠ _ from hp)]
      cases s.openConnection with
      | none => rfl
      | some conn =>
        simp only [Option.map_some, beginTransfer_after, (Uniform.tell .progress).after_andThen]

theorem uniform_afterAck : Uniform afterAck :=
  .ite (fun _ _ => .rfl)
    (.quiet_ite (u := fun s : Session => { s with phase := .awaitingCompletion }) (fun _ _ => .rfl)
      fun _ _ => rfl)
    uniform_requestNextChunk

theorem uniform_onChunkAck (size : UInt64) : Uniform (onChunkAck size) := by
  intro p s
  unfold onChunkAck
  rw [show (s.after p).window = s.window from rfl]
  cases s.window with
  | none => exact uniform_violate _ p s
  | some w =>
    cases hw : w.acked size.toNat with
    | error e => simpa only [hw] using uniform_violate (.unexpectedAck e) p s
    | ok w' =>
      have hcounted := (((uniform_afterAck.andThen (.tell .progress)).comp
        (u := fun s : Session => { s with
          window := some w', acked := s.acked + size.toNat, chunksAcked := s.chunksAcked + 1 })
        fun _ _ => rfl)) p s
      simpa only [hw, Reaction.quiet_andThen] using hcounted

theorem sendChunk_after (conn : ConnectionId) (data : ByteArray) (s : Session) :
    (s.after p).sendChunk (conn.after p) data = (s.sendChunk conn data).after p := by
  have hlast : Uniform fun s =>
      quiet
        (if s.sent = s.total.toNat then { s with canCancel := false, canPause := false } else s) :=
    .quiet_ite (u := fun s : Session => { s with canCancel := false, canPause := false })
      (fun _ _ => .rfl) fun _ _ => rfl
  have hrest := (hlast.andThen (.tell .progress)).andThen uniform_requestNextChunk
  exact hrest.after_andThen (ask
    { s with
      sent := s.sent + data.size
      chunksSent := s.chunksSent + 1
      window := s.window.map (·.sent data.size) } (.sendChunk conn data))

theorem uniform_onRangeRead (range : ByteRange) (result : Except Source.ReadError ByteArray) :
    Uniform (onRangeRead range result) := by
  cases result with
  | error e => exact uniform_onReadFailure _
  | ok data =>
    refine .ite (fun _ _ => .rfl) (.ite (fun _ _ => .rfl) ?_ .quiet) (uniform_onReadFailure _)
    intro p s
    simp only [openConnection_after]
    cases s.openConnection with
    | none => rfl
    | some conn => exact sendChunk_after conn data s

/-! #### Records -/

theorem uniform_dispatch (handler : Phase) (r : ServerRecord) : Uniform (dispatch · handler r) := by
  cases handler with
  | handshaking =>
    cases r with
    | uploadConfig params => exact uniform_onUploadConfig params
    | error code message => exact uniform_failWith _ _
    | cancel reason => exact uniform_onServerCancel reason
    | _ => exact uniform_violate _
  | transferring =>
    cases r with
    | chunkAck size => exact uniform_onChunkAck size
    | error code message => exact uniform_failWith _ _
    | cancel reason => exact uniform_onServerCancel reason
    | _ => exact uniform_violate _
  | awaitingCompletion =>
    cases r with
    | allDone => exact (uniform_shutDown.comp fun _ _ => rfl).andThen (.tell .finished)
    | error code message => exact uniform_endWith _
    | cancel reason => exact uniform_onServerCancel reason
    | _ => exact uniform_violate _
  | _ => exact .quiet

/-! #### Losing the channel -/

theorem uniform_awaitRetry : Uniform awaitRetry :=
  ((Uniform.tell .progress).comp fun _ _ => rfl).andThen uniform_armRetry

theorem uniform_abandonCancel : Uniform abandonCancel := fun p s => by
  rw [abandonCancel, abandonCancel,
    ← (uniform_endUnconfirmed s.pendingReason .unconfirmed).after_andThen,
    ← uniform_disarmRetry]
  rfl

/-! ### Inputs -/

theorem holds_after (h : s.Numbered) (conn : ConnectionId) :
    (s.after p).holds conn = s.holds (conn.since p) := by
  cases hc : s.channel with
  | none => simp [holds, Session.after, hc]
  | some c =>
    simp [holds, Session.after, hc, Channel.after, ConnectionId.after_eq_iff (h.channel_pos c hc)]

theorem isOpen_after (h : s.Numbered) (conn : ConnectionId) :
    (s.after p).isOpen conn = s.isOpen (conn.since p) := by
  cases hc : s.channel with
  | none => simp [isOpen, Session.after, hc]
  | some c =>
    simp [isOpen, Session.after, hc, Channel.after, ConnectionId.after_eq_iff (h.channel_pos c hc)]

theorem onChannelOpened_after (h : s.Numbered) (conn : ConnectionId) :
    (s.after p).onChannelOpened conn = (s.onChannelOpened (conn.since p)).after p := by
  unfold onChannelOpened
  rw [holds_after h]
  by_cases hh : s.holds (conn.since p) = true
  · obtain ⟨c, hc, he⟩ := holds_iff.1 hh
    obtain rfl := (ConnectionId.after_eq_iff (h.channel_pos c hc)).2 he
    rw [if_pos hh, if_pos hh, ← he]
    rfl
  · rw [if_neg hh, if_neg hh]
    rfl

theorem onRecord_after (h : s.Numbered) (conn : ConnectionId) (r : ServerRecord) :
    (s.after p).onRecord conn r = (s.onRecord (conn.since p) r).after p := by
  have hserve : Uniform fun s =>
      if s.phase = .cancelling ∧ r = .cancelAck then s.finishCancel else s.dispatch s.handler r :=
    .ite (fun _ _ => .rfl) uniform_finishCancel fun p s => uniform_dispatch s.handler r p s
  unfold onRecord
  rw [isOpen_after h]
  exact Uniform.ite (c := fun _ => s.isOpen (conn.since p) = true) (fun _ _ => .rfl)
    hserve .quiet p s

theorem onUndecodable_after (h : s.Numbered) (conn : ConnectionId) (detail : String) :
    (s.after p).onUndecodable conn detail = (s.onUndecodable (conn.since p) detail).after p := by
  unfold onUndecodable
  rw [isOpen_after h]
  exact Uniform.ite (c := fun _ => s.isOpen (conn.since p) = true) (fun _ _ => .rfl)
    (uniform_violate _) .quiet p s

theorem onChannelClosed_after (h : s.Numbered) (conn : ConnectionId) :
    (s.after p).onChannelClosed conn = (s.onChannelClosed (conn.since p)).after p := by
  have habort : Uniform fun s => abortRead { s with channel := none } :=
    uniform_abortRead.comp (u := fun s : Session => { s with channel := none }) fun _ _ => rfl
  unfold onChannelClosed
  rw [holds_after h]
  by_cases hh : s.holds (conn.since p) = true
  · rw [if_pos hh, if_pos hh]
    refine (habort.andThen ?_) p s
    intro p s
    simp only [show (s.after p).phase = s.phase from rfl]
    cases s.phase with
    | cancelling => exact uniform_abandonCancel p s
    | connecting | handshaking | transferring | awaitingCompletion => exact uniform_awaitRetry p s
    | _ => exact Uniform.tell .progress p s
  · rw [if_neg hh, if_neg hh]
    rfl

theorem onChunkRead_after (h : s.Numbered) (read : ReadId)
    (result : Except Source.ReadError ByteArray) :
    (s.after p).onChunkRead read result = (s.onChunkRead (read.since p) result).after p := by
  cases hr : s.pendingRead with
  | none => simp [onChunkRead, Session.after, hr, quiet, Reaction.after]
  | some r =>
    obtain ⟨pending, range⟩ := r
    have hafter : (s.after p).pendingRead = some (pending.after p, range) := by
      simp [Session.after, hr]
    simp only [onChunkRead, hr, hafter, ReadId.after_eq_iff (h.read_pos _ _ hr)]
    exact Uniform.ite (c := fun _ => pending = read.since p) (fun _ _ => .rfl)
      (uniform_onRangeRead range result |>.comp (u := endRead) fun _ _ => rfl) .quiet p s

theorem onRetryElapsed_after (h : s.Numbered) (token : RetryToken) :
    (s.after p).onRetryElapsed token = (s.onRetryElapsed (token.since p)).after p := by
  have hfire : (s.after p).retry.fire? token =
      (s.retry.fire? (token.since p)).map (·.after p) := by
    cases ht : s.retry.armed with
    | none => simp [Session.after, Retry.after, Retry.fire?, ht]
    | some armed =>
      simp only [Session.after, Retry.after, Retry.fire?, ht, Option.map_some, Option.some.injEq,
        RetryToken.after_eq_iff (h.timer_pos _ ht)]
      split <;> rfl
  unfold onRetryElapsed
  rw [hfire]
  cases s.retry.fire? (token.since p) with
  | none => rfl
  | some retry => exact uniform_start p { s with retry }

/-- **A step does the same from whatever number on the counting starts.** -/
theorem step_after (h : s.Numbered) (i : Input) :
    (s.after p).step i = (s.step (i.since p)).after p := by
  cases i with
  | start => exact uniform_start p s
  | pause mode => exact uniform_pause mode p s
  | cancel reason => exact uniform_cancel reason p s
  | channelOpened conn => exact onChannelOpened_after h conn
  | record conn r => exact onRecord_after h conn r
  | undecodable conn detail => exact onUndecodable_after h conn detail
  | channelClosed conn => exact onChannelClosed_after h conn
  | chunkRead read result => exact onChunkRead_after h read result
  | retryElapsed token => exact onRetryElapsed_after h token

/-- **So does any list of inputs.** -/
theorem run_after (h : s.Robust) (is : List Input) :
    (s.after p).run is = (s.run (is.map (·.since p))).after p := by
  induction is generalizing s with
  | nil => rfl
  | cons i is ih =>
    -- what is held after the step is numbered from one on again
    have hrest := ih (h.step (i.since p))
    simp only [run, List.map_cons, step_after h.toNumbered, Reaction.andThen, Reaction.after,
      hrest, List.map_append]

end Session

end ResumableUpload
