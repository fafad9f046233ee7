import ResumableUpload.Session.Basic

/-!
# How a session reacts

`Session.step` answers one input. Records are served by the handler of the session's phase; while a
cancellation is not confirmed, by the handler of the phase that it interrupted, so that
acknowledgements that cross the cancellation on the wire are still counted.

Whatever a session gives up is released at once: a read is aborted, a timer disarmed and a channel
closed by the same reaction that forgets it. `Session.run` answers a list of inputs.
-/

namespace ResumableUpload

namespace Session

open Reaction (quiet ask tell)
open Wire (ClientRecord ServerRecord UploadParams)

/-! ### Resources -/

/-- Disarms the retry timer. -/
def disarmRetry (s : Session) : Reaction :=
  match s.retry.disarm with
  | (some token, retry) => ask { s with retry } (.disarmRetry token)
  | (none, _) => quiet s

/-- Arms a retry timer and disarms the one it replaces. -/
def armRetry (s : Session) : Reaction :=
  match s.retry.arm with
  | (token, replaced, retry) =>
    ⟨{ s with retry },
      (replaced.map Effect.disarmRetry).toList ++ [.armRetry token s.retryDelay], []⟩

/-- Notes in the window that no read is pending. -/
def endRead (s : Session) : Session :=
  { s with pendingRead := none, window := s.window.map Window.readFinished }

/-- Gives up the pending read. -/
def abortRead (s : Session) : Reaction :=
  match s.pendingRead with
  | some (read, _) => ask s.endRead (.abortRead read)
  | none => quiet s.endRead

/-- Closes the channel. -/
def releaseChannel (s : Session) : Reaction :=
  match s.channel with
  | some c => ask { s with channel := none } (.closeChannel c.id)
  | none => quiet s

/-- Says goodbye on an open channel, and closes the channel. -/
def leaveChannel (s : Session) : Reaction :=
  match s.channel with
  | some c =>
    let goodbye := if c.isOpen then [Effect.sendRecord c.id .pause] else []
    ⟨{ s with channel := none }, goodbye ++ [.closeChannel c.id], []⟩
  | none => quiet s

/-- Releases all that a session holds when it has ended. -/
def shutDown (s : Session) : Reaction :=
  s.disarmRetry.andThen abortRead
    |>.update (fun s => { s with canCancel := false, canPause := false })
    |>.andThen releaseChannel

/-! ### Connecting -/

/-- Opens a new channel, to go on from the acknowledged offset. -/
def connect (s : Session) : Reaction :=
  let conn : ConnectionId := ⟨s.connections + 1⟩
  ask
    { s with
      sent := s.acked
      window := s.window.map Window.reset
      chunksSent := 0
      chunksAcked := 0
      canCancel := true
      canPause := false
      connections := s.connections + 1
      channel := some ⟨conn, false⟩
      phase := .connecting }
    (.openChannel conn)

/-- Drops what is left of an earlier connection and connects, unless the session is paused, being
cancelled, or over. -/
def start (s : Session) : Reaction :=
  if s.phase.isTerminal || s.phase == .cancelling || s.paused then quiet s
  else s.disarmRetry.andThen abortRead |>.andThen releaseChannel |>.andThen connect

/-- The channel being opened is ready: the upload is requested on it. -/
def onChannelOpened (s : Session) (conn : ConnectionId) : Reaction :=
  if s.holds conn then
    ask { s with channel := some ⟨conn, true⟩, phase := .handshaking }
      (.sendRecord conn (.uploadRequest s.id s.total))
  else quiet s

/-! ### Pausing -/

/-- Leaves the channel and waits for the caller. -/
def suspend (s : Session) : Reaction :=
  (quiet { s with paused := true }).andThen abortRead
    |>.andThen disarmRetry
    |>.andThen leaveChannel
    |>.update (fun s => { s with canCancel := false, phase := .paused })
    |>.andThen (tell .progress)

/-- Changes the pause flag as the caller wants it. -/
def pause (s : Session) (mode : PauseMode) : Reaction :=
  if s.phase.isTerminal || s.phase == .cancelling then quiet s
  else
    let target := mode.resolve s.paused
    if target = s.paused then quiet s
    else if target then s.suspend
    else start { s with paused := false }

/-! ### Endings -/

/-- Records a break of the protocol, which ends the session. -/
def violate (v : Violation) (s : Session) : Reaction :=
  shutDown
    { s with
      error := some (.violation v)
      pendingReason := none
      interrupted := none
      phase := .errored }
    |>.andThen (tell .error)

/-- The session ends cancelled while no channel is open: the observer learns of the cancellation,
and of the failure to confirm it unless an error was recorded before. -/
def endUnconfirmed (reason : Option String) (e : SessionError) (s : Session) : Reaction :=
  (tell .cancelled { s with cancelReason := reason, phase := .cancelled }).andThen fun s =>
    if s.error.isSome then quiet s else tell .error { s with error := some e }

/-- Asks the server to cancel, or cancels at once if there is no open channel. -/
def beginCancel (reason : String) (interrupted : Phase) (s : Session) : Reaction :=
  s.disarmRetry.andThen abortRead
    |>.update (fun s => { s with canCancel := false, canPause := false })
    |>.andThen fun s =>
      match s.openConnection with
      | some conn =>
        ask
          { s with
            interrupted := some interrupted
            pendingReason := some reason
            phase := .cancelling }
          (.sendRecord conn (.cancel reason))
      | none => s.releaseChannel.andThen (endUnconfirmed (some reason) .unnotified)

/-- The caller gives the upload up. -/
def cancel (s : Session) (reason : String) : Reaction :=
  if s.phase = .cancelled ∨ ¬s.canCancel then quiet s else s.beginCancel reason s.phase

/-- The server has confirmed the cancellation. -/
def finishCancel (s : Session) : Reaction :=
  shutDown
    { s with
      cancelReason := s.pendingReason
      pendingReason := none
      interrupted := none
      phase := .cancelled }
    |>.andThen (tell .cancelled)

/-- The server gives the upload up. -/
def onServerCancel (reason : String) (s : Session) : Reaction :=
  shutDown
    { s with
      cancelReason := some reason
      pendingReason := none
      interrupted := none
      phase := .cancelled }
    |>.andThen (tell .cancelled)

/-- Records an error and cancels for it; while a cancellation is under way the error is only
recorded. -/
def failWith (e : SessionError) (reason : String) (s : Session) : Reaction :=
  if s.phase = .cancelling then tell .error { s with error := some e }
  else
    (tell .error { s with error := some e, phase := .errored }).andThen fun failed =>
      if failed.canCancel then failed.beginCancel reason s.phase else failed.shutDown

/-- The server reports an error. -/
def onServerError (code : Int32) (message : String) (s : Session) : Reaction :=
  s.failWith (.reported code message) s!"server error: {message}"

/-- The session ends with an error that there is nobody left to tell about. -/
def endWith (e : SessionError) (s : Session) : Reaction :=
  shutDown { s with error := some e, phase := .errored } |>.andThen (tell .error)

/-- A chunk could not be read. A session that is not going to send it takes no notice. -/
def onReadFailure (failure : ReadFailure) (s : Session) : Reaction :=
  if s.phase = .cancelling ∨ s.phase = .paused ∨ s.phase.isTerminal then quiet s
  else s.failWith (.unreadable failure) "unexpected read error"

/-! ### Transferring -/

/-- Reads the next chunk if the window grants one. -/
def requestNextChunk (s : Session) : Reaction :=
  if s.phase = .transferring ∨ s.phase = .cancelling then
    match s.openConnection, s.window with
    | some _, some w =>
      match w.grant s.sent s.total.toNat (s.phase = .cancelling) with
      | some (range, w) =>
        let read : ReadId := ⟨s.reads + 1⟩
        ask { s with reads := s.reads + 1, pendingRead := some (read, range), window := some w }
          (.readChunk read range)
      | none => quiet s
    | _, _ => quiet s
  else quiet s

/-- Begins the transfer that the announced parameters call for. -/
def beginTransfer (conn : ConnectionId) (params : UploadParams) (s : Session) : Reaction :=
  (ask s (.sendRecord conn .ack)).andThen fun s =>
    if params.resumeOffset = s.total then
      quiet { s with canCancel := false, canPause := false, phase := .awaitingCompletion }
    else requestNextChunk { s with canPause := true, phase := .transferring }

/-- The server announces its parameters. While cancelling they are only taken down. -/
def onUploadConfig (params : UploadParams) (s : Session) : Reaction :=
  if s.total < params.resumeOffset then
    s.violate (.resumeBeyondEnd params.resumeOffset.toNat s.total.toNat)
  else
    let s :=
      { s with
        acked := params.resumeOffset.toNat
        sent := params.resumeOffset.toNat
        window := some (.empty params.chunkSize.toNat params.sendAhead.toNat) }
    if s.phase = .cancelling then tell .progress s
    else
      match s.openConnection with
      | none => quiet s
      | some conn => (s.beginTransfer conn params).andThen (tell .progress)

/-- Goes on after an acknowledgement: with the next chunk, or with waiting for the server. -/
def afterAck (s : Session) : Reaction :=
  if s.acked = s.total.toNat then
    quiet (if s.phase = .transferring then { s with phase := .awaitingCompletion } else s)
  else s.requestNextChunk

/-- The server acknowledges a chunk. -/
def onChunkAck (size : UInt64) (s : Session) : Reaction :=
  match s.window with
  | none => s.violate .ackBeforeConfig
  | some w =>
    match w.acked size.toNat with
    | .error e => s.violate (.unexpectedAck e)
    | .ok w =>
      (quiet
        { s with
          window := some w
          acked := s.acked + size.toNat
          chunksAcked := s.chunksAcked + 1 }).andThen afterAck
        |>.andThen (tell .progress)

/-- Sends a chunk that has been read, and reads the next one. After the last chunk the upload can
neither be paused nor cancelled. -/
def sendChunk (conn : ConnectionId) (data : ByteArray) (s : Session) : Reaction :=
  (ask
    { s with
      sent := s.sent + data.size
      chunksSent := s.chunksSent + 1
      window := s.window.map (·.sent data.size) }
    (.sendChunk conn data)).update
      (fun s =>
        if s.sent = s.total.toNat then { s with canCancel := false, canPause := false } else s)
    |>.andThen (tell .progress)
    |>.andThen requestNextChunk

/-- The pending read of `range` has been answered. -/
def onRangeRead (range : ByteRange) (result : Except Source.ReadError ByteArray) (s : Session) :
    Reaction :=
  match result with
  | .error e => s.onReadFailure (.failed e)
  | .ok data =>
    if data.size = range.length then
      if s.phase = .transferring then
        match s.openConnection with
        | some conn => s.sendChunk conn data
        | none => quiet s
      else quiet s
    else s.onReadFailure (.short data.size range.length)

/-- A read has been answered; only the answer to the pending one counts. -/
def onChunkRead (read : ReadId) (result : Except Source.ReadError ByteArray) (s : Session) :
    Reaction :=
  match s.pendingRead with
  | some (pending, range) =>
    if pending = read then s.endRead.onRangeRead range result else quiet s
  | none => quiet s

/-! ### Records -/

/-- Serves a record while the parameters are awaited. -/
def handshakeRecord (s : Session) : ServerRecord → Reaction
  | .uploadConfig params => s.onUploadConfig params
  | .error code message => s.onServerError code message
  | .cancel reason => s.onServerCancel reason
  | r => s.violate (.unexpectedRecord r.label "during handshake")

/-- Serves a record while chunks are sent. -/
def transferRecord (s : Session) : ServerRecord → Reaction
  | .chunkAck size => s.onChunkAck size
  | .error code message => s.onServerError code message
  | .cancel reason => s.onServerCancel reason
  | r => s.violate (.unexpectedRecord r.label "during transfer")

/-- Serves a record while the server processes the file. -/
def completionRecord (s : Session) : ServerRecord → Reaction
  | .allDone => shutDown { s with phase := .finished } |>.andThen (tell .finished)
  | .error code message => s.endWith (.reported code message)
  | .cancel reason => s.onServerCancel reason
  | r => s.violate (.unexpectedRecord r.label "while awaiting completion")

/-- Serves a record as in the phase `handler`. -/
def dispatch (s : Session) (handler : Phase) (r : ServerRecord) : Reaction :=
  match handler with
  | .handshaking => s.handshakeRecord r
  | .transferring => s.transferRecord r
  | .awaitingCompletion => s.completionRecord r
  | _ => quiet s

/-- The phase whose handler serves the records that arrive. -/
def handler (s : Session) : Phase :=
  if s.phase = .cancelling then s.interrupted.getD .transferring else s.phase

/-- A record has arrived; only those on the open channel count. -/
def onRecord (s : Session) (conn : ConnectionId) (r : ServerRecord) : Reaction :=
  if s.isOpen conn then
    if s.phase = .cancelling ∧ r = .cancelAck then s.finishCancel else s.dispatch s.handler r
  else quiet s

/-- A frame that is no record has arrived. -/
def onUndecodable (s : Session) (conn : ConnectionId) (detail : String) : Reaction :=
  if s.isOpen conn then s.violate (.undecodable detail) else quiet s

/-! ### Losing the channel -/

/-- Waits for the retry timer and connects again when it expires. -/
def awaitRetry (s : Session) : Reaction :=
  (tell .progress { s with canPause := true }).andThen armRetry

/-- The channel of a cancellation that was not confirmed has closed. -/
def abandonCancel (s : Session) : Reaction :=
  disarmRetry { s with pendingReason := none, interrupted := none, cancelReason := s.pendingReason }
    |>.andThen (endUnconfirmed s.pendingReason .unconfirmed)

/-- The channel has closed; only the one that is held counts. -/
def onChannelClosed (s : Session) (conn : ConnectionId) : Reaction :=
  if s.holds conn then
    (abortRead { s with channel := none }).andThen fun s =>
      match s.phase with
      | .cancelling => s.abandonCancel
      | .connecting | .handshaking | .transferring | .awaitingCompletion => s.awaitRetry
      | _ => tell .progress s
  else quiet s

/-- The retry timer has expired. -/
def onRetryElapsed (s : Session) (token : RetryToken) : Reaction :=
  match s.retry.fire? token with
  | some retry => start { s with retry }
  | none => quiet s

/-! ### One input, many inputs -/

/-- The reaction to one input. -/
def step (s : Session) : Input → Reaction
  | .start => s.start
  | .pause mode => s.pause mode
  | .cancel reason => s.cancel reason
  | .channelOpened conn => s.onChannelOpened conn
  | .record conn r => s.onRecord conn r
  | .undecodable conn detail => s.onUndecodable conn detail
  | .channelClosed conn => s.onChannelClosed conn
  | .chunkRead read result => s.onChunkRead read result
  | .retryElapsed token => s.onRetryElapsed token

/-- The reaction to inputs one after the other. -/
def run (s : Session) : List Input → Reaction
  | [] => quiet s
  | i :: is => (s.step i).andThen (run · is)

theorem run_append (s : Session) (is js : List Input) :
    s.run (is ++ js) = (s.run is).andThen (run · js) := by
  induction is generalizing s with
  | nil => rfl
  | cons i is ih => simp only [List.cons_append, run, ih, Reaction.andThen_assoc]

end Session

end ResumableUpload
