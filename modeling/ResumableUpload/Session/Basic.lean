import ResumableUpload.Ident
import ResumableUpload.Retry
import ResumableUpload.Session.Snapshot
import ResumableUpload.Wire.Record

/-!
# Sessions

A `Session` is the client's side of one upload. It does no work itself: it is given one `Input` at
a time and answers with a `Reaction`, which holds the session afterwards, the `Effect`s it asks
for, in order, and the notices for its observer, in order.
-/

namespace ResumableUpload

/-- All that can happen to a session. -/
inductive Input
  /-- The caller connects, or connects anew. -/
  | start
  | pause (mode : PauseMode)
  | cancel (reason : String)
  /-- The channel is ready. -/
  | channelOpened (conn : ConnectionId)
  | record (conn : ConnectionId) (record : Wire.ServerRecord)
  /-- A frame arrived that is no record. -/
  | undecodable (conn : ConnectionId) (detail : String)
  /-- The channel closed, failed, or could not be opened. -/
  | channelClosed (conn : ConnectionId)
  | chunkRead (read : ReadId) (result : Except Source.ReadError ByteArray)
  | retryElapsed (token : RetryToken)

/-- What a session asks for. -/
inductive Effect
  | openChannel (conn : ConnectionId)
  | sendRecord (conn : ConnectionId) (record : Wire.ClientRecord)
  | sendChunk (conn : ConnectionId) (data : ByteArray)
  | closeChannel (conn : ConnectionId)
  | readChunk (read : ReadId) (range : ByteRange)
  | abortRead (read : ReadId)
  /-- Arm a timer that expires after so many milliseconds. -/
  | armRetry (token : RetryToken) (delay : Nat)
  | disarmRetry (token : RetryToken)

/-- The channel that a session holds. -/
structure Channel where
  id : ConnectionId
  isOpen : Bool
  deriving DecidableEq, Repr

/-- The client's side of one upload. -/
structure Session where
  id : String
  total : UInt64
  /-- Milliseconds from the loss of a connection to the next attempt. -/
  retryDelay : Nat
  phase : Phase
  sent : Nat
  acked : Nat
  chunksSent : Nat
  chunksAcked : Nat
  paused : Bool
  canPause : Bool
  canCancel : Bool
  error : Option SessionError
  cancelReason : Option String
  /-- The reason sent with a cancellation, adopted once that is confirmed. -/
  pendingReason : Option String
  /-- The phase that serves the records arriving while a cancellation is not confirmed. -/
  interrupted : Option Phase
  window : Option Window
  channel : Option Channel
  /-- The number of connections attempted. -/
  connections : Nat
  pendingRead : Option (ReadId × ByteRange)
  /-- The number of reads requested. -/
  reads : Nat
  retry : Retry
  deriving DecidableEq, Repr

namespace Session

/-- A session that has not been started. -/
def new (id : String) (total : UInt64) (retryDelay : Nat) : Session where
  id := id
  total := total
  retryDelay := retryDelay
  phase := .notStarted
  sent := 0
  acked := 0
  chunksSent := 0
  chunksAcked := 0
  paused := false
  canPause := false
  canCancel := false
  error := none
  cancelReason := none
  pendingReason := none
  interrupted := none
  window := none
  channel := none
  connections := 0
  pendingRead := none
  reads := 0
  retry := .idle

/-- The session holds this channel and it is open. -/
def isOpen (s : Session) (conn : ConnectionId) : Bool :=
  match s.channel with
  | some c => c.id = conn ∧ c.isOpen
  | none => false

/-- The session holds this channel, open or not. -/
def holds (s : Session) (conn : ConnectionId) : Bool :=
  match s.channel with
  | some c => c.id = conn
  | none => false

/-- The open channel. -/
def openConnection (s : Session) : Option ConnectionId :=
  match s.channel with
  | some c => if c.isOpen then some c.id else none
  | none => none

/-- The session has ended and holds no channel. -/
def isDone (s : Session) : Bool := s.phase.isTerminal && s.channel.isNone

/-- What others get to see of a session. -/
def snapshot (s : Session) : Snapshot where
  id := s.id
  phase := s.phase
  total := s.total.toNat
  sent := s.sent
  acked := s.acked
  chunkSize := s.window.map (·.chunkSize)
  limit := s.window.map (·.limit)
  chunksInFlight := (s.window.map (·.chunks)).getD 0
  bytesInFlight := (s.window.map (·.bytes)).getD 0
  chunksSent := s.chunksSent
  chunksAcked := s.chunksAcked
  paused := s.paused
  canPause := s.canPause
  canCancel := s.canCancel
  connected := s.openConnection.isSome
  retryPending := s.retry.isArmed
  error := s.error
  cancelReason := s.cancelReason

/-- A session as shown in diagnostics. -/
def inspect (s : Session) : String :=
  s!"Session \x7b id: {Text.quote s.id}, state: {s.phase.name}, total_bytes: {s.total.toNat}, " ++
    s!"bytes_transmitted: {s.sent}, bytes_acknowledged: {s.acked}, .. \x7d"

end Session

/-- The outcome of an input. -/
structure Reaction where
  session : Session
  effects : List Effect
  notices : List Notice

namespace Reaction

/-- Nothing is asked for and nobody is told. -/
def quiet (s : Session) : Reaction := ⟨s, [], []⟩

/-- Asks for one effect. -/
def ask (s : Session) (e : Effect) : Reaction := ⟨s, [e], []⟩

/-- Tells the observer. -/
def tell (h : Hook) (s : Session) : Reaction := ⟨s, [], [⟨h, s.snapshot⟩]⟩

/-- Goes on with the session of a reaction. -/
def andThen (r : Reaction) (f : Session → Reaction) : Reaction :=
  let next := f r.session
  ⟨next.session, r.effects ++ next.effects, r.notices ++ next.notices⟩

/-- Changes the session of a reaction without asking for anything. -/
def update (r : Reaction) (f : Session → Session) : Reaction := { r with session := f r.session }

variable (r : Reaction) (f g : Session → Reaction) (u : Session → Session) (s : Session)

@[simp] theorem quiet_session : (quiet s).session = s := rfl

@[simp] theorem quiet_effects : (quiet s).effects = [] := rfl

@[simp] theorem quiet_notices : (quiet s).notices = [] := rfl

@[simp] theorem andThen_session : (r.andThen f).session = (f r.session).session := rfl

@[simp] theorem andThen_effects :
    (r.andThen f).effects = r.effects ++ (f r.session).effects := rfl

@[simp] theorem andThen_notices :
    (r.andThen f).notices = r.notices ++ (f r.session).notices := rfl

@[simp] theorem update_session : (r.update u).session = u r.session := rfl

@[simp] theorem update_effects : (r.update u).effects = r.effects := rfl

@[simp] theorem update_notices : (r.update u).notices = r.notices := rfl

theorem quiet_andThen : (quiet s).andThen f = f s := rfl

theorem andThen_assoc :
    (r.andThen f).andThen g = r.andThen fun s => (f s).andThen g := by
  simp [andThen, List.append_assoc]

end Reaction

end ResumableUpload
