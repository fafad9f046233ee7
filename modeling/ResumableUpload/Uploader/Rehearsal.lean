import ResumableUpload.Channel.Reader
import ResumableUpload.Settings.Basic
import ResumableUpload.Uploader.Basic

/-!
# Rehearsals

A `Rehearsal` runs an uploader against a server that does one thing after the other. Nothing in it
takes time: reads are served at once, frames arrive in order and at once, and a retry timer expires
as soon as something waits for what comes after it. Attempts to connect wait for the server to
accept them, or fail at once where the network does not reach it.
-/

namespace ResumableUpload

open Channel (Arrival Frame)

/-- What becomes of attempts to connect. -/
inductive Network
  /-- They wait for the server, which learns what they ask for. -/
  | loopback (target : String)
  /-- They fail at once. -/
  | unreachable
  deriving DecidableEq, Repr

/-- The network of an uploader next to its server. An address that is malformed reaches nobody. -/
def Network.ofSettings (settings : Settings) : Network :=
  match settings.requestTarget? with
  | some target => loopback target
  | none => unreachable

/-- The server's end of a connection. -/
structure Peer where
  conn : ConnectionId
  /-- What the client has sent and the server has not read yet. -/
  inbox : List Frame
  /-- The client's end is at work. -/
  live : Bool

/-- An uploader and all that it deals with. -/
structure Rehearsal where
  uploader : Uploader
  network : Network
  /-- The file being uploaded. -/
  source : ByteRange → Except Source.ReadError ByteArray
  /-- Attempts to connect that have not been answered. -/
  attempts : List ConnectionId
  peer : Option Peer
  timer : Option RetryToken
  /-- Inputs on their way to the session. -/
  queue : List Input
  /-- The caller can still give commands. -/
  held : Bool
  /-- What the observer was told. -/
  notices : List Notice

/-- Why a step of a rehearsal has no answer. -/
inductive Rehearsal.Fault
  | uploader (e : UploaderError)
  /-- What was waited for does not happen. -/
  | timeout
  /-- What was waited for cannot happen any more. -/
  | ended
  /-- The server has no connection. -/
  | unconnected
  deriving DecidableEq, Repr

namespace Rehearsal

/-- A rehearsal that begins with an upload of this file. -/
def begin (network : Network) (session : Session)
    (source : ByteRange → Except Source.ReadError ByteArray) : Rehearsal where
  uploader := .new session
  network := network
  source := source
  attempts := []
  peer := none
  timer := none
  queue := []
  held := true
  notices := []

/-- The client's end of a connection is at work. -/
def isLive (r : Rehearsal) : Bool :=
  match r.peer with
  | some p => p.live
  | none => false

/-- Inputs can still reach the session from somewhere. -/
def wayBack (r : Rehearsal) : Bool :=
  r.held || !r.attempts.isEmpty || r.isLive || r.timer.isSome || !r.queue.isEmpty

/-- A frame goes from the client to the server. -/
def deliver (r : Rehearsal) (conn : ConnectionId) (f : Frame) : Rehearsal :=
  match r.peer with
  | some p =>
    if p.conn = conn ∧ p.live then { r with peer := some { p with inbox := p.inbox ++ [f] } } else r
  | none => r

/-- The client's end of a connection stops after a last frame, and the session will hear of it. -/
def hangUp (r : Rehearsal) (conn : ConnectionId) : Rehearsal :=
  match r.peer with
  | some p =>
    if p.conn = conn ∧ p.live then
      { r with
        peer := some { p with inbox := p.inbox ++ [.close], live := false }
        queue := r.queue ++ [.channelClosed conn] }
    else r
  | none => r

/-- An input is the outcome of this read. -/
def isResultOf (read : ReadId) : Input → Bool
  | .chunkRead r _ => r = read
  | _ => false

/-- What an effect does. -/
def perform (r : Rehearsal) : Effect → Rehearsal
  | .openChannel conn =>
    match r.network with
    | .loopback _ => { r with attempts := r.attempts ++ [conn] }
    | .unreachable => { r with queue := r.queue ++ [.channelClosed conn] }
  | .sendRecord conn record =>
    match record.encode with
    | .ok text => r.deliver conn (.text text)
    | .error _ => r
  | .sendChunk conn data => r.deliver conn (.binary data)
  | .closeChannel conn => hangUp { r with attempts := r.attempts.filter (· ≠ conn) } conn
  | .readChunk read range => { r with queue := r.queue ++ [.chunkRead read (r.source range)] }
  | .abortRead read => { r with queue := r.queue.filter (!isResultOf read ·) }
  | .armRetry token _ => { r with timer := some token }
  | .disarmRetry _ => { r with timer := none }

/-- Gives the session an input. -/
def feed (r : Rehearsal) (i : Input) : Rehearsal :=
  let o := r.uploader.feed r.wayBack i
  o.done.foldl perform { r with uploader := o.uploader, notices := r.notices ++ o.notices }

/-- Gives the session the inputs on their way, within `fuel` of them. -/
def drain (r : Rehearsal) : Nat → Rehearsal
  | 0 => r
  | fuel + 1 =>
    match r.queue with
    | [] => if r.wayBack then r else { r with uploader := r.uploader.shutDown.1 }
    | i :: queue => (feed { r with queue } i).drain fuel

/-- Gives the session an input and all that follows from it. Each chunk that is read moves the
upload on by a byte or more. -/
def settle (r : Rehearsal) (i : Input) : Rehearsal :=
  let r := r.feed i
  r.drain (r.uploader.session.total.toNat + r.queue.length + 2)

/-- Lets the retry timer expire, if there is one. -/
def expire (r : Rehearsal) : Rehearsal :=
  match r.timer with
  | some token => settle { r with timer := none } (.retryElapsed token)
  | none => r

/-- The answer to a step, and the rehearsal after it. -/
abbrev Answer (α : Type) := Except Fault α × Rehearsal

/-! ### The caller -/

/-- The caller gives a command. -/
def command (r : Rehearsal) (i : Input) : Answer Unit :=
  if r.uploader.stopped then (.error (.uploader .stopped), r) else (.ok (), r.settle i)

/-- The caller gives the uploader up; what is at work goes on. -/
def release (r : Rehearsal) : Rehearsal := { r with held := false }.drain 1

/-- The caller waits for something to be seen of the upload. -/
def await (r : Rehearsal) (seen : Snapshot → Bool) : Answer Snapshot :=
  if seen r.uploader.snapshot then (.ok r.uploader.snapshot, r)
  else
    let r := r.expire
    if seen r.uploader.snapshot then (.ok r.uploader.snapshot, r)
    else (.error (if r.uploader.stopped then .ended else .timeout), r)

/-- The caller waits for the upload to end, or for the uploader to stop. -/
def awaitEnd (r : Rehearsal) : Answer Snapshot :=
  if r.uploader.stopped then (.ok r.uploader.snapshot, r) else r.await (·.phase.isTerminal)

/-- The caller waits for the uploader to stop. -/
def awaitStop (r : Rehearsal) : Answer Snapshot :=
  let r := if r.uploader.stopped then r else r.expire
  (if r.uploader.stopped then .ok r.uploader.snapshot else .error .timeout, r)

/-! ### The server -/

/-- The next attempt to connect that reaches the server, and what it asks for. -/
def nextAttempt (r : Rehearsal) : Answer (ConnectionId × String) :=
  let r := if r.attempts.isEmpty then r.expire else r
  match r.network, r.attempts with
  | .loopback target, conn :: attempts => (.ok (conn, target), { r with attempts })
  | _, _ => (.error .timeout, r)

/-- The server accepts a connection, and learns what it asks for. -/
def accept (r : Rehearsal) : Answer String :=
  match r.nextAttempt with
  | (.ok (conn, target), r) =>
    (.ok target, settle { r with peer := some ⟨conn, [], true⟩ } (.channelOpened conn))
  | (.error e, r) => (.error e, r)

/-- The server turns an attempt to connect away. -/
def refuse (r : Rehearsal) : Answer Unit :=
  match r.nextAttempt with
  | (.ok (conn, _), r) => (.ok (), r.settle (.channelClosed conn))
  | (.error e, r) => (.error e, r)

/-- The server drops its connection, if it has one. -/
def drop (r : Rehearsal) : Rehearsal :=
  match r.peer with
  | some p =>
    if p.live then settle { r with peer := none } (.channelClosed p.conn)
    else { r with peer := none }
  | none => r

/-- The server sends a frame. The client fails over one that is too large. -/
def send (r : Rehearsal) (f : Frame) : Answer Unit :=
  match r.peer with
  | none => (.error .unconnected, r)
  | some p =>
    if !p.live then (.ok (), r)
    else
      let a := if f.isAdmissible then Arrival.frame f else .failure
      let r := a.reply?.toList.foldl (deliver · p.conn) r
      let r := if a.isLast then r.hangUp p.conn else r
      match a.input? .plain p.conn with
      | some i => (.ok (), r.settle i)
      | none => (.ok (), r.drain (r.queue.length + 1))

/-- The server reads the next frame. -/
def receive (r : Rehearsal) : Answer Frame :=
  match r.peer with
  | none => (.error .unconnected, r)
  | some p =>
    match p.inbox with
    | f :: inbox => (.ok f, { r with peer := some { p with inbox } })
    | [] => (.error .timeout, r)

end Rehearsal

end ResumableUpload
