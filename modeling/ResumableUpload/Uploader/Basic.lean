import ResumableUpload.Session.Step
import ResumableUpload.Uploader.Error

/-!
# Uploaders

An `Uploader` owns a session and the tasks at work for it: open or opening channels, reads, and
retry timers, each known by the name that the session gave it. An input first takes the task that
it comes from out of the books; then the session reacts, and what it asks for is carried out. A
task can only be begun while its results could still come back.
-/

namespace ResumableUpload

/-- A session and the tasks at work for it. -/
structure Uploader where
  session : Session
  channels : List ConnectionId
  reads : List ReadId
  timers : List RetryToken
  /-- The session has ended and no input is taken any more. -/
  stopped : Bool
  deriving DecidableEq, Repr

namespace Uploader

/-- An uploader without tasks. -/
def new (session : Session) : Uploader := ⟨session, [], [], [], false⟩

/-- Takes the task that an input comes from out of the books, if it has ended with that. -/
def forget (u : Uploader) : Input → Uploader
  | .chunkRead read _ => { u with reads := u.reads.filter (· ≠ read) }
  | .retryElapsed token => { u with timers := u.timers.filter (· ≠ token) }
  | .channelClosed conn => { u with channels := u.channels.filter (· ≠ conn) }
  | _ => u

/-- Something can be done about an effect: a task can be begun if there is a way back for its
results, and anything else needs the task that it is about. -/
def canDo (u : Uploader) (wayBack : Bool) : Effect → Bool
  | .openChannel _ | .readChunk .. | .armRetry .. => wayBack
  | .sendRecord conn _ | .sendChunk conn _ | .closeChannel conn => u.channels.contains conn
  | .abortRead read => u.reads.contains read
  | .disarmRetry token => u.timers.contains token

/-- The books after an effect was carried out. -/
def enter (u : Uploader) : Effect → Uploader
  | .openChannel conn => { u with channels := conn :: u.channels }
  | .closeChannel conn => { u with channels := u.channels.filter (· ≠ conn) }
  | .readChunk read _ => { u with reads := read :: u.reads }
  | .abortRead read => { u with reads := u.reads.filter (· ≠ read) }
  | .armRetry token _ => { u with timers := token :: u.timers }
  | .disarmRetry token => { u with timers := u.timers.filter (· ≠ token) }
  | .sendRecord .. | .sendChunk .. => u

/-- Carries out effects in order: the uploader afterwards, and the effects about which something
could be done. -/
def carryOut (wayBack : Bool) (u : Uploader) : List Effect → Uploader × List Effect
  | [] => (u, [])
  | e :: es =>
    if u.canDo wayBack e then
      let (u, done) := (u.enter e).carryOut wayBack es
      (u, e :: done)
    else u.carryOut wayBack es

/-- Ends all tasks that are left. -/
def shutDown (u : Uploader) : Uploader × List Effect :=
  ({ u with channels := [], reads := [], timers := [], stopped := true },
    u.reads.map .abortRead ++ u.timers.map .disarmRetry ++ u.channels.map .closeChannel)

/-- What came of an input. -/
structure Outcome where
  uploader : Uploader
  /-- The effects that were carried out, in order. -/
  done : List Effect
  notices : List Notice

/-- Deals with an input. An uploader that has stopped takes none. -/
def feed (wayBack : Bool) (u : Uploader) (i : Input) : Outcome :=
  if u.stopped then ⟨u, [], []⟩
  else
    let u := u.forget i
    let r := u.session.step i
    let (u, done) := { u with session := r.session }.carryOut wayBack r.effects
    if u.session.isDone then
      let (u, ended) := u.shutDown
      ⟨u, done ++ ended, r.notices⟩
    else ⟨u, done, r.notices⟩

/-- What came of inputs one after the other, each with or without a way back for results. -/
def run (u : Uploader) : List (Bool × Input) → Outcome
  | [] => ⟨u, [], []⟩
  | (wayBack, i) :: rest =>
    let o := u.feed wayBack i
    let last := o.uploader.run rest
    ⟨last.uploader, o.done ++ last.done, o.notices ++ last.notices⟩

/-- What the caller sees of the upload. -/
def snapshot (u : Uploader) : Snapshot := u.session.snapshot

end Uploader

end ResumableUpload
