import ResumableUpload.Channel.Frame
import ResumableUpload.Session.Basic

/-!
# Reading frames

A `Reader` turns the frames arriving on a connection into inputs for the session and answers each
ping. It stops at a close frame, at a failure, at the end of the stream, when it is cancelled, when
nobody takes its inputs any more, and, if it has an idle timeout, when no frame has arrived for
that long. Times are in milliseconds. The clock does not hold all of them, and a reader breaks down
over a frame after which its next deadline would be later than the clock can tell.
-/

namespace ResumableUpload.Channel

/-- What a reader finds around it. -/
structure Platform where
  /-- How it is said where in a text a fault stands. -/
  place : String → Json.Fault → String
  /-- The last time that the clock holds, counted from the start of the reader. -/
  horizon : Nat

namespace Platform

/-- Thirty years. -/
def farFuture : Nat := 30 * 365 * 86400 * 1000

/-- When something is over that is begun now and takes so long. What is later than the clock can
tell is put off to the far future. -/
def sleep (p : Platform) (time : Nat) : Nat := if time ≤ p.horizon then time else farFuture

/-- A platform that counts seconds in signed words of 64 bits and tells no places. -/
def plain : Platform := ⟨fun _ _ => "", UInt64.size / 2 * 1000 - 1⟩

end Platform

/-- What a stream of frames yields. -/
inductive Arrival
  | frame (f : Frame)
  | failure
  /-- Nothing more comes. -/
  | ended

namespace Arrival

/-- The input that an arrival is for the session. -/
def input? (p : Platform) (conn : ConnectionId) : Arrival → Option Input
  | frame (.text s) =>
    match Wire.ServerRecord.decode s with
    | .ok r => some (.record conn r)
    | .error e => some (.undecodable conn (e.message (p.place s)))
  | frame (.binary data) =>
    some (.undecodable conn s!"unexpected binary frame of {data.size} bytes")
  | _ => none

/-- The frame with which an arrival is answered. -/
def reply? : Arrival → Option Frame
  | frame (.ping data) => some (.pong data)
  | _ => none

/-- The arrival is a frame, whatever its kind. -/
def isFrame : Arrival → Bool
  | frame _ => true
  | failure | ended => false

/-- Nothing is read after this arrival. -/
def isLast : Arrival → Bool
  | frame .close | failure | ended => true
  | _ => false

end Arrival

/-- What can happen to a reader. -/
inductive ReaderEvent
  | pass (time : Nat)
  | arrive (a : Arrival)
  | cancel
  /-- The session stops taking inputs. -/
  | leave

/-- A reader and what it has done. -/
structure Reader where
  platform : Platform
  conn : ConnectionId
  /-- How long it bears silence. -/
  idle : Option Nat
  /-- The time since it was started. -/
  now : Nat
  /-- When it stops unless something arrives before. -/
  deadline : Option Nat
  /-- The session takes inputs. -/
  listening : Bool
  /-- The inputs for the session, in order. -/
  inputs : List Input
  /-- The frames queued for writing, in order. -/
  replies : List Frame
  /-- When it stopped, if it has. -/
  stoppedAt : Option Nat
  /-- It broke down. -/
  crashed : Bool

namespace Reader

/-- A reader at its start. -/
def start (p : Platform) (conn : ConnectionId) (idle : Option Nat) : Reader :=
  ⟨p, conn, idle, 0, idle.map p.sleep, true, [], [], none, false⟩

/-- The reader stops. -/
def stop (r : Reader) : Reader := { r with stoppedAt := some r.now }

/-- The reader breaks down. -/
def crash (r : Reader) : Reader := { r.stop with crashed := true }

/-- The reader waits for some time. What arrives at the very time of the deadline is still read. -/
def wait (r : Reader) (time : Nat) : Reader :=
  match r.deadline with
  | some t => if t < r.now + time then { r with now := t }.stop else { r with now := r.now + time }
  | none => { r with now := r.now + time }

/-- The reader may again be idle as long as it bears. -/
def postpone (r : Reader) : Reader := { r with deadline := r.idle.map (r.now + ·) }

/-- The clock holds the time until which the reader may then be idle. -/
def canPostpone (r : Reader) : Bool := r.idle.all (r.now + · ≤ r.platform.horizon)

/-- The reader deals with what its stream yields. -/
def heed (r : Reader) (a : Arrival) : Reader :=
  if a.isLast then r.stop
  else
    match a.input? r.platform r.conn with
    | some i => if r.listening then { r.postpone with inputs := r.inputs ++ [i] } else r.stop
    | none => { r.postpone with replies := r.replies ++ a.reply?.toList }

/-- The reader hears what its stream yields. The next deadline comes first, before a frame is looked
at. -/
def hear (r : Reader) (a : Arrival) : Reader :=
  if a.isFrame && !r.canPostpone then r.crash else r.heed a

/-- What an event does to a reader that has not stopped. -/
def react (r : Reader) : ReaderEvent → Reader
  | .pass time => r.wait time
  | .arrive a => r.hear a
  | .cancel => r.stop
  | .leave => { r with listening := false }

/-- The reader after an event. Nothing happens to it any more once it has stopped. -/
def step (r : Reader) (e : ReaderEvent) : Reader :=
  if r.stoppedAt.isSome then r else r.react e

/-- The reader after events one after the other. -/
def run (r : Reader) (events : List ReaderEvent) : Reader := events.foldl step r

/-- The reader after so long a silence that it stops, if there is one. -/
def outwait (r : Reader) : Reader :=
  match r.deadline with
  | some t => r.step (.pass (t + 1))
  | none => r

variable (r : Reader) (e : ReaderEvent) (es es' : List ReaderEvent)

@[simp] theorem run_nil : r.run [] = r := rfl

@[simp] theorem run_cons : r.run (e :: es) = (r.step e).run es := rfl

theorem run_append : r.run (es ++ es') = (r.run es).run es' := List.foldl_append

end Reader

/-! ### Timetables -/

/-- An arrival and how long after the one before it comes. -/
structure TimedArrival where
  after : Nat
  arrival : Arrival

/-- What happens until an arrival. -/
def TimedArrival.events (a : TimedArrival) : List ReaderEvent := [.pass a.after, .arrive a.arrival]

/-- What happens as these arrivals come. -/
def timeline (as : List TimedArrival) : List ReaderEvent := as.flatMap TimedArrival.events

/-- The events of some time, and then a cancellation. What happens at that very time happens
before. -/
def cancelledAfter : Nat → List ReaderEvent → List ReaderEvent
  | left, [] => [.pass left, .cancel]
  | left, .pass time :: es =>
    if left < time then [.pass left, .cancel] else .pass time :: cancelledAfter (left - time) es
  | left, e :: es => e :: cancelledAfter left es

end ResumableUpload.Channel
