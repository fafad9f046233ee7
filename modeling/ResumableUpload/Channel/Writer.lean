import ResumableUpload.Channel.Frame

/-!
# Writing frames

A `Writer` takes frames from a queue to a sink, in order. It closes the channel once the queue is
empty and either nobody can add to it any more or the connection is cancelled; so what was queued
before is still written. A frame that cannot be written ends it at once, cancels the connection,
and leaves the channel without a close frame.
-/

namespace ResumableUpload.Channel

/-- Whether a writer is still at work. -/
inductive WriterState
  | running
  /-- The close frame was tried, with or without success. -/
  | closed
  /-- A frame of the queue could not be written. -/
  | broken
  deriving DecidableEq, Repr

/-- A writer with its queue and what it has written. -/
structure Writer where
  queue : List Frame
  /-- Nobody can queue another frame. -/
  abandoned : Bool
  /-- The connection is cancelled. -/
  cancelled : Bool
  state : WriterState
  /-- The frames written, in order. -/
  written : List Frame
  /-- The number of frames tried on the sink. -/
  tried : Nat

/-- What can happen to a writer. -/
inductive WriterEvent
  | enqueue (f : Frame)
  /-- All who could queue frames are gone. -/
  | abandon
  | cancel
  /-- The writer gets to write one frame, if there is one to write. -/
  | turn

namespace Writer

/-- A writer with an empty queue. -/
def fresh : Writer := ⟨[], false, false, .running, [], 0⟩

variable (fails : Nat → Bool)

/-- Writes a frame of the queue, or breaks. -/
def writeQueued (w : Writer) (f : Frame) (rest : List Frame) : Writer :=
  if fails w.tried then
    { w with queue := rest, state := .broken, cancelled := true, tried := w.tried + 1 }
  else { w with queue := rest, written := w.written ++ [f], tried := w.tried + 1 }

/-- Tries the close frame. -/
def writeClose (w : Writer) : Writer :=
  let written := if fails w.tried then w.written else w.written ++ [.close]
  { w with written := written, state := .closed, tried := w.tried + 1 }

/-- Writes the next frame of the queue; when there is none, closes or waits. -/
def turn (w : Writer) : Writer :=
  match w.state with
  | .running =>
    match w.queue with
    | f :: rest => w.writeQueued fails f rest
    | [] => if w.abandoned || w.cancelled then w.writeClose fails else w
  | _ => w

/-- The writer after an event; write `k` of the sink fails if `fails k`. -/
def step (w : Writer) : WriterEvent → Writer
  | .enqueue f => if w.abandoned then w else { w with queue := w.queue ++ [f] }
  | .abandon => { w with abandoned := true }
  | .cancel => { w with cancelled := true }
  | .turn => w.turn fails

/-- The writer after events one after the other. -/
def run (w : Writer) (events : List WriterEvent) : Writer := events.foldl (step fails) w

/-- The writer after it had time to write all that is queued and to close. -/
def settle (w : Writer) : Writer := w.run fails (List.replicate (w.queue.length + 1) .turn)

variable (w : Writer) (e : WriterEvent) (es es' : List WriterEvent)

@[simp] theorem run_nil : w.run fails [] = w := rfl

@[simp] theorem run_cons : w.run fails (e :: es) = (w.step fails e).run fails es := rfl

theorem run_append : w.run fails (es ++ es') = (w.run fails es).run fails es' :=
  List.foldl_append

end Writer

end ResumableUpload.Channel
