import ResumableUpload.Observer

/-!
# The progress log

A `ProgressLog` turns notices into log entries: one for every whole percent or phase reached, and
one for each outcome.
-/

namespace ResumableUpload.Terminal

/-- How urgent a log entry is. -/
inductive Level
  | info
  | warn
  | error
  deriving DecidableEq, Repr

/-- The name of a level. -/
def Level.name : Level → String
  | info => "INFO"
  | warn => "WARN"
  | error => "ERROR"

/-- A log entry. -/
inductive LogEntry
  | progress (percent acked total : Nat) (status : String)
  | finished (bytes : Nat)
  | cancelled (reason : String) (acked : Nat)
  | failed (code : Int) (message : String)
  deriving DecidableEq, Repr

namespace LogEntry

/-- The level of an entry. -/
def level : LogEntry → Level
  | progress .. | finished .. => .info
  | cancelled .. => .warn
  | failed .. => .error

/-- A number, right-aligned in three columns. -/
def inThree (n : Nat) : String :=
  let ds := (toString n).toList
  String.ofList (List.replicate (3 - ds.length) ' ' ++ ds)

/-- The text of an entry. -/
def message : LogEntry → String
  | progress percent acked total status =>
    s!"{inThree percent}% {acked}/{total} bytes acknowledged ({status})"
  | finished _ => "upload finished"
  | cancelled .. => "upload cancelled"
  | failed _ message => s!"upload error: {message}"

end LogEntry

/-- What was logged last. -/
structure ProgressLog where
  percent : Option Nat
  phase : Option Phase
  deriving DecidableEq, Repr

namespace ProgressLog

/-- Nothing has been logged. -/
def blank : ProgressLog := ⟨none, none⟩

/-- The whole percents acknowledged. -/
def percentOf (s : Snapshot) : Nat := (s.fractionAcked * 100.0).toUInt64.toNat

/-- The entries for a notice. -/
def note (log : ProgressLog) (n : Notice) : List LogEntry × ProgressLog :=
  let s := n.snapshot
  match n.hook with
  | .progress =>
    let percent := percentOf s
    if log.percent = some percent ∧ log.phase = some s.phase then ([], log)
    else ([.progress percent s.acked s.total s.status], ⟨some percent, some s.phase⟩)
  | .finished => ([.finished s.total], log)
  | .cancelled => ([.cancelled (s.cancelReason.getD "unknown") s.acked], log)
  | .error => ((s.error.map fun e => .failed e.code e.message).toList, log)

/-- The entries for notices in turn. -/
def noteAll (log : ProgressLog) : List Notice → List LogEntry × ProgressLog
  | [] => ([], log)
  | n :: ns =>
    let (entries, log) := log.note n
    let (more, log) := log.noteAll ns
    (entries ++ more, log)

end ProgressLog

end ResumableUpload.Terminal
