import ResumableUpload.Session.Snapshot

/-!
# Observers

A `Hooks` value says which notifications an observer asks for; `Hooks.heard` are those of a list of
notices that reach it.
-/

namespace ResumableUpload

/-- Which notifications an observer asks for. -/
structure Hooks where
  progress : Bool
  finished : Bool
  cancelled : Bool
  error : Bool
  deriving DecidableEq, Repr

namespace Hooks

/-- Every notification. -/
def every : Hooks := ⟨true, true, true, true⟩

/-- No notification. -/
def silent : Hooks := ⟨false, false, false, false⟩

/-- The observer asks for this notification. -/
def hears (h : Hooks) : Hook → Bool
  | .progress => h.progress
  | .finished => h.finished
  | .cancelled => h.cancelled
  | .error => h.error

/-- Also asks for this notification. -/
def add (h : Hooks) : Hook → Hooks
  | .progress => { h with progress := true }
  | .finished => { h with finished := true }
  | .cancelled => { h with cancelled := true }
  | .error => { h with error := true }

/-- The notices that reach the observer. -/
def heard (h : Hooks) (notices : List Notice) : List Notice := notices.filter (h.hears ·.hook)

/-- The hooks as shown in diagnostics. -/
def inspect (h : Hooks) : String :=
  s!"Callbacks \x7b on_progress: {h.progress}, on_finished: {h.finished}, " ++
    s!"on_cancelled: {h.cancelled}, on_error: {h.error} \x7d"

end Hooks

/-- The name of a notification. -/
def Hook.name : Hook → String
  | progress => "progress"
  | finished => "finished"
  | cancelled => "cancelled"
  | error => "error"

/-- The notification of a name. -/
def Hook.ofName? (s : String) : Option Hook :=
  [Hook.progress, .finished, .cancelled, .error].find? (·.name == s)

end ResumableUpload
