import ResumableUpload.Text.Quoted

/-!
# Phases of an upload and ways to pause it

A session is in one `Phase` at a time. A `PauseMode` says how the caller wants the pause flag to
change; `PauseMode.parse` reads the word typed for it.
-/

namespace ResumableUpload

/-- Where an upload stands. -/
inductive Phase
  /-- Created and not started yet. -/
  | notStarted
  /-- A channel is being opened, or will be when the retry timer expires. -/
  | connecting
  /-- The channel is open and the server has not announced its parameters yet. -/
  | handshaking
  /-- Chunks are sent and acknowledgements collected. -/
  | transferring
  /-- Every byte is acknowledged and the server processes the file. -/
  | awaitingCompletion
  /-- Paused by the caller, without a channel. -/
  | paused
  /-- A cancellation was sent and is not confirmed yet. -/
  | cancelling
  | cancelled
  | finished
  | errored
  deriving DecidableEq, Repr

namespace Phase

/-- All phases. -/
def all : List Phase :=
  [notStarted, connecting, handshaking, transferring, awaitingCompletion, paused, cancelling,
    cancelled, finished, errored]

/-- No event leaves this phase. -/
def isTerminal : Phase → Bool
  | finished | cancelled | errored => true
  | _ => false

/-- The name of a phase. -/
def name : Phase → String
  | notStarted => "NotStarted"
  | connecting => "Connecting"
  | handshaking => "Handshaking"
  | transferring => "Transferring"
  | awaitingCompletion => "AwaitingCompletion"
  | paused => "Paused"
  | cancelling => "Cancelling"
  | cancelled => "Cancelled"
  | finished => "Finished"
  | errored => "Errored"

/-- The phase of a name. -/
def ofName? (s : String) : Option Phase := all.find? (·.name == s)

/-- The wording of a phase in status lines. -/
def description : Phase → String
  | notStarted => "not yet started"
  | connecting => "connecting to upload server"
  | handshaking => "upload protocol handshake"
  | transferring => "transferring file chunks to upload server"
  | awaitingCompletion => "processing file on server"
  | paused => "paused"
  | cancelling => "cancelling"
  | cancelled => "cancelled"
  | finished => "all done"
  | errored => "failed"

end Phase

/-- How the pause flag should change. -/
inductive PauseMode
  | pause
  | unpause
  | toggle
  deriving DecidableEq, Repr

/-- A word that names no pause mode. -/
structure UnknownPauseMode where
  word : String
  deriving DecidableEq, Repr

/-- The wording of an unknown pause mode. -/
def UnknownPauseMode.message (e : UnknownPauseMode) : String :=
  s!"unknown pause mode: {Text.quote e.word} (expected pause, unpause or toggle)"

namespace PauseMode

/-- The flag that a mode asks for. -/
def resolve : PauseMode → Bool → Bool
  | pause, _ => true
  | unpause, _ => false
  | toggle, paused => !paused

/-- The name of a mode. -/
def name : PauseMode → String
  | pause => "Pause"
  | unpause => "Unpause"
  | toggle => "Toggle"

/-- Reads the word for a mode. -/
def parse : String → Except UnknownPauseMode PauseMode
  | "pause" => .ok pause
  | "unpause" => .ok unpause
  | "toggle" => .ok toggle
  | word => .error ⟨word⟩

end PauseMode

end ResumableUpload
