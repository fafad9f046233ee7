import ResumableUpload.Session.Basic
import ResumableUpload.Terminal.Command

/-!
# Lines of a relay

A relay is a program that holds the channel to the server and exchanges lines with an uploader:
each effect on the channel is a line from the uploader, each event on it a line to the uploader.
The commands of the caller come as lines among the events.
-/

namespace ResumableUpload.Terminal

/-- What a line to the uploader says. -/
inductive Heard
  | opened
  | closed
  /-- A text frame arrived. -/
  | frame (text : String)
  | command (c : Command)
  | nothing
  | unknown (e : UnknownPauseMode)
  deriving DecidableEq, Repr

/-- Reads a line to the uploader. -/
def Heard.of (line : String) : Heard :=
  match Text.trim line.toList with
  | [] => nothing
  | '<' :: text => frame (String.ofList text)
  | cs =>
    if cs = "opened".toList then opened
    else if cs = "closed".toList then closed
    else
      match Command.parse line with
      | .ok c => command c
      | .error e => unknown e

/-- A hexadecimal digit. -/
def hexDigit (n : Nat) : Char := if n < 10 then Char.ofNat (48 + n) else Char.ofNat (87 + n)

/-- The hexadecimal digits of bytes. -/
def hexText (data : ByteArray) : String :=
  String.ofList (data.toList.flatMap fun b => [hexDigit (b.toNat / 16), hexDigit (b.toNat % 16)])

/-- The line from the uploader for an effect on the channel. A record that cannot be encoded has
none. -/
def line? : Effect → Option String
  | .openChannel conn => some s!"open {conn.number}"
  | .closeChannel conn => some s!"close {conn.number}"
  | .sendRecord conn record =>
    match record.encode with
    | .ok text => some s!"text {conn.number} {text}"
    | .error _ => none
  | .sendChunk conn data => some s!"binary {conn.number} {hexText data}"
  | _ => none

end ResumableUpload.Terminal
