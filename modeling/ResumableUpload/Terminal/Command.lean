import ResumableUpload.Session.Phase
import ResumableUpload.Text.Blank

/-!
# Commands typed while an upload runs

A line is a pause mode, or `cancel` in any case with an optional reason. What follows the first
space after a pause mode is not looked at.
-/

namespace ResumableUpload.Terminal

/-- A command for a running upload. -/
inductive Command
  | pause (mode : PauseMode)
  | cancel (reason : String)
  deriving DecidableEq, Repr

namespace Command

/-- The reason of a cancellation for which none was typed. -/
def defaultReason : String := "user abort"

/-- The text before the first space, and the text after it. -/
def splitWord (cs : List Char) : List Char × List Char :=
  (cs.takeWhile (· != ' '), (cs.dropWhile (· != ' ')).drop 1)

/-- Reads a line. -/
def parse (line : String) : Except UnknownPauseMode Command :=
  let (word, rest) := splitWord (Text.trim line.toList)
  if word.map Char.toLower = "cancel".toList then
    let reason := Text.trim rest
    .ok (cancel (if reason.isEmpty then defaultReason else String.ofList reason))
  else (PauseMode.parse (String.ofList word)).map pause

end Command

end ResumableUpload.Terminal
