import ResumableUpload.Settings.Basic
import ResumableUpload.Toml.Document

/-!
# The settings file

Settings are kept in a file in TOML, one line for each. A file that is missing or no well-formed
TOML, or has a value of the wrong kind for a setting, stands for the standard settings, so that a
broken file never blocks an upload. TOML has integers of 64 bits with a sign, and settings with
larger numbers cannot be saved.
-/

namespace ResumableUpload.Settings

/-- Why a settings file could not be used. -/
inductive FileError
  /-- The file is not in UTF-8. -/
  | notText
  /-- A number is too large to be written. -/
  | outOfRange
  /-- There is no directory for the file. -/
  | homeless
  deriving DecidableEq, Repr

/-- The wording of a file error. -/
def FileError.message : FileError → String
  | notText => "stream did not contain valid UTF-8"
  | outOfRange => "out-of-range value for u64 type"
  | homeless => "HOME is not set; pass --config"

/-! ### Reading -/

open Toml (Entries Value)

/-- The word in a value. -/
def wordOf? : Value → Option UInt64
  | .integer n => if 0 ≤ n then some (.ofNat n.toNat) else none
  | _ => none

/-- The flag in a value. -/
def flagOf? : Value → Option Bool
  | .flag b => some b
  | _ => none

/-- The text in a value. -/
def textOf? : Value → Option String
  | .text s => some s
  | _ => none

/-- A setting: its standard value if the key is absent, nothing if it holds something else than a
setting of that kind. -/
def setting? {α : Type} (es : Entries) (key : String) (read : Value → Option α) (standard : α) :
    Option α :=
  match es.get? key with
  | none => some standard
  | some (.value v) => read v
  | some _ => none

/-- The settings in the root table of a document; other keys are of no interest. -/
def ofEntries? (es : Entries) : Option Settings := do
  return {
    serverHost := ← setting? es "server_host" textOf? standard.serverHost
    secure := ← setting? es "secure" flagOf? standard.secure
    endpointPath := ← setting? es "endpoint_path" textOf? standard.endpointPath
    retryDelayMs := ← setting? es "retry_delay_ms" wordOf? standard.retryDelayMs
    keepaliveSecs := ← setting? es "keepalive_secs" wordOf? standard.keepaliveSecs
    idleTimeoutSecs :=
      ← setting? es "idle_timeout_secs" (fun v => (wordOf? v).map some) standard.idleTimeoutSecs }

/-- The settings that a document spells. -/
def ofToml? (text : String) : Option Settings := (Toml.parse text).bind ofEntries?

/-- The settings in a file, which may be missing. -/
def load : Option ByteArray → Except FileError Settings
  | none => .ok standard
  | some content =>
    match String.fromUTF8? content with
    | none => .error .notText
    | some text => .ok ((ofToml? text).getD standard)

/-! ### Writing -/

/-- A line of the file. -/
def line (key : String) (value : List Char) : List Char :=
  key.toList ++ " = ".toList ++ value ++ ['\n']

/-- The digits of a number, if it can be written. -/
def number? (n : UInt64) : Option (List Char) :=
  if n.toNat < 1 <<< 63 then some (Nat.toDigits 10 n.toNat) else none

/-- The lines of the file, if every number can be written. -/
def lines? (s : Settings) : Option (List (List Char)) := do
  let retry ← number? s.retryDelayMs
  let keepalive ← number? s.keepaliveSecs
  let idle ← match s.idleTimeoutSecs with
    | some n => (number? n).map fun ds => [line "idle_timeout_secs" ds]
    | none => some []
  return [line "server_host" (Toml.writeString s.serverHost.toList),
    line "secure" (if s.secure then "true".toList else "false".toList),
    line "endpoint_path" (Toml.writeString s.endpointPath.toList),
    line "retry_delay_ms" retry, line "keepalive_secs" keepalive] ++ idle

/-- The document that spells some settings. -/
def toToml? (s : Settings) : Option String := s.lines?.map fun ls => String.ofList ls.flatten

/-- Saves settings in a file, which may be missing: the outcome, and the file afterwards. -/
def save (s : Settings) (file : Option ByteArray) : Except FileError Unit × Option ByteArray :=
  match s.toToml? with
  | some text => (.ok (), some text.toUTF8)
  | none => (.error .outOfRange, file)

/-! ### Finding -/

/-- A path below a directory. Below the empty path it is the path itself. -/
def below (directory path : String) : String :=
  if directory.isEmpty || directory.toList.getLast? == some '/' then directory ++ path
  else directory ++ "/" ++ path

/-- The path of the settings file: in the directory for settings of all programs, or in its usual
place in the home directory if it is not set or empty. -/
def path? (configHome home : Option String) : Except FileError String :=
  let file := "incoming/upload.toml"
  match configHome, home with
  | some "", none | none, none => .error .homeless
  | some "", some home | none, some home => .ok (below (below home ".config") file)
  | some directory, _ => .ok (below directory file)

end ResumableUpload.Settings
