import ResumableUpload.Settings.Basic

/-!
# The command line

A command line names an upload and a file, among options in any order. Words are read one after
the other. The value of an option or a name is only taken up when the next one begins or the line
ends; so an unknown option is refused before a value that stands in front of it.
-/

namespace ResumableUpload.Terminal

/-- A command line that was understood. -/
structure Arguments where
  uploadId : String
  file : String
  /-- The settings file. -/
  config : Option String
  host : Option String
  retryDelayMs : Option UInt64
  secure : Bool
  paused : Bool
  saveConfig : Bool
  deriving DecidableEq, Repr

/-- Why a command line was not understood, or what it asks for instead of an upload. -/
inductive Refusal
  | missingRequired
  | unknownArgument
  /-- A value is missing or empty. -/
  | invalidValue
  /-- A value is not of the right kind. -/
  | valueValidation
  /-- An option stands twice. -/
  | conflict
  /-- A value was given where there is none. -/
  | tooManyValues
  | help
  | version
  deriving DecidableEq, Repr

/-- What takes a value. -/
inductive Slot
  | uploadId
  | file
  | config
  | host
  | retryDelayMs
  deriving DecidableEq, Repr

/-- What is there or not. -/
inductive Switch
  | secure
  | paused
  | saveConfig
  deriving DecidableEq, Repr

/-- What the name of an option stands for. -/
inductive Meaning
  | slot (s : Slot)
  | switch (s : Switch)
  | asks (r : Refusal)
  deriving DecidableEq, Repr

/-- The meaning of the name of an option, without its dashes. -/
def meaning? : String → Option Meaning
  | "config" => some (.slot .config)
  | "host" => some (.slot .host)
  | "retry-delay-ms" => some (.slot .retryDelayMs)
  | "secure" => some (.switch .secure)
  | "paused" => some (.switch .paused)
  | "save-config" => some (.switch .saveConfig)
  | "help" => some (.asks .help)
  | "version" => some (.asks .version)
  | _ => none

/-- The meaning of the letter of an option. -/
def letter? : Char → Option Meaning
  | 'c' => some (.slot .config)
  | 'h' => some (.asks .help)
  | 'V' => some (.asks .version)
  | _ => none

/-! ### Words -/

/-- What a word looks like. -/
inductive Word
  /-- Two dashes: no options follow. -/
  | escape
  /-- Two dashes and a name, with a value after an equals sign. -/
  | long (name : String) (value : Option String)
  /-- A dash and letters. -/
  | short (letter : Char) (rest : List Char)
  | plain (s : String)
  deriving DecidableEq, Repr

/-- Looks at a word. -/
def Word.of (s : String) : Word :=
  match s.toList with
  | ['-', '-'] => escape
  | '-' :: '-' :: cs =>
    let name := String.ofList (cs.takeWhile (· != '='))
    match cs.dropWhile (· != '=') with
    | _ :: value => long name (some (String.ofList value))
    | [] => long name none
  | '-' :: c :: cs => short c cs
  | _ => plain s

/-- A word of 64 bits in decimal digits, with an optional plus sign. -/
def readWord? (s : String) : Option UInt64 :=
  let ds := match s.toList with
    | '+' :: ds => ds
    | ds => ds
  if ds.isEmpty || !ds.all Char.isDigit then none
  else
    let n := ds.foldl (fun n d => n * 10 + (d.toNat - 48)) 0
    if n < UInt64.size then some (.ofNat n) else none

/-! ### Reading -/

/-- What has been read of a command line. -/
structure Reading where
  uploadId : Option String
  file : Option String
  config : Option String
  host : Option String
  retryDelayMs : Option UInt64
  secure : Bool
  paused : Bool
  saveConfig : Bool
  /-- What is to be taken up next, with its value once that is known. -/
  pending : Option (Slot × Option String)
  /-- The names that are still to come. -/
  names : List Slot
  /-- Options may still follow. -/
  optionsFollow : Bool
  deriving DecidableEq, Repr

namespace Reading

/-- Nothing has been read. -/
def start : Reading where
  uploadId := none
  file := none
  config := none
  host := none
  retryDelayMs := none
  secure := false
  paused := false
  saveConfig := false
  pending := none
  names := [.uploadId, .file]
  optionsFollow := true

/-- A slot has its value. -/
def has (r : Reading) : Slot → Bool
  | .uploadId => r.uploadId.isSome
  | .file => r.file.isSome
  | .config => r.config.isSome
  | .host => r.host.isSome
  | .retryDelayMs => r.retryDelayMs.isSome

/-- Gives a slot its value. Paths may not be empty. -/
def store (r : Reading) (slot : Slot) (value : String) : Except Refusal Reading :=
  if r.has slot then .error .conflict
  else
    match slot with
    | .uploadId => .ok { r with uploadId := some value }
    | .host => .ok { r with host := some value }
    | .file => if value.isEmpty then .error .invalidValue else .ok { r with file := some value }
    | .config => if value.isEmpty then .error .invalidValue else .ok { r with config := some value }
    | .retryDelayMs =>
      match readWord? value with
      | some n => .ok { r with retryDelayMs := some n }
      | none => .error .valueValidation

/-- Takes up what is pending. -/
def settle (r : Reading) : Except Refusal Reading :=
  match r.pending with
  | none => .ok r
  | some (_, none) => .error .invalidValue
  | some (slot, some value) => { r with pending := none }.store slot value

/-- Turns a switch on, once. -/
def turnOn (r : Reading) : Switch → Except Refusal Reading
  | .secure => if r.secure then .error .conflict else .ok { r with secure := true }
  | .paused => if r.paused then .error .conflict else .ok { r with paused := true }
  | .saveConfig => if r.saveConfig then .error .conflict else .ok { r with saveConfig := true }

/-- Reads an option with the value that was written onto it. -/
def option (r : Reading) (m : Meaning) (value : Option String) : Except Refusal Reading :=
  match m, value with
  | .slot slot, some value => do (← r.settle).store slot value
  | .slot slot, none => do return { ← r.settle with pending := some (slot, none) }
  | .switch s, none => do (← r.settle).turnOn s
  | .asks what, none => do
    let _ ← r.settle
    .error what
  | _, some _ => .error .tooManyValues

/-- The value that follows the letter of an option. An equals sign in between is no part of it. -/
def attached? : List Char → Option String
  | [] => none
  | '=' :: value => some (String.ofList value)
  | value => some (String.ofList value)

/-- Reads an option of one letter. What follows a letter that takes no value are further letters,
which come too late, since such a letter ends the reading. -/
def shortOption (r : Reading) (m : Meaning) (rest : List Char) : Except Refusal Reading :=
  match m with
  | .slot _ => r.option m (attached? rest)
  | m => r.option m none

/-- Reads a word that is no option: the value of the last option if that has none, else a name. -/
def value (r : Reading) (s : String) : Except Refusal Reading :=
  match r.pending, r.optionsFollow with
  | some (slot, none), true => .ok { r with pending := some (slot, some s) }
  | _, _ =>
    match r.names with
    | [] => .error .unknownArgument
    | slot :: names => do return { ← r.settle with pending := some (slot, some s), names }

/-- Reads a word. -/
def word (r : Reading) (s : String) : Except Refusal Reading :=
  if r.optionsFollow then
    match Word.of s with
    | .escape => .ok { r with optionsFollow := false }
    | .long name value =>
      match meaning? name with
      | some m => r.option m value
      | none => .error .unknownArgument
    | .short c rest =>
      match letter? c with
      | some m => r.shortOption m rest
      | none => .error .unknownArgument
    | .plain s => r.value s
  else r.value s

/-- Ends the line. -/
def finish (r : Reading) : Except Refusal Arguments := do
  let r ← r.settle
  match r.uploadId, r.file with
  | some uploadId, some file =>
    return {
      uploadId, file
      config := r.config
      host := r.host
      retryDelayMs := r.retryDelayMs
      secure := r.secure
      paused := r.paused
      saveConfig := r.saveConfig }
  | _, _ => .error .missingRequired

end Reading

namespace Arguments

/-- Reads a command line, without the name of the program. -/
def parse (words : List String) : Except Refusal Arguments := do
  (← words.foldlM Reading.word .start).finish

/-- Settings as the command line overrides them. -/
def override (a : Arguments) (s : Settings) : Settings :=
  { s with
    serverHost := a.host.getD s.serverHost
    secure := a.secure || s.secure
    retryDelayMs := a.retryDelayMs.getD s.retryDelayMs }

end Arguments

end ResumableUpload.Terminal
