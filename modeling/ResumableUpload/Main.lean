import ResumableUpload.Channel.Reader
import ResumableUpload.Settings.File
import ResumableUpload.Source.Memory
import ResumableUpload.Terminal.Arguments
import ResumableUpload.Terminal.ProgressLog
import ResumableUpload.Terminal.Relay
import ResumableUpload.Uploader.Basic

/-!
# The upload client

Uploads a file over a channel that a relay holds for it; see `Terminal.Relay` for the lines on
standard input and output. The log goes to standard error.
-/

namespace ResumableUpload.Terminal

/-- What the client holds while it runs. -/
structure Client where
  uploader : Uploader
  source : Source.Memory
  log : ProgressLog

/-- The content of a file, if there is one. -/
def readFile? (path : String) : IO (Option ByteArray) := do
  try return some (← IO.FS.readBinFile path)
  catch _ => return none

/-- Writes a log entry. -/
def writeEntry (e : LogEntry) : IO Unit := IO.eprintln s!"{e.level.name} {e.message}"

/-- Carries out an effect; what comes back at once is an input. -/
def Client.perform (c : Client) : Effect → IO (Option Input)
  | .readChunk read range => return some (.chunkRead read (c.source.read range))
  | .armRetry token delay => do
    IO.sleep (.ofNat delay)
    return some (.retryElapsed token)
  | e => do
    if let some line := line? e then
      IO.println line
      (← IO.getStdout).flush
    return none

/-- Deals with an input and all that comes back at once. -/
partial def Client.feed (c : Client) (i : Input) : IO Client := do
  let o := c.uploader.feed true i
  let (entries, log) := c.log.noteAll o.notices
  entries.forM writeEntry
  let mut c := { c with uploader := o.uploader, log }
  for e in o.done do
    if let some i ← c.perform e then
      c ← c.feed i
  return c

/-- The input that a line stands for, on the connection opened last. -/
def Client.input? (c : Client) (line : String) : Option Input :=
  let conn : ConnectionId := ⟨c.uploader.session.connections⟩
  match Heard.of line with
  | .opened => some (.channelOpened conn)
  | .closed => some (.channelClosed conn)
  | .frame text => (Channel.Arrival.frame (.text text)).input? .plain conn
  | .command (.pause mode) => some (.pause mode)
  | .command (.cancel reason) => some (.cancel reason)
  | .nothing | .unknown _ => none

/-- Deals with lines until the upload has ended or there are no more. -/
partial def Client.serve (c : Client) (input : IO.FS.Stream) : IO Client := do
  if c.uploader.stopped then return c
  let line ← input.getLine
  if line.isEmpty then return c
  if let .unknown e := Heard.of line then
    IO.eprintln s!"WARN {e.message}; expected pause, unpause, toggle or cancel [reason]"
  match c.input? line with
  | some i => (← c.feed i).serve input
  | none => c.serve input

/-- The wording of a refused command line. -/
def Refusal.message : Refusal → String
  | missingRequired => "an upload id and a file are required"
  | unknownArgument => "unexpected argument"
  | invalidValue => "a value is required"
  | valueValidation => "invalid number"
  | conflict => "an option was given twice"
  | tooManyValues => "unexpected value for an option"
  | help =>
    "Usage: incoming-upload [OPTIONS] <UPLOAD_ID> <FILE>\n\n" ++
    "  -c, --config <CONFIG>\n      --host <HOST>\n      --secure\n" ++
    "      --retry-delay-ms <RETRY_DELAY_MS>\n      --paused\n      --save-config\n" ++
    "  -h, --help\n  -V, --version"
  | version => "incoming-upload 0.1.0"

/-- Makes the directories in a path, if there are any. -/
def makeDirectories (path : String) : IO Unit := do
  let directories := (path.toList.reverse.dropWhile (· != '/')).drop 1
  unless directories.isEmpty do
    IO.FS.createDirAll (String.ofList directories.reverse)

/-- Saves settings where they were looked for. -/
def saveSettings (s : Settings) (path : String) (file : Option ByteArray) : IO Unit := do
  makeDirectories path
  match s.save file with
  | (.ok (), some content) =>
    IO.FS.writeBinFile path content
    IO.eprintln s!"INFO configuration saved to {path}"
  | (.ok (), none) => return
  | (.error e, _) => throw (.userError e.message)

/-- The path and the content of the settings file. -/
def findSettings (a : Arguments) : IO (String × Option ByteArray) := do
  match a.config with
  | some path => return (path, ← readFile? path)
  | none =>
    match Settings.path? (← IO.getEnv "XDG_CONFIG_HOME") (← IO.getEnv "HOME") with
    | .ok path => return (path, ← readFile? path)
    | .error e => throw (.userError e.message)

/-- Uploads a file as the command line says. -/
def upload (a : Arguments) : IO UInt32 := do
  let (path, file) ← findSettings a
  let settings ← match Settings.load file with
    | .ok s => pure (a.override s)
    | .error e => throw (.userError e.message)
  if a.saveConfig then saveSettings settings path file
  let some data ← readFile? a.file
    | throw (.userError (UploaderError.unopened (.system .notFound)).message)
  IO.eprintln s!"INFO starting upload of {a.file} to {settings.endpointUrl}"
  let session := Session.new a.uploadId (.ofNat data.size) settings.retryDelay
  let mut client : Client := ⟨.new session, ⟨data⟩, .blank⟩
  if a.paused then
    client ← client.feed (.pause .pause)
    IO.eprintln "INFO paused; type unpause to begin"
  client ← client.feed .start
  client ← client.serve (← IO.getStdin)
  return if client.uploader.session.phase = .finished then 0 else 1

end ResumableUpload.Terminal

open ResumableUpload.Terminal in
/-- Reads the command line and uploads. -/
def main (words : List String) : IO UInt32 := do
  match Arguments.parse words with
  | .ok a => upload a
  | .error .help =>
    IO.println (Refusal.message .help)
    return 0
  | .error .version =>
    IO.println (Refusal.message .version)
    return 0
  | .error e =>
    IO.eprintln s!"error: {e.message}"
    return 2
