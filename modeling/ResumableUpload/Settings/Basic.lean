/-!
# Settings of an uploader

Where and how an uploader connects.
-/

namespace ResumableUpload

/-- The settings of an uploader. -/
structure Settings where
  /-- The host of the upload server, with or without a socket number after a colon. -/
  serverHost : String
  /-- Connect over an encrypted channel. -/
  secure : Bool
  /-- The path of the upload endpoint. -/
  endpointPath : String
  /-- Milliseconds from the loss of a connection to the next attempt. -/
  retryDelayMs : UInt64
  /-- Seconds between two pings, zero for none. -/
  keepaliveSecs : UInt64
  /-- Seconds of silence after which a connection is closed. -/
  idleTimeoutSecs : Option UInt64
  deriving DecidableEq, Repr

namespace Settings

/-- The settings of which nothing is said. -/
def standard : Settings where
  serverHost := "localhost:4000"
  secure := false
  endpointPath := "/frontend/upload_ws"
  retryDelayMs := 20
  keepaliveSecs := 5
  idleTimeoutSecs := none

/-- The standard settings for a host. -/
def forHost (host : String) : Settings := { standard with serverHost := host }

/-- The path of a request to the upload endpoint. Slashes in front of the path count as one. -/
def requestPath (s : Settings) : String :=
  String.ofList ('/' :: s.endpointPath.toList.dropWhile (· == '/'))

/-- The address of the upload endpoint. -/
def endpointUrl (s : Settings) : String :=
  let scheme := if s.secure then "wss" else "ws"
  s!"{scheme}://{s.serverHost}{s.requestPath}"

/-- The character may stand in the path of an address. -/
def isPathChar (c : Char) : Bool :=
  '!' ≤ c && !(['#', '<', '>', '?', '`'].contains c)

/-- The character may stand in the query of an address. -/
def isQueryChar (c : Char) : Bool :=
  '!' ≤ c && !(['"', '#', '<', '>'].contains c)

/-- What a request to the upload endpoint asks for: its path and its query. A fragment after `#` is
dropped. There is none if another character would have to be spelled by its number. -/
def requestTarget? (s : Settings) : Option String :=
  let target := s.requestPath.toList.takeWhile (· != '#')
  let path := target.takeWhile (· != '?')
  let query := (target.dropWhile (· != '?')).drop 1
  if path.all isPathChar && query.all isQueryChar then some (String.ofList target) else none

/-- Milliseconds from the loss of a connection to the next attempt. -/
def retryDelay (s : Settings) : Nat := s.retryDelayMs.toNat

/-- Seconds between two pings, if there are to be any. -/
def keepalive? (s : Settings) : Option Nat :=
  if s.keepaliveSecs = 0 then none else some s.keepaliveSecs.toNat

/-- Seconds of silence after which a connection is closed, if it is to be. -/
def idleTimeout? (s : Settings) : Option Nat := s.idleTimeoutSecs.map UInt64.toNat

end Settings

end ResumableUpload
