import ResumableUpload.Wire.Envelope

/-!
# Records of the upload channel

`ClientRecord` and `ServerRecord` are what the two sides say to each other. Both are written into
the JSON text of an envelope by `encode` and read back by `decode`, which refuses records that are
malformed, that travel the other way, or with which no upload could make progress.
-/

namespace ResumableUpload.Wire

open Json (Fault)

/-- The transfer parameters announced by the server, in bytes. -/
structure UploadParams where
  /-- Bytes per chunk. -/
  chunkSize : UInt64
  /-- How much of the file the server already holds. -/
  resumeOffset : UInt64
  /-- The most chunks that may be sent ahead of their acknowledgements. -/
  sendAhead : UInt32
  deriving DecidableEq, Repr

/-- A record sent by the client. -/
inductive ClientRecord
  | uploadRequest (id : String) (totalBytes : UInt64)
  | ack
  | pause
  | cancel (reason : String)
  deriving DecidableEq, Repr

/-- A record sent by the server. -/
inductive ServerRecord
  | uploadConfig (params : UploadParams)
  | error (code : Int32) (message : String)
  | chunkAck (size : UInt64)
  | allDone
  | cancel (reason : String)
  /-- The server confirms a cancellation. -/
  | cancelAck
  deriving DecidableEq, Repr

/-- Why a record cannot be written or read. -/
inductive RecordError
  | malformed (fault : Fault)
  | missingPayload (kind : Kind)
  | wrongDirection (kind : Kind)
  /-- A parameter with which no upload could make progress. -/
  | zeroParameter (name : String)
  | negative (name : String) (n : Int64)
  | outOfRange (name : String) (n : UInt64)
  /-- An acknowledgement that says no. -/
  | refused
  | tooLarge (bytes : Nat)
  deriving DecidableEq, Repr

/-- The wording of a record error. What the JSON library says of a fault ends with its place in the
text, as worded by `place`. -/
def RecordError.message (place : Fault → String) : RecordError → String
  | malformed fault => s!"malformed record: {fault.message}{place fault}"
  | missingPayload kind => s!"{kind.wireName} record without MsgData"
  | wrongDirection kind => s!"{kind.wireName} is not expected in this direction"
  | zeroParameter name => s!"invalid upload config: {name} is zero"
  | negative name n => s!"{name} must not be negative (got {n.toInt})"
  | outOfRange name n => s!"{name} out of range ({n.toNat})"
  | refused => "negative acknowledgement"
  | tooLarge bytes => s!"record too large ({bytes} bytes)"

/-- The most bytes that a record's text may have. -/
def maxRecordBytes : Nat := 1048576

/-- Bytes per unit in which the server announces the size of a chunk. -/
def chunkUnit : UInt64 := 1024

/-- A count of bytes as the signed word it is on the wire. -/
def toSigned (name : String) (n : UInt64) : Except RecordError Int64 :=
  if n.toNat < 1 <<< 63 then .ok (.ofNat n.toNat) else .error (.outOfRange name n)

/-- A signed word as a count of bytes. -/
def toCount (name : String) (n : Int64) : Except RecordError UInt64 :=
  if 0 ≤ n.toInt then .ok (.ofNat n.toInt.toNat) else .error (.negative name n)

/-- Reads the envelope of a text that is not too large. -/
def openEnvelope (text : String) : Except RecordError Envelope :=
  if maxRecordBytes < text.utf8ByteSize then .error (.tooLarge text.utf8ByteSize)
  else
    match Envelope.parse text with
    | .error fault => .error (.malformed fault)
    | .ok e => .ok e

/-- Reads the payload that an envelope must have. -/
def openPayload (e : Envelope) : Except RecordError Payload :=
  match e.payloadAs e.kind with
  | .error fault => .error (.malformed fault)
  | .ok none => .error (.missingPayload e.kind)
  | .ok (some p) => .ok p

namespace ClientRecord

/-- The payload of a record. -/
def toPayload : ClientRecord → Except RecordError Payload
  | uploadRequest id totalBytes =>
    (toSigned "LengthBytes" totalBytes).map fun n => .uploadReq id n
  | ack => .ok (.ack true)
  | pause => .ok (.pause true)
  | cancel reason => .ok (.cancel reason)

/-- The record with this payload. -/
def ofPayload : Payload → Except RecordError ClientRecord
  | .uploadReq id n => (toCount "LengthBytes" n).map fun total => uploadRequest id total
  | .ack ok => if ok then .ok ack else .error .refused
  | .pause _ => .ok pause
  | .cancel reason => .ok (cancel reason)
  | p => .error (.wrongDirection p.kind)

/-- A client may send records of this kind. -/
def speaks : Kind → Bool
  | .uploadReq | .ack | .pause | .cancel => true
  | _ => false

/-- The kind under which a record travels. -/
def kind : ClientRecord → Kind
  | uploadRequest .. => .uploadReq
  | ack => .ack
  | pause => .pause
  | cancel .. => .cancel

/-- The text of a record. -/
def encode (r : ClientRecord) : Except RecordError String :=
  r.toPayload.map fun p => (Envelope.wrap p).render

/-- The record that a text spells. -/
def decode (text : String) : Except RecordError ClientRecord := do
  let e ← openEnvelope text
  if speaks e.kind then ofPayload (← openPayload e) else .error (.wrongDirection e.kind)

end ClientRecord

namespace ServerRecord

/-- The name of a record in reports. -/
def label : ServerRecord → String
  | uploadConfig .. => "upload-config"
  | error .. => "error"
  | chunkAck .. => "chunk-ack"
  | allDone => "all-done"
  | cancel .. => "cancel"
  | cancelAck => "cancel-ack"

/-- The payload of a record. -/
def toPayload : ServerRecord → Except RecordError Payload
  | uploadConfig params =>
    (toSigned "FilePos" params.resumeOffset).map fun pos =>
      .uploadConf (params.chunkSize / chunkUnit) pos params.sendAhead
  | error code message => .ok (.error code message)
  | chunkAck size => (toSigned "ChunkSize" size).map .chunkAck
  | allDone => .ok (.allDone true)
  | cancel reason => .ok (.cancel reason)
  | cancelAck => .ok (.ack true)

/-- The transfer parameters that a payload announces, if an upload can make progress with them. -/
def params (chunkSizeKB : UInt64) (filePos : Int64) (sendAhead : UInt32) :
    Except RecordError UploadParams :=
  if chunkSizeKB = 0 then .error (.zeroParameter "ChunkSizeKB")
  else if sendAhead = 0 then .error (.zeroParameter "SendAhead")
  else
    match toCount "FilePos" filePos with
    | .error e => .error e
    | .ok offset =>
      if chunkSizeKB.toNat * chunkUnit.toNat < UInt64.size then
        .ok ⟨chunkSizeKB * chunkUnit, offset, sendAhead⟩
      else .error (.outOfRange "ChunkSizeKB" chunkSizeKB)

/-- The record with this payload. -/
def ofPayload : Payload → Except RecordError ServerRecord
  | .uploadConf kb pos ahead => (params kb pos ahead).map uploadConfig
  | .error code msg => .ok (error code msg)
  | .chunkAck n => (toCount "ChunkSize" n).map chunkAck
  | .allDone _ => .ok allDone
  | .cancel reason => .ok (cancel reason)
  | .ack ok => if ok then .ok cancelAck else .error .refused
  | p => .error (.wrongDirection p.kind)

/-- A server may send records of this kind. -/
def speaks : Kind → Bool
  | .uploadConf | .error | .chunkAck | .allDone | .cancel | .ack => true
  | _ => false

/-- The text of a record. -/
def encode (r : ServerRecord) : Except RecordError String :=
  r.toPayload.map fun p => (Envelope.wrap p).render

/-- The record that a text spells. -/
def decode (text : String) : Except RecordError ServerRecord := do
  let e ← openEnvelope text
  if speaks e.kind then ofPayload (← openPayload e) else .error (.wrongDirection e.kind)

end ServerRecord

end ResumableUpload.Wire
