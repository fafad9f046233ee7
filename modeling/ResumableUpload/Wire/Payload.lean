import ResumableUpload.Json.Form
import ResumableUpload.Wire.Kind

/-!
# Payloads of control records

A `Payload` is what a control record carries besides its kind, with the fields and the machine
words they have on the wire. `Kind.form` is the JSON form of each kind's payload;
`Payload.fields` and `Payload.ofFields` go between a payload and its JSON fields.

Main statement: a payload is found again in its fields (`ofFields_fields`).
-/

namespace ResumableUpload.Wire

open Json (Field Fields Form IntRange Slot Value)

/-- The payload of a control record. -/
inductive Payload
  | uploadReq (id : String) (lengthBytes : Int64)
  | uploadConf (chunkSizeKB : UInt64) (filePos : Int64) (sendAhead : UInt32)
  | ack (ok : Bool)
  | chunkAck (chunkSize : Int64)
  | error (code : Int32) (msg : String)
  | cancel (reason : String)
  | pause (on : Bool)
  | allDone (success : Bool)
  deriving DecidableEq, Repr

/-- The JSON form of the payload of a kind. Only the fields of an error may be absent. -/
def Kind.form : Kind → Form
  | .uploadReq => ⟨"MsgUploadReq", [⟨"Id", .text, true⟩, ⟨"LengthBytes", .int .i64, true⟩]⟩
  | .uploadConf =>
    ⟨"MsgUploadConf", [⟨"ChunkSizeKB", .int .u64, true⟩, ⟨"FilePos", .int .i64, true⟩,
      ⟨"SendAhead", .int .u32, true⟩]⟩
  | .ack => ⟨"MsgAck", [⟨"Ack", .flag, true⟩]⟩
  | .chunkAck => ⟨"MsgChunkAck", [⟨"ChunkSize", .int .i64, true⟩]⟩
  | .error => ⟨"MsgError", [⟨"ErrorCode", .int .i32, false⟩, ⟨"Msg", .text, false⟩]⟩
  | .cancel => ⟨"MsgCancel", [⟨"Reason", .text, true⟩]⟩
  | .pause => ⟨"MsgPause", [⟨"Pause", .flag, true⟩]⟩
  | .allDone => ⟨"MsgAllDone", [⟨"Success", .flag, true⟩]⟩

namespace Payload

/-- The kind of a payload. -/
def kind : Payload → Kind
  | uploadReq .. => .uploadReq
  | uploadConf .. => .uploadConf
  | ack .. => .ack
  | chunkAck .. => .chunkAck
  | error .. => .error
  | cancel .. => .cancel
  | pause .. => .pause
  | allDone .. => .allDone

/-- The JSON fields of a payload, in the order of its form. -/
def fields : Payload → Fields
  | uploadReq id lengthBytes => [("Id", .text id), ("LengthBytes", .int lengthBytes.toInt)]
  | uploadConf chunkSizeKB filePos sendAhead =>
    [("ChunkSizeKB", .int chunkSizeKB.toNat), ("FilePos", .int filePos.toInt),
      ("SendAhead", .int sendAhead.toNat)]
  | ack ok => [("Ack", .flag ok)]
  | chunkAck chunkSize => [("ChunkSize", .int chunkSize.toInt)]
  | error code msg => [("ErrorCode", .int code.toInt), ("Msg", .text msg)]
  | cancel reason => [("Reason", .text reason)]
  | pause on => [("Pause", .flag on)]
  | allDone success => [("Success", .flag success)]

/-- The payload of a kind with these JSON fields; an absent number is zero, an absent text empty. -/
def ofFields (k : Kind) (f : Fields) : Payload :=
  match k with
  | .uploadReq => uploadReq (f.text "Id") (.ofInt (f.int "LengthBytes"))
  | .uploadConf =>
    uploadConf (.ofNat (f.int "ChunkSizeKB").toNat) (.ofInt (f.int "FilePos"))
      (.ofNat (f.int "SendAhead").toNat)
  | .ack => ack (f.flag "Ack")
  | .chunkAck => chunkAck (.ofInt (f.int "ChunkSize"))
  | .error => error (.ofInt (f.int "ErrorCode")) (f.text "Msg")
  | .cancel => cancel (f.text "Reason")
  | .pause => pause (f.flag "Pause")
  | .allDone => allDone (f.flag "Success")

theorem ofFields_fields (p : Payload) : ofFields p.kind p.fields = p := by
  cases p <;> simp [ofFields, kind, fields, Fields.text, Fields.int, Fields.flag, Fields.get?,
    List.lookup_cons]

/-- The payload of a kind that a JSON text spells. -/
def parse (k : Kind) (json : String) : Except Json.Fault Payload :=
  (k.form.parse json).map (ofFields k)

/-- The JSON text of a payload. -/
def render (p : Payload) : String := String.ofList (Json.renderFields p.fields)

end Payload

end ResumableUpload.Wire
