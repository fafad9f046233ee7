import ResumableUpload.Wire.Payload

/-!
# The envelope of a control record

An `Envelope` names the kind of a record and holds its payload as the JSON text it was spelled
with, so that the payload is read only once the kind is known.
-/

namespace ResumableUpload.Wire

open Json (Fault Form)

/-- A record whose payload has not been read. -/
structure Envelope where
  kind : Kind
  /-- The JSON text of the payload, if there is one. -/
  data : Option String
  deriving DecidableEq, Repr

namespace Envelope

/-- The JSON form of an envelope. -/
def form : Form :=
  ⟨"Message", [⟨"MsgType", .tag Kind.wireNames, true⟩, ⟨"MsgData", .rawOrNull, false⟩]⟩

/-- The envelope with these JSON fields. -/
def ofFields (f : Json.Fields) : Envelope :=
  ⟨(Kind.ofWireName? (f.text "MsgType")).getD .uploadReq, f.raw? "MsgData"⟩

/-- The envelope that a text spells. -/
def parse (text : String) : Except Fault Envelope := (form.parse text).map ofFields

/-- The text of an envelope, its payload spelled as it was. -/
def render (e : Envelope) : String :=
  String.ofList (Json.renderFields
    [("MsgType", .text e.kind.wireName), ("MsgData", (e.data.map .raw).getD .null)])

/-- The envelope of a payload. -/
def wrap (p : Payload) : Envelope := ⟨p.kind, some p.render⟩

/-- The payload read as one of kind `k`, if there is one. -/
def payloadAs (k : Kind) (e : Envelope) : Except Fault (Option Payload) :=
  match e.data with
  | none => .ok none
  | some json => (Payload.parse k json).map some

end Envelope

/-- The kind that a JSON text spells. -/
def Kind.parse (text : String) : Except Fault Kind :=
  (Json.parseTag Kind.wireNames text).map fun name => (Kind.ofWireName? name).getD .uploadReq

/-- The JSON text of a kind. -/
def Kind.render (k : Kind) : String := String.ofList (Json.quoteText k.wireName.toList)

end ResumableUpload.Wire
