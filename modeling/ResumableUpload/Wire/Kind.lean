/-!
# The kinds of control records

Every control record on the upload channel names its kind. `Kind.wireName` is that name, and
`Kind.ofWireName?` finds the kind of a name (`ofWireName?_wireName`).
-/

namespace ResumableUpload.Wire

/-- The kind of a control record. -/
inductive Kind
  /-- The client asks to begin or resume an upload. -/
  | uploadReq
  /-- The server accepts and announces the transfer parameters. -/
  | uploadConf
  /-- The client accepts the parameters, or the server confirms a cancellation. -/
  | ack
  /-- The server has stored one chunk. -/
  | chunkAck
  /-- The server reports a condition that ends the upload. -/
  | error
  /-- Either side gives the upload up. -/
  | cancel
  /-- The client is about to disconnect. -/
  | pause
  /-- The server has processed the whole file. -/
  | allDone
  deriving DecidableEq, Repr

namespace Kind

/-- All kinds. -/
def all : List Kind := [uploadReq, uploadConf, ack, chunkAck, error, cancel, pause, allDone]

/-- The short name of a kind. -/
def label : Kind → String
  | uploadReq => "UploadReq"
  | uploadConf => "UploadConf"
  | ack => "Ack"
  | chunkAck => "ChunkAck"
  | error => "Error"
  | cancel => "Cancel"
  | pause => "Pause"
  | allDone => "AllDone"

/-- The name of a kind on the wire. -/
def wireName : Kind → String
  | uploadReq => "MsgUploadReq"
  | uploadConf => "MsgUploadConf"
  | ack => "MsgAck"
  | chunkAck => "MsgChunkAck"
  | error => "MsgError"
  | cancel => "MsgCancel"
  | pause => "MsgPause"
  | allDone => "MsgAllDone"

/-- All names on the wire. -/
def wireNames : List String := all.map wireName

/-- The kind of a name on the wire. -/
def ofWireName? (name : String) : Option Kind := all.find? (·.wireName == name)

theorem mem_all (k : Kind) : k ∈ all := by cases k <;> simp [all]

theorem ofWireName?_wireName (k : Kind) : ofWireName? k.wireName = some k := by
  cases k <;> decide

end Kind

end ResumableUpload.Wire
