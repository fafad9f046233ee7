/-!
# Frames

What the two ends of a channel send each other.
-/

namespace ResumableUpload.Channel

/-- A message on a channel. -/
inductive Frame
  | text (s : String)
  | binary (data : ByteArray)
  | ping (data : ByteArray)
  | pong (data : ByteArray)
  | close
  /-- A frame that is not made into a message. -/
  | raw (data : ByteArray)

/-- The most bytes that a message may carry. -/
def maxMessageBytes : Nat := 1048576

/-- The most bytes that a ping or a pong may carry. -/
def maxControlBytes : Nat := 125

/-- The frame is not too large to be read. -/
def Frame.isAdmissible : Frame → Bool
  | text s => s.utf8ByteSize ≤ maxMessageBytes
  | binary data | raw data => data.size ≤ maxMessageBytes
  | ping data | pong data => data.size ≤ maxControlBytes
  | close => true

end ResumableUpload.Channel
