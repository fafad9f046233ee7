import Mathlib.Logic.Function.Basic
import ResumableUpload.Proofs.Accounting
import ResumableUpload.Proofs.ChunkStream

/-!
# A session and a server that stores what it is sent

An `Exchange` is a session of an `Upload`, a server that keeps a string of bytes, and what is on its
way between them. The server announces the length of what it has stored, stores the chunks of the
newest connection on which it has done so, and acknowledges a chunk only when it is stored.

Chunks and records of one connection arrive in the order in which they were sent, and at any later
moment. What is lost with a connection is what never arrives: nothing makes the server take a chunk,
or the session a record.
-/

namespace ResumableUpload

open Wire (ServerRecord UploadParams)

/-- A file and the session that uploads it. -/
structure Upload where
  id : String
  total : UInt64
  /-- Milliseconds from the loss of a connection to the next attempt. -/
  retryDelay : Nat
  file : ByteArray
  size_eq : file.size = total.toNat

/-- The session of an upload after some inputs. -/
def Upload.session (u : Upload) (is : List Input) : Session :=
  ((Session.new u.id u.total u.retryDelay).run is).session

/-- If the input answers the pending read, it brings the bytes of the file that were asked for. -/
def Session.ReadsFrom (s : Session) (file : ByteArray) (i : Input) : Prop :=
  ∀ read range data, i = .chunkRead read (.ok data) → s.pendingRead = some (read, range) →
    data = file.extract range.offset range.stop

/-- A server and what is on its way between it and a session. -/
structure Traffic where
  /-- What the server has stored. -/
  store : ByteArray
  /-- The number of the newest connection on which the server has announced its parameters. -/
  newest : Nat
  /-- The chunks on their way to the server. -/
  up : ConnectionId → List ByteArray
  /-- The records on their way to the session. -/
  down : ConnectionId → List ServerRecord
  /-- The sizes of the chunks that were stored and are not acknowledged yet. -/
  owed : ConnectionId → List Nat

namespace Traffic

/-- Nothing is stored and nothing was said. -/
def empty : Traffic := ⟨ByteArray.empty, 0, fun _ => [], fun _ => [], fun _ => []⟩

variable (t : Traffic)

/-- The chunks that a session hands to its channels are on their way. -/
def carry (es : List Effect) : Traffic := { t with up := fun c => t.up c ++ chunksOn c es }

/-- The server sends a record. -/
def send (c : ConnectionId) (r : ServerRecord) : Traffic :=
  { t with down := Function.update t.down c (t.down c ++ [r]) }

/-- Of the records on their way over a connection these are left. -/
def leaving (c : ConnectionId) (rs : List ServerRecord) : Traffic :=
  { t with down := Function.update t.down c rs }

/-- What the server can do when a session has asked for so many connections. -/
inductive Serves (connections : Nat) (t : Traffic) : Traffic → Prop
  /-- It announces how much it has stored, on a connection that was asked for. -/
  | announces {c : ConnectionId} {params : UploadParams} (hc : c.number ≤ connections)
      (hp : params.resumeOffset.toNat = t.store.size) :
      Serves connections t { t.send c (.uploadConfig params) with newest := max t.newest c.number }
  /-- It stores a chunk of the newest connection. -/
  | stores {c : ConnectionId} {chunk : ByteArray} {chunks : List ByteArray}
      (hc : c.number = t.newest) (hx : t.up c = chunk :: chunks) :
      Serves connections t { t with
        store := t.store ++ chunk
        up := Function.update t.up c chunks
        owed := Function.update t.owed c (t.owed c ++ [chunk.size]) }
  /-- It ignores a chunk of another connection. -/
  | ignores {c : ConnectionId} {chunk : ByteArray} {chunks : List ByteArray}
      (hc : c.number ≠ t.newest) (hx : t.up c = chunk :: chunks) :
      Serves connections t { t with up := Function.update t.up c chunks }
  /-- It acknowledges a chunk that it has stored. -/
  | acknowledges {c : ConnectionId} {size : UInt64} {before after : List Nat}
      (hx : t.owed c = before ++ size.toNat :: after) :
      Serves connections t { t.send c (.chunkAck size) with
        owed := Function.update t.owed c (before ++ after) }
  /-- It says anything else. -/
  | speaks {c : ConnectionId} {r : ServerRecord} (hp : r.params? = none) (ha : r.ackSize? = none) :
      Serves connections t (t.send c r)

end Traffic

/-- All that a session was told, and the traffic between it and a server. -/
structure Exchange where
  inputs : List Input
  traffic : Traffic

namespace Exchange

/-- What can happen in an exchange. -/
inductive Step (u : Upload) (x : Exchange) : Exchange → Prop
  /-- The caller acts, a channel opens or closes, a frame is garbled, a timer expires or a read is
  answered. -/
  | happens {i : Input} (ho : OpensOnce (x.inputs ++ [i])) (hi : ∀ c r, i ≠ .record c r)
      (hr : (u.session x.inputs).ReadsFrom u.file i) :
      Step u x ⟨x.inputs ++ [i], x.traffic.carry ((u.session x.inputs).step i).effects⟩
  | serves {t : Traffic} (ht : x.traffic.Serves (u.session x.inputs).connections t) :
      Step u x ⟨x.inputs, t⟩
  /-- A record reaches the session. -/
  | delivers {c : ConnectionId} {r : ServerRecord} {rs : List ServerRecord}
      (hx : x.traffic.down c = r :: rs) :
      Step u x ⟨x.inputs ++ [.record c r],
        (x.traffic.leaving c rs).carry ((u.session x.inputs).step (.record c r)).effects⟩

/-- What an exchange can come to. -/
inductive Reachable (u : Upload) : Exchange → Prop
  | initial : Reachable u ⟨[], Traffic.empty⟩
  | step {x y : Exchange} (h : Reachable u x) (hs : Step u x y) : Reachable u y

end Exchange

end ResumableUpload
