import ResumableUpload.Proofs.Completion

/-!
# Reads and acknowledgements in either order

While a chunk is being read, acknowledgements of earlier chunks arrive. Which of the two comes first
decides who asks for the next chunk: the chunk that is sent, if it leaves the window open, or else
the acknowledgement that opens it. What is asked for in the end is the same.

* `Session.requestNextChunk_acknowledged` : the next chunk is asked for before or after an
  acknowledgement is counted.
* `Session.chunkSent_acknowledged` : a chunk is counted before or after an acknowledgement.
* `Session.read_ack_comm` : an answered read and an acknowledgement lead to the same session and
  ask for the same in either order.
-/

namespace ResumableUpload.Session

open Reaction (quiet)

variable {s : Session} {conn : ConnectionId} {w : Window}

/-! ### The window -/

theorem acknowledged_window (hw : s.window = some w) (size : Nat) :
    (s.acknowledged size).window =
      some { w with chunks := w.chunks - 1, bytes := w.bytes - size } := by
  simp [acknowledged, hw]

/-- No second read is asked for while one is pending. -/
theorem requestNextChunk_of_reading (hp : s.phase = .transferring)
    (hc : s.channel = some ⟨conn, true⟩) (hw : s.window = some w) (hr : w.reading = true) :
    s.requestNextChunk = quiet s := by
  have hclosed : w.isOpen s.sent s.total.toNat false = false := by simp [Window.isOpen, hr]
  rw [requestNextChunk_of_transferring s hp (openConnection_eq_some_iff.2 hc) hw, hclosed]
  rfl

/-- Asking for the next chunk before an acknowledgement is counted, and again after it, is asking
for it after the acknowledgement alone. -/
theorem requestNextChunk_acknowledged (hp : s.phase = .transferring)
    (hc : s.channel = some ⟨conn, true⟩) (hw : s.window = some w) (size : Nat) :
    (s.requestNextChunk.andThen fun t => (t.acknowledged size).requestNextChunk) =
      (s.acknowledged size).requestNextChunk := by
  have hc' : (s.acknowledged size).channel = some ⟨conn, true⟩ := hc
  have hw' := acknowledged_window hw size
  have ho := openConnection_eq_some_iff.2 hc
  rw [requestNextChunk_of_transferring s hp ho hw]
  cases hopen : w.isOpen s.sent s.total.toNat false with
  | false => rfl
  | true =>
    -- the acknowledgement finds the window with the read that was asked for
    obtain ⟨hlt, hreading, hsent, -⟩ := Window.isOpen_eq_true_iff.1 hopen
    have hopen' : Window.isOpen { w with chunks := w.chunks - 1, bytes := w.bytes - size }
        (s.acknowledged size).sent (s.acknowledged size).total.toNat false = true :=
      Window.isOpen_eq_true_iff.2 ⟨by simp only; omega, hreading, hsent, rfl⟩
    rw [requestNextChunk_of_transferring (s.acknowledged size) hp
      (openConnection_eq_some_iff.2 hc') hw', if_pos hopen', if_pos rfl]
    refine (Reaction.andThen_congr (g := fun t => quiet (t.acknowledged size)) ?_).trans ?_
    · exact requestNextChunk_of_reading hp hc rfl rfl
    · ext1 <;> simp [acknowledged, hw, Window.nextChunk]

/-- A chunk that is sent and an earlier one that is acknowledged are counted in either order. -/
theorem chunkSent_acknowledged (hw : s.window = some w) (hchunks : 0 < w.chunks) {size : Nat}
    (hbytes : size ≤ w.bytes) (length : Nat) :
    (s.chunkSent length).acknowledged size = (s.acknowledged size).chunkSent length := by
  have hc : w.chunks + 1 - 1 = w.chunks - 1 + 1 := by omega
  have hb : w.bytes + length - size = w.bytes - size + length := by omega
  simp [chunkSent, acknowledged, hw, Window.sent, Window.readFinished, hc, hb]

/-! ### The two events -/

/-- On an open channel, the pending read is answered with the bytes that were asked for, and an
acknowledgement arrives that fits what is in flight. -/
structure Coincide (s : Session) (conn : ConnectionId) (read : ReadId) (data : ByteArray)
    (size : UInt64) : Prop where
  phase : s.phase = .transferring
  connected : s.openConnection = some conn
  pending : ∃ range, s.pendingRead = some (read, range) ∧ data.size = range.length
  chunks : 1 ≤ s.snapshot.chunksInFlight
  bytes : size.toNat ≤ s.snapshot.bytesInFlight

/-- The session when a chunk of `length` bytes is sent and `size` bytes are acknowledged. -/
def exchanged (s : Session) (size length : Nat) : Session :=
  (s.acknowledged size).chunkSent length

variable {read : ReadId} {data : ByteArray} {size : UInt64}

namespace Coincide

theorem channel (he : s.Coincide conn read data size) : s.channel = some ⟨conn, true⟩ :=
  openConnection_eq_some_iff.1 he.connected

theorem accepts (he : s.Coincide conn read data size) : s.Accepts (.chunkAck size) :=
  ⟨by simp [handler, he.phase], he.chunks, he.bytes⟩

/-- The window has room for the chunk that is being read, and the acknowledgement is not of the
last byte. -/
theorem window (he : s.Coincide conn read data size) (h : s.Consistent) :
    ∃ w, s.window = some w ∧ w.reading = true ∧ 0 < w.chunks ∧ w.chunks < w.limit ∧
      size.toNat ≤ w.bytes ∧ s.acked + size.toNat < s.total.toNat := by
  obtain ⟨range, hr, -⟩ := he.pending
  obtain ⟨-, -, hlt, -, w, hw, hlimit, -⟩ := h.read _ _ hr
  have hreading : w.reading = true := by simpa [hw, hr] using h.reading_iff
  have hsent := h.balanced.sent_eq
  have hchunks := he.chunks
  have hbytes := he.bytes
  simp only [Snapshot.books, snapshot, hw, Option.map_some, Option.getD_some]
    at hsent hchunks hbytes
  exact ⟨w, hw, hreading, hchunks, hlimit, hbytes, by omega⟩

/-- While a read is pending an acknowledgement asks for nothing. -/
theorem step_ack (he : s.Coincide conn read data size) (h : s.Consistent) :
    (s.step (.record conn (.chunkAck size))).session = s.acknowledged size.toNat ∧
      (s.step (.record conn (.chunkAck size))).effects = [] := by
  obtain ⟨w, hw, hreading, -, -, -, hlt⟩ := he.window h
  have hquiet : (s.acknowledged size.toNat).requestNextChunk = quiet (s.acknowledged size.toNat) :=
    requestNextChunk_of_reading he.phase he.channel (acknowledged_window hw _) hreading
  rcases step_chunkAck h he.channel he.phase he.accepts with ⟨-, hend⟩ | ⟨hstep, -⟩
  · omega
  · rw [hstep, hquiet]
    exact ⟨rfl, rfl⟩

/-- The chunk is sent when the acknowledgement is counted. -/
theorem run_ack_read (he : s.Coincide conn read data size) (h : s.Consistent) :
    let next := (s.exchanged size.toNat data.size).requestNextChunk
    (s.run [.record conn (.chunkAck size), .chunkRead read (.ok data)]).session = next.session ∧
      (s.run [.record conn (.chunkAck size), .chunkRead read (.ok data)]).effects =
        .sendChunk conn data :: next.effects := by
  obtain ⟨range, hr, hd⟩ := he.pending
  obtain ⟨hsession, heffects⟩ := he.step_ack h
  have hread := step_chunkRead (h.acknowledged he.accepts) he.channel hr hd
  simp [run, hsession, heffects, hread, sendChunk_endRead, exchanged]

/-- The acknowledgement is counted when the chunk is sent. -/
theorem run_read_ack (he : s.Coincide conn read data size) (h : s.Consistent) :
    let next := (s.exchanged size.toNat data.size).requestNextChunk
    (s.run [.chunkRead read (.ok data), .record conn (.chunkAck size)]).session = next.session ∧
      (s.run [.chunkRead read (.ok data), .record conn (.chunkAck size)]).effects =
        .sendChunk conn data :: next.effects := by
  obtain ⟨range, hr, hd⟩ := he.pending
  obtain ⟨w, hw, -, hchunks, -, hbytes, hlt⟩ := he.window h
  have hread := step_chunkRead h he.channel hr hd
  rw [sendChunk_endRead] at hread
  have hcons : (s.chunkSent data.size).requestNextChunk.session.Consistent :=
    (h.chunkSent hr hd).requestNextChunk he.phase he.channel
  -- the acknowledgement fits all the more once the chunk is in flight
  have hphase : (s.chunkSent data.size).requestNextChunk.session.phase = .transferring :=
    (requestNextChunk_phase _).trans he.phase
  have hchannel : (s.chunkSent data.size).requestNextChunk.session.channel = some ⟨conn, true⟩ :=
    (requestNextChunk_channel _).trans he.channel
  have haccepts :
      (s.chunkSent data.size).requestNextChunk.session.Accepts (.chunkAck size) := by
    refine ⟨(handler_of_ne_cancelling (by rw [hphase]; decide)).trans hphase, ?_, ?_⟩ <;>
      rw [requestNextChunk_snapshot] <;>
      simp only [snapshot, chunkSent, hw, Option.map_some, Option.getD_some, Window.sent,
        Window.readFinished] <;> omega
  have hswap := requestNextChunk_acknowledged (s := s.chunkSent data.size) he.phase he.channel
    (congrArg (Option.map _) hw) size.toNat
  rw [chunkSent_acknowledged hw hchunks hbytes] at hswap
  rcases step_chunkAck hcons hchannel hphase haccepts with ⟨-, hend⟩ | ⟨hstep, -⟩
  · simp only [requestNextChunk_acked, requestNextChunk_total, chunkSent] at hend
    omega
  · have hsession := congrArg Reaction.session hswap
    have heffects := congrArg Reaction.effects hswap
    simp only [Reaction.andThen_session, Reaction.andThen_effects] at hsession heffects
    simp [run, hread, hstep, exchanged, hsession, heffects]

/-- The next chunk is asked for exactly if there is more to send. -/
theorem exchanged_effects (he : s.Coincide conn read data size) (h : s.Consistent) :
    ∃ w, s.window = some w ∧
      (s.exchanged size.toNat data.size).requestNextChunk.effects =
        if s.sent + data.size < s.total.toNat then
          [.readChunk ⟨s.reads + 1⟩ (w.nextChunk (s.sent + data.size) s.total.toNat)]
        else [] := by
  obtain ⟨w, hw, -, hchunks, hlimit, -⟩ := he.window h
  refine ⟨w, hw, ?_⟩
  have hw' : (s.exchanged size.toNat data.size).window =
      some ⟨w.chunkSize, w.limit, w.chunks - 1 + 1, w.bytes - size.toNat + data.size, false⟩ := by
    simp [exchanged, chunkSent, acknowledged, hw, Window.sent, Window.readFinished]
  have hroom : w.chunks - 1 + 1 < w.limit := by omega
  rw [requestNextChunk_of_transferring (s.exchanged size.toNat data.size) he.phase he.connected hw']
  by_cases hmore : s.sent + data.size < s.total.toNat <;>
    simp [Window.isOpen, hroom, hmore, exchanged, chunkSent, acknowledged, Window.nextChunk]

end Coincide

/-- What comes of an answered read and an acknowledgement does not depend on their order. -/
structure Commute (s : Session) (conn : ConnectionId) (read : ReadId) (data : ByteArray)
    (size : UInt64) : Prop where
  session_eq :
    (s.run [.chunkRead read (.ok data), .record conn (.chunkAck size)]).session =
      (s.run [.record conn (.chunkAck size), .chunkRead read (.ok data)]).session
  effects_eq :
    (s.run [.chunkRead read (.ok data), .record conn (.chunkAck size)]).effects =
      (s.run [.record conn (.chunkAck size), .chunkRead read (.ok data)]).effects
  /-- The chunk is sent, and the next one asked for under the next number if there is one. -/
  effects : ∃ w, s.window = some w ∧
    (s.run [.chunkRead read (.ok data), .record conn (.chunkAck size)]).effects =
      .sendChunk conn data ::
        if s.sent + data.size < s.total.toNat then
          [.readChunk ⟨s.reads + 1⟩ (w.nextChunk (s.sent + data.size) s.total.toNat)]
        else []

/-- **An answered read and an acknowledgement commute**, whatever has happened before and however
full the window is: in either order the session ends up the same in every field and asks for the
same. -/
theorem read_ack_comm (id : String) (total : UInt64) (delay : Nat) {is : List Input}
    (h : OpensOnce is)
    (he : ((new id total delay).run is).session.Coincide conn read data size) :
    ((new id total delay).run is).session.Commute conn read data size := by
  have hcons := consistent_run id total delay h
  obtain ⟨hsession, heffects⟩ := he.run_read_ack hcons
  obtain ⟨hsession', heffects'⟩ := he.run_ack_read hcons
  obtain ⟨w, hw, hnext⟩ := he.exchanged_effects hcons
  exact
    { session_eq := hsession.trans hsession'.symm
      effects_eq := heffects.trans heffects'.symm
      effects := ⟨w, hw, by rw [heffects, hnext]⟩ }

/-- The second chunk of three has been read while the first one is acknowledged, in a window for
two: read first, it closes the window. -/
theorem read_ack_comm_of_full_window :
    OpensOnce [.start, .channelOpened ⟨1⟩, .record ⟨1⟩ (.uploadConfig ⟨4, 0, 2⟩),
      .chunkRead ⟨1⟩ (.ok ⟨#[1, 2, 3, 4]⟩)] ∧
    ((new "upload" 10 500).run [.start, .channelOpened ⟨1⟩,
      .record ⟨1⟩ (.uploadConfig ⟨4, 0, 2⟩),
      .chunkRead ⟨1⟩ (.ok ⟨#[1, 2, 3, 4]⟩)]).session.Coincide ⟨1⟩ ⟨2⟩ ⟨#[5, 6, 7, 8]⟩ 4 ∧
    ((new "upload" 10 500).run [.start, .channelOpened ⟨1⟩,
      .record ⟨1⟩ (.uploadConfig ⟨4, 0, 2⟩),
      .chunkRead ⟨1⟩ (.ok ⟨#[1, 2, 3, 4]⟩)]).session.Commute ⟨1⟩ ⟨2⟩ ⟨#[5, 6, 7, 8]⟩ 4 := by
  have he : ((new "upload" 10 500).run [.start, .channelOpened ⟨1⟩,
      .record ⟨1⟩ (.uploadConfig ⟨4, 0, 2⟩),
      .chunkRead ⟨1⟩ (.ok ⟨#[1, 2, 3, 4]⟩)]).session.Coincide ⟨1⟩ ⟨2⟩ ⟨#[5, 6, 7, 8]⟩ 4 :=
    ⟨by decide, by decide, ⟨⟨4, 4⟩, by decide, by decide⟩, by decide, by decide⟩
  exact ⟨by decide, he, read_ack_comm "upload" 10 500 (by decide) he⟩

end ResumableUpload.Session
