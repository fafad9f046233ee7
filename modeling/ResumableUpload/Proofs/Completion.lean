import ResumableUpload.Proofs.Moves

/-!
# A transfer completes under every schedule

Once the parameters are announced, two things can move a transfer on: the pending read brings its
chunk, or the server acknowledges the oldest chunk that it has not acknowledged yet. A `Schedule` is
any order of such events.

* `Session.Engaged` : a session that may ask for a chunk has done so. No transition loses the
  occasion to ask (`Session.engaged_run`).
* `Session.Underway` : how far a transfer is after a schedule, kept by each event.
* `Session.schedule_run` : every schedule can be continued until every chunk is sent and
  acknowledged, and then no further.
-/

namespace ResumableUpload

open Wire (UploadParams)

/-- A read has been answered. -/
def Input.isChunkRead : Input → Bool
  | chunkRead .. => true
  | _ => false

/-- A chunk is acknowledged. -/
def Input.isChunkAck : Input → Bool
  | record _ (.chunkAck _) => true
  | _ => false

/-- A chunk is to be read. -/
def Effect.isRequest : Effect → Bool
  | readChunk .. => true
  | _ => false

/-- The number of reads that were answered. -/
def readsIn (is : List Input) : Nat := is.countP Input.isChunkRead

/-- The number of chunks that were acknowledged. -/
def acksIn (is : List Input) : Nat := is.countP Input.isChunkAck

/-- The number of reads that were asked for. -/
def requestsIn (es : List Effect) : Nat := es.countP Effect.isRequest

/-- The sizes of the chunks handed to a channel, in order. -/
def sizesOn (c : ConnectionId) (es : List Effect) : List Nat := (chunksOn c es).map ByteArray.size

/-- The sizes of the chunks handed to a channel that are not acknowledged yet, the oldest first. -/
def unackedOn (c : ConnectionId) (is : List Input) (es : List Effect) : List Nat :=
  (sizesOn c es).drop (acksIn is)

/-- The number of chunks that a file of `total` bytes still takes. -/
def Wire.UploadParams.chunkCount (params : UploadParams) (total : Nat) : Nat :=
  (total - params.resumeOffset.toNat + params.chunkSize.toNat - 1) / params.chunkSize.toNat

theorem lt_chunkCount_iff {params : UploadParams} (h : 1 ≤ params.chunkSize.toNat) {total k : Nat} :
    k < params.chunkCount total ↔
      params.resumeOffset.toNat + k * params.chunkSize.toNat < total := by
  rw [Wire.UploadParams.chunkCount, ← Nat.add_one_le_iff, Nat.le_div_iff_mul_le h, Nat.add_one_mul]
  omega

/-- Chunks of these sizes lead from the announced offset to `sent`. None is empty, all but the last
one are full, and none lies beyond the end of the file. -/
structure Paces (params : UploadParams) (total : Nat) (sizes : List Nat) (sent : Nat) : Prop where
  positive : ∀ n ∈ sizes, 0 < n
  sent_eq : sent =
    min (params.resumeOffset.toNat + sizes.length * params.chunkSize.toNat) total
  within : ∀ k < sizes.length, params.resumeOffset.toNat + k * params.chunkSize.toNat < total

namespace Paces

variable {params : UploadParams} {total sent : Nat} {sizes : List Nat}

theorem nil (h : params.resumeOffset.toNat ≤ total) :
    Paces params total [] params.resumeOffset.toNat where
  positive _ hn := by cases hn
  sent_eq := by simp [h]
  within _ hk := by cases hk

theorem concat (hp : Paces params total sizes sent) (hC : 1 ≤ params.chunkSize.toNat)
    (hlt : sent < total) {n : Nat} (hn : n = min (sent + params.chunkSize.toNat) total - sent) :
    Paces params total (sizes ++ [n]) (sent + n) := by
  have hsent := hp.sent_eq
  constructor
  · intro m hm
    rcases List.mem_append.1 hm with hm | hm
    · exact hp.positive m hm
    · rw [List.mem_singleton.1 hm]
      omega
  · rw [List.length_append, List.length_singleton, Nat.add_one_mul]
    omega
  · intro k hk
    rw [List.length_append, List.length_singleton, Nat.lt_succ_iff_lt_or_eq] at hk
    rcases hk with hk | rfl
    · exact hp.within k hk
    · omega

theorem length_le (hp : Paces params total sizes sent) (hC : 1 ≤ params.chunkSize.toNat) :
    sizes.length ≤ params.chunkCount total := by
  by_contra hlt
  have hwithin := hp.within _ (Nat.lt_of_not_le hlt)
  exact absurd ((lt_chunkCount_iff hC).2 hwithin) (Nat.lt_irrefl _)

theorem sent_lt_iff (hp : Paces params total sizes sent) (hC : 1 ≤ params.chunkSize.toNat) :
    sent < total ↔ sizes.length < params.chunkCount total := by
  have hsent := hp.sent_eq
  rw [lt_chunkCount_iff hC]
  omega

end Paces

namespace Session

open Reaction (quiet ask tell)

variable {s : Session} {conn : ConnectionId} {params : UploadParams} {i : Input} {r : Reaction}

/-! ### No occasion to read is lost -/

/-- A chunk is being read whenever one may be. -/
def Engaged (s : Session) : Prop :=
  s.phase = .transferring → s.openConnection.isSome = true → s.pendingRead = none →
    ∀ w, s.window = some w → w.limit ≤ w.chunks ∨ s.total.toNat ≤ s.sent

theorem engaged_of_phase (hp : s.phase ≠ .transferring) : s.Engaged := fun h => absurd h hp

theorem engaged_requestNextChunk (h : s.Consistent) (hp : s.phase = .transferring)
    (hc : s.channel = some ⟨conn, true⟩) : s.requestNextChunk.session.Engaged := by
  obtain ⟨w, hw⟩ := Option.isSome_iff_exists.1 (h.announced (by simp [handler, hp]))
  have hreading := h.reading_iff
  rw [requestNextChunk_of_transferring s hp (openConnection_eq_some_iff.2 hc) hw]
  split
  · intro _ _ hr
    cases hr
  · rename_i hopen
    intro _ _ hr w' hw'
    obtain rfl : w = w' := Option.some.inj (hw.symm.trans hw')
    have hr : s.pendingRead = none := hr
    have hfree : w.reading = false := by simpa [hw, hr] using hreading
    rw [Window.isOpen_eq_true_iff] at hopen
    simp only [hfree, true_and, and_true, not_and, Nat.not_lt] at hopen
    rcases Nat.lt_or_ge w.chunks w.limit with hlt | hge
    · exact .inr (hopen hlt)
    · exact .inl hge

theorem Engaged.of_transition (he : s.Engaged) (h : s.Consistent) (ht : s.Transition i r) :
    r.session.Engaged := by
  cases ht with
  | ignored => exact he
  | configBegins hp hc hr hlt => exact engaged_requestNextChunk (h.begun hp hc hr hlt) rfl hc
  | ackContinues hp hc hr => exact engaged_requestNextChunk (h.acknowledged hr) hp hc
  | sent hr hc hd =>
    rw [sendChunk_endRead]
    exact engaged_requestNextChunk (h.chunkSent hr hd) (h.read _ _ hr).1 hc
  | lost =>
    intro _ ho
    simp [awaitRetry_eq, endRead, openConnection] at ho
  | errorNoted hp | configNoted hp | ackNoted hp =>
    exact engaged_of_phase (by simp [configured, acknowledged, hp])
  | _ =>
    refine engaged_of_phase ?_
    simp [reconnected, suspended, cancelling, finishCancel, onServerCancel, violate, endWith,
      released, abandonCancel]

theorem engaged_run (id : String) (total : UInt64) (delay : Nat) {is : List Input}
    (h : OpensOnce is) : ((new id total delay).run is).session.Engaged := by
  refine run_induction id total delay (P := fun _ r => r.session.Engaged) ?_ ?_ h
  · exact engaged_of_phase (by simp [new])
  · intro _ _ _ _ hcons htimely he
    have hstep := he.of_transition hcons (transition hcons htimely)
    exact hstep

/-! ### Schedules -/

/-- The announcement of the parameters on a channel, and after it answers to the pending read and
acknowledgements of the oldest chunk, in any order. -/
inductive Schedule (s : Session) (conn : ConnectionId) (params : UploadParams) :
    List Input → Prop
  | config : Schedule s conn params [.record conn (.uploadConfig params)]
  | read {is : List Input} {read : ReadId} {range : ByteRange} {data : ByteArray}
      (h : Schedule s conn params is) (hr : (s.run is).session.pendingRead = some (read, range))
      (hd : data.size = range.length) :
      Schedule s conn params (is ++ [.chunkRead read (.ok data)])
  | ack {is : List Input} {size : UInt64} {rest : List Nat} (h : Schedule s conn params is)
      (hu : unackedOn conn is (s.run is).effects = size.toNat :: rest) :
      Schedule s conn params (is ++ [.record conn (.chunkAck size)])

/-- The number of reads that are pending. -/
def outstanding (s : Session) : Nat := s.pendingRead.toList.length

/-- The session transfers a file of `total` bytes, of which chunks of these sizes are in flight, or
waits for the server to process it. -/
structure InTransfer (s : Session) (conn : ConnectionId) (params : UploadParams) (total : Nat)
    (unacked : List Nat) : Prop where
  total_eq : s.total.toNat = total
  channel : s.channel = some ⟨conn, true⟩
  chunkSize : s.snapshot.chunkSize = some params.chunkSize.toNat
  limit : s.snapshot.limit = some params.sendAhead.toNat
  chunks : s.snapshot.chunksInFlight = unacked.length
  bytes : s.snapshot.bytesInFlight = unacked.sum
  phase : s.phase = .transferring ∧ s.acked < total ∨ s.phase = .awaitingCompletion ∧ s.acked = total

/-- How far the transfer of a file of `total` bytes is. -/
structure Underway (conn : ConnectionId) (params : UploadParams) (total : Nat) (is : List Input)
    (r : Reaction) : Prop where
  inTransfer : r.session.InTransfer conn params total (unackedOn conn is r.effects)
  paced : Paces params total (sizesOn conn r.effects) r.session.sent
  /-- Every answered read has made a chunk. -/
  sizes_length : (sizesOn conn r.effects).length = readsIn is
  acks_le : acksIn is ≤ readsIn is
  length_eq : is.length = 1 + readsIn is + acksIn is
  requests : requestsIn r.effects = readsIn is + r.session.outstanding

/-! ### What the events of a schedule do -/

/-- An accepted announcement begins the transfer, or leaves nothing to transfer. -/
theorem step_config (h : s.Consistent) (hp : s.phase = .handshaking)
    (hc : s.channel = some ⟨conn, true⟩) (hle : params.resumeOffset ≤ s.total) :
    s.step (.record conn (.uploadConfig params)) =
        (ask { s.configured params with
          canCancel := false, canPause := false, phase := .awaitingCompletion }
            (.sendRecord conn .ack)).andThen (tell .progress) ∧ params.resumeOffset = s.total ∨
      s.step (.record conn (.uploadConfig params)) =
        (ask { s.configured params with canPause := true, phase := .transferring }
          (.sendRecord conn .ack)).andThen (fun s => s.requestNextChunk.andThen (tell .progress)) ∧
        params.resumeOffset < s.total := by
  have ha : s.Accepts (.uploadConfig params) := ⟨by simp [handler, hp], hle⟩
  have ht := transition h (i := .record conn (.uploadConfig params)) (by rintro _ ⟨⟩)
  generalize s.step (.record conn (.uploadConfig params)) = r at ht
  cases ht with
  | ignored hi => simp [Ignores, isOpen_iff.2 hc] at hi
  | violated _ _ hr => exact absurd ha hr
  | configNoted hp' => simp [hp] at hp'
  | configCompletes _ _ _ he => exact .inl ⟨rfl, he⟩
  | configBegins _ _ _ he => exact .inr ⟨rfl, he⟩

/-- The answer to the pending read makes a chunk. -/
theorem step_chunkRead (h : s.Consistent) (hc : s.channel = some ⟨conn, true⟩) {read : ReadId}
    {range : ByteRange} {data : ByteArray} (hr : s.pendingRead = some (read, range))
    (hd : data.size = range.length) :
    s.step (.chunkRead read (.ok data)) = s.endRead.sendChunk conn data := by
  have ht := transition h (i := .chunkRead read (.ok data)) (by rintro _ ⟨⟩)
  generalize s.step (.chunkRead read (.ok data)) = r at ht
  cases ht with
  | ignored hi => exact absurd hr (hi range)
  | readFailed _ hr' hd' =>
    obtain ⟨-, rfl⟩ := Prod.mk.inj (Option.some.inj (hr'.symm.trans hr))
    exact absurd hd (hd' data rfl)
  | sent _ hc' =>
    obtain rfl : _ = conn := by simpa using congrArg (Option.map Channel.id) (hc'.symm.trans hc)
    rfl

/-- An acknowledgement that fits completes the transfer or continues it. -/
theorem step_chunkAck (h : s.Consistent) (hc : s.channel = some ⟨conn, true⟩)
    (hp : s.phase = .transferring) {size : UInt64} (ha : s.Accepts (.chunkAck size)) :
    s.step (.record conn (.chunkAck size)) =
        tell .progress { s.acknowledged size.toNat with phase := .awaitingCompletion } ∧
        s.acked + size.toNat = s.total.toNat ∨
      s.step (.record conn (.chunkAck size)) =
        (s.acknowledged size.toNat).requestNextChunk.andThen (tell .progress) ∧
        s.acked + size.toNat ≠ s.total.toNat := by
  have ht := transition h (i := .record conn (.chunkAck size)) (by rintro _ ⟨⟩)
  generalize s.step (.record conn (.chunkAck size)) = r at ht
  cases ht with
  | ignored hi => simp [Ignores, isOpen_iff.2 hc] at hi
  | violated _ _ hr => exact absurd ha hr
  | ackNoted hp' => simp [hp] at hp'
  | ackCompletes _ _ _ he => exact .inl ⟨rfl, he⟩
  | ackContinues _ _ _ he => exact .inr ⟨rfl, he⟩

/-- The last record of the server finishes a session that has nothing left to send. -/
theorem step_allDone (h : s.Consistent) (hc : s.channel = some ⟨conn, true⟩)
    (hp : s.phase = .awaitingCompletion) :
    (s.step (.record conn .allDone)).session.phase = .finished := by
  have ht := transition h (i := .record conn .allDone) (by rintro _ ⟨⟩)
  generalize s.step (.record conn .allDone) = r at ht
  cases ht with
  | ignored hi => simp [Ignores, isOpen_iff.2 hc] at hi
  | violated _ _ hr => exact absurd (show s.Accepts .allDone by simp [Accepts, handler, hp]) hr
  | finished => simp [released]

/-- Reads are asked for one at a time, and each request is for a pending read. -/
theorem requestsIn_requestNextChunk (h : s.Consistent) (hp : s.phase = .transferring)
    (hc : s.channel = some ⟨conn, true⟩) :
    requestsIn s.requestNextChunk.effects + s.outstanding =
      s.requestNextChunk.session.outstanding := by
  obtain ⟨w, hw⟩ := Option.isSome_iff_exists.1 (h.announced (by simp [handler, hp]))
  rw [requestNextChunk_of_transferring s hp (openConnection_eq_some_iff.2 hc) hw]
  split
  · rename_i hopen
    have hr := h.unread_of_isOpen hw hopen
    simp [requestsIn, outstanding, Effect.isRequest, hr]
  · simp [requestsIn]

namespace InTransfer

variable {total : Nat} {unacked : List Nat}

theorem sent_eq (ht : s.InTransfer conn params total unacked) (h : s.Consistent) :
    s.sent = s.acked + unacked.sum := by
  rw [← ht.bytes]
  exact h.balanced.sent_eq

theorem sent_le (ht : s.InTransfer conn params total unacked) (h : s.Consistent) :
    s.sent ≤ total := by
  rw [← ht.total_eq]
  exact h.balanced.sent_le_total

theorem acked_lt (ht : s.InTransfer conn params total unacked) (hp : s.phase = .transferring) :
    s.acked < total := by
  rcases ht.phase with ⟨-, hacked⟩ | ⟨hp', -⟩
  · exact hacked
  · simp [hp] at hp'

/-- The window is the one that was announced, with what is in flight. -/
theorem window (ht : s.InTransfer conn params total unacked) :
    ∃ w, s.window = some w ∧ w.chunkSize = params.chunkSize.toNat ∧
      w.limit = params.sendAhead.toNat ∧ w.chunks = unacked.length ∧ w.bytes = unacked.sum := by
  obtain ⟨-, -, hsize, hlimit, hchunks, hbytes, -⟩ := ht
  cases hw : s.window with
  | none => simp [snapshot, hw] at hlimit
  | some w =>
    simp only [snapshot, hw, Option.map_some, Option.some.injEq, Option.getD_some]
      at hsize hlimit hchunks hbytes
    exact ⟨w, rfl, hsize, hlimit, hchunks, hbytes⟩

/-- Asking for the next chunk keeps the transfer where it is. -/
theorem requestNextChunk (ht : s.InTransfer conn params total unacked) :
    s.requestNextChunk.session.InTransfer conn params total unacked where
  total_eq := by simpa using ht.total_eq
  channel := by simpa using ht.channel
  chunkSize := by simpa using ht.chunkSize
  limit := by simpa using ht.limit
  chunks := by simpa using ht.chunks
  bytes := by simpa using ht.bytes
  phase := by simpa using ht.phase

theorem chunkSent (ht : s.InTransfer conn params total unacked)
    (hp : s.phase = .transferring) (size : Nat) :
    (s.chunkSent size).InTransfer conn params total (unacked ++ [size]) := by
  obtain ⟨w, hw, hsize, hlimit, hchunks, hbytes⟩ := ht.window
  exact
    { total_eq := ht.total_eq
      channel := ht.channel
      chunkSize := by simp [Session.chunkSent, snapshot, hw, Window.sent, Window.readFinished, hsize]
      limit := by simp [Session.chunkSent, snapshot, hw, Window.sent, Window.readFinished, hlimit]
      chunks := by
        simp [Session.chunkSent, snapshot, hw, Window.sent, Window.readFinished, hchunks]
      bytes := by simp [Session.chunkSent, snapshot, hw, Window.sent, Window.readFinished, hbytes]
      phase := .inl ⟨hp, ht.acked_lt hp⟩ }

theorem acknowledged {size : Nat} (ht : s.InTransfer conn params total (size :: unacked)) {p : Phase}
    (hp : p = .transferring ∧ s.acked + size < total ∨
      p = .awaitingCompletion ∧ s.acked + size = total) :
    InTransfer { s.acknowledged size with phase := p } conn params total unacked := by
  obtain ⟨w, hw, hsize, hlimit, hchunks, hbytes⟩ := ht.window
  exact
    { total_eq := ht.total_eq
      channel := ht.channel
      chunkSize := by simp [Session.acknowledged, snapshot, hw, hsize]
      limit := by simp [Session.acknowledged, snapshot, hw, hlimit]
      chunks := by simp [Session.acknowledged, snapshot, hw, hchunks]
      bytes := by simp [Session.acknowledged, snapshot, hw, hbytes]
      phase := hp }

end InTransfer

namespace Underway

variable {total : Nat} {is : List Input}

/-- What the observer is told has no part in a transfer. -/
theorem of_eq {r' : Reaction} (hu : Underway conn params total is r)
    (hs : r'.session = r.session) (he : r'.effects = r.effects) :
    Underway conn params total is r' := by
  obtain ⟨s', es', ns'⟩ := r'
  obtain ⟨s, es, ns⟩ := r
  subst hs he
  exact ⟨hu.inTransfer, hu.paced, hu.sizes_length, hu.acks_le, hu.length_eq, hu.requests⟩

theorem requested (hu : Underway conn params total is r) (h : r.session.Consistent)
    (hp : r.session.phase = .transferring) :
    Underway conn params total is (r.andThen requestNextChunk) := by
  have hsizes : sizesOn conn (r.andThen requestNextChunk).effects = sizesOn conn r.effects := by
    simp [sizesOn]
  have hrequests : requestsIn (r.andThen requestNextChunk).effects =
      requestsIn r.effects + requestsIn r.session.requestNextChunk.effects := by
    simp [requestsIn]
  constructor
  · rw [unackedOn, hsizes]
    exact hu.inTransfer.requestNextChunk
  · rw [hsizes]
    simpa using hu.paced
  · rw [hsizes]
    exact hu.sizes_length
  · exact hu.acks_le
  · exact hu.length_eq
  · have hreq := requestsIn_requestNextChunk h hp hu.inTransfer.channel
    rw [hrequests, hu.requests, Nat.add_assoc, Nat.add_comm r.session.outstanding, hreq]
    rfl

/-- When the parameters are confirmed nothing has been sent or asked for yet. -/
theorem begun (hc : s.channel = some ⟨conn, true⟩) (hread : s.pendingRead = none)
    (hle : params.resumeOffset ≤ s.total) (canCancel canPause : Bool) {p : Phase}
    (hn : p = .transferring ∧ params.resumeOffset.toNat < s.total.toNat ∨
      p = .awaitingCompletion ∧ params.resumeOffset.toNat = s.total.toNat) :
    Underway conn params s.total.toNat [.record conn (.uploadConfig params)]
      (ask { s.configured params with canCancel, canPause, phase := p }
        (.sendRecord conn .ack)) where
  inTransfer :=
    { total_eq := rfl
      channel := hc
      chunkSize := rfl
      limit := rfl
      chunks := rfl
      bytes := rfl
      phase := hn }
  paced := Paces.nil (UInt64.le_iff_toNat_le.1 hle)
  sizes_length := rfl
  acks_le := Nat.le_refl 0
  length_eq := rfl
  requests := by
    simp [requestsIn, Effect.isRequest, readsIn, Input.isChunkRead, outstanding, configured, hread]

/-- The announcement begins the transfer. -/
theorem config (h : s.Consistent) (hp : s.phase = .handshaking)
    (hc : s.channel = some ⟨conn, true⟩) (hle : params.resumeOffset ≤ s.total) :
    Underway conn params s.total.toNat [.record conn (.uploadConfig params)]
      (s.step (.record conn (.uploadConfig params))) := by
  have hread : s.pendingRead = none := h.read_none_of_phase (by simp [hp])
  rcases step_config h hp hc hle with ⟨hstep, he⟩ | ⟨hstep, hlt⟩
  · have hbegun := begun hc hread hle false false (.inr ⟨rfl, congrArg UInt64.toNat he⟩)
    refine hbegun.of_eq ?_ ?_ <;> rw [hstep] <;> rfl
  · have hcons := h.begun hp hc ⟨by simp [handler, hp], hle⟩ hlt
    have hbegun := begun hc hread hle s.canCancel true (.inl ⟨rfl, UInt64.lt_iff_toNat_lt.1 hlt⟩)
    refine (hbegun.requested hcons rfl).of_eq ?_ ?_
    · rw [hstep]
      rfl
    · simp only [hstep, Reaction.andThen_effects, Reaction.tell_effects, List.append_nil]
      rfl

/-- The answer to the pending read hands its chunk to the channel. -/
theorem chunkSent (hu : Underway conn params total is r) (h : r.session.Consistent)
    (hC : 1 ≤ params.chunkSize.toNat) {read : ReadId} {range : ByteRange} {data : ByteArray}
    (hr : r.session.pendingRead = some (read, range)) (hd : data.size = range.length) :
    Underway conn params total (is ++ [.chunkRead read (.ok data)])
      (r.andThen fun s => ⟨s.chunkSent data.size, [.sendChunk conn data], []⟩) := by
  have hreads : readsIn (is ++ [.chunkRead read (.ok data)]) = readsIn is + 1 := by
    simp [readsIn, Input.isChunkRead]
  have hacks : acksIn (is ++ [.chunkRead read (.ok data)]) = acksIn is := by
    simp [acksIn, Input.isChunkAck]
  have hsizes : sizesOn conn (r.effects ++ [.sendChunk conn data]) =
      sizesOn conn r.effects ++ [data.size] := by
    simp [sizesOn, Effect.chunkOn?]
  have hunacked : unackedOn conn (is ++ [.chunkRead read (.ok data)])
      (r.effects ++ [.sendChunk conn data]) = unackedOn conn is r.effects ++ [data.size] := by
    have hle : acksIn is ≤ (sizesOn conn r.effects).length := hu.sizes_length ▸ hu.acks_le
    rw [unackedOn, hsizes, hacks, List.drop_append_of_le_length hle, unackedOn]
  obtain ⟨hp, -, hlt, -, w, hw, -, hrange⟩ := h.read _ _ hr
  obtain ⟨w', hw', hsize, -⟩ := hu.inTransfer.window
  obtain rfl : w = w' := Option.some.inj (hw.symm.trans hw')
  rw [hu.inTransfer.total_eq] at hlt hrange
  -- the chunk is as long as the read, which asked for the next one of the file
  have hdata : data.size = min (r.session.sent + params.chunkSize.toNat) total - r.session.sent := by
    rw [hd, hrange, Window.nextChunk, hsize]
  constructor
  · rw [Reaction.andThen_effects, hunacked]
    exact hu.inTransfer.chunkSent hp data.size
  · rw [Reaction.andThen_effects, hsizes]
    exact hu.paced.concat hC hlt hdata
  · rw [Reaction.andThen_effects, hsizes, hreads, List.length_append, hu.sizes_length,
      List.length_singleton]
  · have := hu.acks_le
    omega
  · have := hu.length_eq
    simp only [hreads, hacks, List.length_append, List.length_singleton]
    omega
  · have hreq := hu.requests
    simp only [outstanding, hr, Option.toList_some, List.length_singleton] at hreq
    rw [hreads, ← hreq]
    simp [requestsIn, Effect.isRequest, outstanding, Session.chunkSent]

/-- The answer to the pending read sends the next chunk, and may ask for another one. -/
theorem read (hu : Underway conn params total is r) (h : r.session.Consistent)
    (hC : 1 ≤ params.chunkSize.toNat) {read : ReadId} {range : ByteRange} {data : ByteArray}
    (hr : r.session.pendingRead = some (read, range)) (hd : data.size = range.length) :
    Underway conn params total (is ++ [.chunkRead read (.ok data)])
      (r.andThen (step · (.chunkRead read (.ok data)))) := by
  have hstep := step_chunkRead h hu.inTransfer.channel hr hd
  refine ((hu.chunkSent h hC hr hd).requested (h.chunkSent hr hd) (h.read _ _ hr).1).of_eq ?_ ?_ <;>
    simp [hstep, sendChunk_endRead]

/-- The oldest chunk fits the window, and with it not more than the whole file is acknowledged. -/
theorem accepts_ack (hu : Underway conn params total is r) (h : r.session.Consistent)
    {size : UInt64} {rest : List Nat}
    (hsize : unackedOn conn is r.effects = size.toNat :: rest) :
    r.session.phase = .transferring ∧ r.session.Accepts (.chunkAck size) ∧
      r.session.acked + size.toNat ≤ total := by
  have hpos : 0 < size.toNat := by
    refine hu.paced.positive _ (List.mem_of_mem_drop (i := acksIn is) ?_)
    rw [← unackedOn, hsize]
    exact List.mem_cons_self
  have ht := hu.inTransfer
  rw [hsize] at ht
  have hbytes := ht.bytes
  have hchunks := ht.chunks
  have hsent := ht.sent_eq h
  have hle := ht.sent_le h
  rw [List.sum_cons] at hbytes hsent
  rw [List.length_cons] at hchunks
  have hp : r.session.phase = .transferring := by
    rcases ht.phase with ⟨hp, -⟩ | ⟨-, hacked⟩
    · exact hp
    · omega
  refine ⟨hp, ⟨by simp [handler, hp], ?_, ?_⟩, ?_⟩ <;> omega

theorem acknowledged (hu : Underway conn params total is r) {size : UInt64} {rest : List Nat}
    (hsize : unackedOn conn is r.effects = size.toNat :: rest) {p : Phase}
    (hp : p = .transferring ∧ r.session.acked + size.toNat < total ∨
      p = .awaitingCompletion ∧ r.session.acked + size.toNat = total) :
    Underway conn params total (is ++ [.record conn (.chunkAck size)])
      (r.andThen fun s => quiet { s.acknowledged size.toNat with phase := p }) := by
  have hreads : readsIn (is ++ [.record conn (.chunkAck size)]) = readsIn is := by
    simp [readsIn, Input.isChunkRead]
  have hacks : acksIn (is ++ [.record conn (.chunkAck size)]) = acksIn is + 1 := by
    simp [acksIn, Input.isChunkAck]
  have hunacked : unackedOn conn (is ++ [.record conn (.chunkAck size)]) r.effects = rest := by
    rw [unackedOn, hacks, ← List.tail_drop, ← unackedOn, hsize, List.tail_cons]
  have hlt : acksIn is < readsIn is := by
    have hlength := congrArg List.length hsize
    rw [unackedOn, List.length_drop, hu.sizes_length, List.length_cons] at hlength
    omega
  have ht := hu.inTransfer
  rw [hsize] at ht
  constructor
  · rw [Reaction.andThen_effects, Reaction.quiet_effects, List.append_nil, hunacked]
    exact ht.acknowledged hp
  · rw [Reaction.andThen_effects, Reaction.quiet_effects, List.append_nil]
    exact hu.paced
  · simpa [hreads] using hu.sizes_length
  · omega
  · have := hu.length_eq
    simp only [hreads, hacks, List.length_append, List.length_singleton]
    omega
  · simpa [hreads, outstanding, Session.acknowledged] using hu.requests

/-- The acknowledgement of the oldest chunk is counted, and may ask for another one. -/
theorem ack (hu : Underway conn params total is r) (h : r.session.Consistent) {size : UInt64}
    {rest : List Nat} (hsize : unackedOn conn is r.effects = size.toNat :: rest) :
    Underway conn params total (is ++ [.record conn (.chunkAck size)])
      (r.andThen (step · (.record conn (.chunkAck size)))) := by
  obtain ⟨hp, haccepts, hle⟩ := hu.accepts_ack h hsize
  have htotal := hu.inTransfer.total_eq
  rcases step_chunkAck h hu.inTransfer.channel hp haccepts with ⟨hstep, he⟩ | ⟨hstep, hne⟩
  · rw [htotal] at he
    refine (hu.acknowledged hsize (.inr ⟨rfl, he⟩)).of_eq ?_ ?_ <;> simp [hstep]
  · rw [htotal] at hne
    have hacked := hu.acknowledged hsize (p := .transferring) (.inl ⟨rfl, by omega⟩)
    have hsame : { r.session.acknowledged size.toNat with phase := .transferring } =
        r.session.acknowledged size.toNat := by
      rw [← hp]
      rfl
    refine (hacked.requested ?_ rfl).of_eq ?_ ?_
    · simp only [Reaction.andThen_session, Reaction.quiet_session, hsame]
      exact h.acknowledged haccepts
    · simp [hstep, hsame]
    · simp [hstep, hsame]

/-- The session leaves its phase with the last acknowledgement. -/
theorem transferring_iff (hu : Underway conn params total is r) (h : r.session.Consistent)
    (hC : 1 ≤ params.chunkSize.toNat) :
    r.session.phase = .transferring ↔ acksIn is < params.chunkCount total := by
  have ht := hu.inTransfer
  have hsent := ht.sent_eq h
  have hle := ht.sent_le h
  have hlt := hu.paced.sent_lt_iff hC
  have hreads := hu.paced.length_le hC
  have hacks := hu.acks_le
  have hlength : (unackedOn conn is r.effects).length = readsIn is - acksIn is := by
    rw [unackedOn, List.length_drop, hu.sizes_length]
  rw [hu.sizes_length] at hlt hreads
  constructor
  · intro hp
    by_contra hge
    -- all chunks would be acknowledged, and with them the whole file
    have hnil : unackedOn conn is r.effects = [] := List.length_eq_zero_iff.1 (by omega)
    have hacked := ht.acked_lt hp
    rw [hnil, List.sum_nil] at hsent
    omega
  · intro hlt'
    rcases ht.phase with ⟨hp, -⟩ | ⟨-, hacked⟩
    · exact hp
    -- nothing would be in flight, so that every chunk sent would be acknowledged
    · have hsum : (unackedOn conn is r.effects).sum = 0 := by omega
      have hnil : unackedOn conn is r.effects = [] := by
        refine List.eq_nil_iff_forall_not_mem.2 fun n hn => ?_
        have hpos := hu.paced.positive n (List.mem_of_mem_drop hn)
        have hzero := List.sum_eq_zero_iff_forall_eq_nat.1 hsum n hn
        omega
      rw [hnil, List.length_nil] at hlength
      omega

/-- As long as a session transfers, a read is pending or a chunk is not acknowledged. -/
theorem event_of_transferring (hu : Underway conn params total is r) (h : r.session.Consistent)
    (he : r.session.Engaged) (hW : 1 ≤ params.sendAhead.toNat)
    (hp : r.session.phase = .transferring) :
    r.session.pendingRead ≠ none ∨ unackedOn conn is r.effects ≠ [] := by
  by_contra hnone
  obtain ⟨hr, hnil⟩ := not_or.1 hnone
  rw [not_not] at hr hnil
  have ht := hu.inTransfer
  rw [hnil] at ht
  have ho : r.session.openConnection.isSome = true := by
    rw [openConnection_eq_some_iff.2 ht.channel]
    rfl
  obtain ⟨w, hw, -, hlimit, hchunks, -⟩ := ht.window
  have hsent := ht.sent_eq h
  have hacked := ht.acked_lt hp
  have htotal := ht.total_eq
  rw [List.sum_nil] at hsent
  rw [List.length_nil] at hchunks
  rcases he hp ho hr w hw with hfull | hall <;> omega

end Underway

/-! ### Runs -/

namespace Schedule

variable {is : List Input}

theorem opened_eq_nil (hs : Schedule s conn params is) : is.filterMap Input.opened? = [] := by
  induction hs with
  | config => rfl
  | read _ _ _ ih => simp [ih, Input.opened?]
  | ack _ _ ih => simp [ih, Input.opened?]

theorem opensOnce (hs : Schedule s conn params is) {before : List Input} (h : OpensOnce before) :
    OpensOnce (before ++ is) := by
  rwa [OpensOnce, List.filterMap_append, hs.opened_eq_nil, List.append_nil]

theorem length_pos (hs : Schedule s conn params is) : 0 < is.length := by
  cases hs <;> simp

/-- The last event of a schedule answers a read or acknowledges a chunk. -/
theorem last_event (hs : Schedule s conn params is) (hs' : Schedule s conn params (is ++ [i])) :
    (s.run is).session.pendingRead ≠ none ∨ unackedOn conn is (s.run is).effects ≠ [] := by
  generalize hjs : is ++ [i] = js at hs'
  cases hs' with
  | config =>
    obtain ⟨rfl, -⟩ := List.append_singleton_inj.1 (hjs.trans (List.nil_append [_]).symm)
    exact absurd hs.length_pos (Nat.lt_irrefl 0)
  | read _ hr =>
    obtain ⟨rfl, -⟩ := List.append_singleton_inj.1 hjs
    exact .inl (by simp [hr])
  | ack _ hu =>
    obtain ⟨rfl, -⟩ := List.append_singleton_inj.1 hjs
    exact .inr (by simp [hu])

end Schedule

/-- What holds of a transfer after a schedule. -/
structure Scheduled (s : Session) (conn : ConnectionId) (params : UploadParams)
    (is : List Input) : Prop where
  /-- The announcement, the answers to reads and the acknowledgements are all there is. -/
  length_eq : is.length = 1 + readsIn is + acksIn is
  reads_le : readsIn is ≤ params.chunkCount s.total.toNat
  acks_le : acksIn is ≤ readsIn is
  chunks : (sizesOn conn (s.run is).effects).length = readsIn is
  unacked_le : (unackedOn conn is (s.run is).effects).length ≤ params.sendAhead.toNat
  requests_le : requestsIn (s.run is).effects ≤ readsIn is + 1
  /-- Until the last acknowledgement something can happen. -/
  continues : acksIn is < params.chunkCount s.total.toNat →
    (s.run is).session.phase = .transferring ∧ ∃ i, Schedule s conn params (is ++ [i])
  /-- After it nothing is left but that the server is done. -/
  completes : acksIn is = params.chunkCount s.total.toNat →
    readsIn is = params.chunkCount s.total.toNat ∧
      is.length = 1 + 2 * params.chunkCount s.total.toNat ∧
      (∀ i, ¬Schedule s conn params (is ++ [i])) ∧
      (s.run is).session.phase = .awaitingCompletion ∧
      (s.run is).session.acked = s.total.toNat ∧
      ((s.run is).session.step (.record conn .allDone)).session.phase = .finished

/-- A reachable session carries out a schedule from the announcement of the parameters on. -/
theorem underway_run (hcons : ∀ js, Schedule s conn params js → (s.run js).session.Consistent)
    (h : s.Consistent) (hp : s.phase = .handshaking) (hc : s.channel = some ⟨conn, true⟩)
    (hC : 1 ≤ params.chunkSize.toNat) (hle : params.resumeOffset ≤ s.total) {is : List Input}
    (hs : Schedule s conn params is) : Underway conn params s.total.toNat is (s.run is) := by
  induction hs with
  | config =>
    refine (Underway.config h hp hc hle).of_eq ?_ ?_ <;> simp [run]
  | read hs hr hd ih =>
    rw [run_concat]
    exact ih.read (hcons _ hs) hC hr hd
  | ack hs hu ih =>
    rw [run_concat]
    exact ih.ack (hcons _ hs) hu

/-- Where a read is pending or a chunk is not acknowledged, the schedule can go on. -/
theorem Schedule.continues {total : Nat} {is : List Input} (hs : Schedule s conn params is)
    (hu : Underway conn params total is (s.run is)) (h : (s.run is).session.Consistent)
    (he : (s.run is).session.pendingRead ≠ none ∨ unackedOn conn is (s.run is).effects ≠ []) :
    ∃ i, Schedule s conn params (is ++ [i]) := by
  rcases he with hr | hne
  · obtain ⟨⟨read, range⟩, hr⟩ := Option.ne_none_iff_exists'.1 hr
    have hd : (⟨Array.replicate range.length 0⟩ : ByteArray).size = range.length := by
      simp [ByteArray.size]
    exact ⟨_, hs.read hr hd⟩
  · obtain ⟨n, rest, hrest⟩ := List.exists_cons_of_ne_nil hne
    -- no more is in flight than the length of the file, which is counted by a word
    have hsent := hu.inTransfer.sent_eq h
    have hle := hu.inTransfer.sent_le h
    have htotal := hu.inTransfer.total_eq
    have hlt := (s.run is).session.total.toNat_lt
    rw [hrest, List.sum_cons] at hsent
    have hword : n < 2 ^ 64 := by omega
    have hsize : unackedOn conn is (s.run is).effects = (UInt64.ofNat n).toNat :: rest := by
      rw [hrest, UInt64.toNat_ofNat_of_lt' hword]
    exact ⟨_, hs.ack hsize⟩

/-- A transfer that is underway goes on until nothing is left to read, send or acknowledge. -/
theorem Underway.scheduled {is : List Input}
    (hu : Underway conn params s.total.toNat is (s.run is)) (hs : Schedule s conn params is)
    (h : (s.run is).session.Consistent) (he : (s.run is).session.Engaged)
    (hC : 1 ≤ params.chunkSize.toNat) (hW : 1 ≤ params.sendAhead.toNat) :
    Scheduled s conn params is := by
  have ht := hu.inTransfer
  have hacks := hu.acks_le
  have hreads := hu.paced.length_le hC
  have hiff := hu.transferring_iff h hC
  have hunacked : (s.run is).session.snapshot.chunksInFlight ≤ params.sendAhead.toNat :=
    h.balanced.inFlight_le _ ht.limit
  rw [hu.sizes_length] at hreads
  refine
    { length_eq := hu.length_eq
      reads_le := hreads
      acks_le := hacks
      chunks := hu.sizes_length
      unacked_le := ht.chunks ▸ hunacked
      requests_le := ?_
      continues := ?_
      completes := ?_ }
  · rw [hu.requests, outstanding]
    cases (s.run is).session.pendingRead <;> simp
  · intro hlt
    have hp := hiff.2 hlt
    exact ⟨hp, hs.continues hu h (hu.event_of_transferring h he hW hp)⟩
  · intro heq
    have hnot : (s.run is).session.phase ≠ .transferring := fun hp => by
      have := hiff.1 hp
      omega
    obtain ⟨hp, hacked⟩ := ht.phase.resolve_left fun hp => hnot hp.1
    refine ⟨by omega, ?_, ?_, hp, hacked, step_allDone h ht.channel hp⟩
    · have := hu.length_eq
      omega
    · intro i hs'
      have hlength : (unackedOn conn is (s.run is).effects).length = 0 := by
        rw [unackedOn, List.length_drop, hu.sizes_length]
        omega
      rcases hs.last_event hs' with hr | hne
      · exact hr (h.read_none_of_phase hnot)
      · exact hne (List.length_eq_zero_iff.1 hlength)

/-- **A transfer completes under every schedule.** However the answers to reads and the
acknowledgements of chunks take turns, the transfer goes on until every chunk was read, sent and
acknowledged, and needs exactly one read and one acknowledgement for each. -/
theorem schedule_run (id : String) (total : UInt64) (delay : Nat) {before is : List Input}
    (h : OpensOnce before) (hp : ((new id total delay).run before).session.phase = .handshaking)
    (ho : ((new id total delay).run before).session.isOpen conn = true)
    (hC : 1 ≤ params.chunkSize) (hW : 1 ≤ params.sendAhead) (hR : params.resumeOffset ≤ total)
    (hs : Schedule ((new id total delay).run before).session conn params is) :
    Scheduled ((new id total delay).run before).session conn params is := by
  have hrun (js : List Input) : (((new id total delay).run before).session.run js).session =
      ((new id total delay).run (before ++ js)).session := by
    rw [run_append]
    rfl
  have hcons (js : List Input)
      (hjs : Schedule ((new id total delay).run before).session conn params js) :
      (((new id total delay).run before).session.run js).session.Consistent := by
    rw [hrun]
    exact consistent_run id total delay (hjs.opensOnce h)
  have hengaged : (((new id total delay).run before).session.run is).session.Engaged := by
    rw [hrun]
    exact engaged_run id total delay (hs.opensOnce h)
  have hC' : 1 ≤ params.chunkSize.toNat := UInt64.le_iff_toNat_le.1 hC
  have hW' : 1 ≤ params.sendAhead.toNat := UInt32.le_iff_toNat_le.1 hW
  have hu := underway_run hcons (consistent_run id total delay h) hp (isOpen_iff.1 ho) hC'
    (by rwa [total_run id total delay h]) hs
  exact hu.scheduled hs (hcons is hs) hengaged hC' hW'

/-- Six bytes in chunks of four: the second chunk is sent before the first one is acknowledged. -/
theorem schedule_run_of_two_chunks :
    Scheduled ((new "upload" 6 500).run [.start, .channelOpened ⟨1⟩]).session ⟨1⟩ ⟨4, 0, 2⟩
      [.record ⟨1⟩ (.uploadConfig ⟨4, 0, 2⟩), .chunkRead ⟨1⟩ (.ok ⟨#[0, 1, 2, 3]⟩),
        .chunkRead ⟨2⟩ (.ok ⟨#[4, 5]⟩), .record ⟨1⟩ (.chunkAck 4), .record ⟨1⟩ (.chunkAck 2)] := by
  have hs : Schedule ((new "upload" 6 500).run [.start, .channelOpened ⟨1⟩]).session ⟨1⟩ ⟨4, 0, 2⟩
      ([.record ⟨1⟩ (.uploadConfig ⟨4, 0, 2⟩)] ++ [.chunkRead ⟨1⟩ (.ok ⟨#[0, 1, 2, 3]⟩)] ++
        [.chunkRead ⟨2⟩ (.ok ⟨#[4, 5]⟩)] ++ [.record ⟨1⟩ (.chunkAck 4)] ++
        [.record ⟨1⟩ (.chunkAck 2)]) :=
    .ack (.ack (.read (.read .config rfl rfl) rfl rfl) rfl) rfl
  exact schedule_run "upload" 6 500 (by decide) (by decide) (by decide) (by decide) (by decide)
    (by decide) hs

end Session

end ResumableUpload
