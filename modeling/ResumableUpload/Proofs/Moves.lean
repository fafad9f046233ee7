import ResumableUpload.Proofs.Reachable

/-!
# What a transition does to the transfer

Most reactions of a session leave the transfer of bytes alone. `Session.Move` sorts the transitions
by what they do to it:

* `kept` : nothing, except that they may end it;
* `reconnected` : it is to go on from the acknowledged offset on a new connection;
* `announced` : it begins at the offset that the server announces;
* `acknowledged` and `sent` : a chunk of it is acknowledged, or handed to the channel.

`Session.Transition.move` shows that every transition is one of these, and `Session.Move.chunks`
that a chunk is handed to a channel by the last kind only.
-/

namespace ResumableUpload

@[ext] theorem ConnectionId.ext {c d : ConnectionId} (h : c.number = d.number) : c = d := by
  cases c; cases d; exact congrArg mk h

/-- The chunk that an effect hands to this channel. -/
def Effect.chunkOn? (c : ConnectionId) : Effect → Option ByteArray
  | sendChunk conn data => if conn = c then some data else none
  | _ => none

/-- The chunks handed to a channel, in order. -/
def chunksOn (c : ConnectionId) (es : List Effect) : List ByteArray := es.filterMap (·.chunkOn? c)

@[simp] theorem chunksOn_nil (c : ConnectionId) : chunksOn c [] = [] := rfl

@[simp] theorem chunksOn_cons (c : ConnectionId) (e : Effect) (es : List Effect) :
    chunksOn c (e :: es) = (e.chunkOn? c).toList ++ chunksOn c es := by
  cases h : e.chunkOn? c <;> simp [chunksOn, h]

@[simp] theorem chunksOn_append (c : ConnectionId) (es fs : List Effect) :
    chunksOn c (es ++ fs) = chunksOn c es ++ chunksOn c fs :=
  List.filterMap_append

namespace Session

open Reaction (quiet ask tell)
open Wire (ServerRecord UploadParams)

/-- How far the transfer is. -/
structure Progress where
  connections : Nat
  sent : Nat
  acked : Nat
  chunkSize : Option Nat
  deriving DecidableEq, Repr

/-- How far the transfer of a session is. -/
def progress (s : Session) : Progress :=
  ⟨s.connections, s.sent, s.acked, s.window.map Window.chunkSize⟩

/-- The parameters of the latest connection are still to come. -/
def AwaitsParams (s : Session) : Prop := s.handler = .connecting ∨ s.handler = .handshaking

/-- The parameters of the latest connection have come and left something to send. -/
def Transfers (s : Session) : Prop := s.handler = .transferring

/-- The parameters that an input announces on a connection, if the session takes them. -/
def announcedOn (s : Session) (c : ConnectionId) : Input → Option UploadParams
  | .record conn (.uploadConfig params) =>
    if conn = c ∧ s.isOpen c ∧ s.Accepts (.uploadConfig params) then some params else none
  | _ => none

/-- An answered read: what it was to fetch, and what it brought. -/
structure Delivery where
  read : ReadId
  range : ByteRange
  data : ByteArray

/-- The answer that an input brings to the pending read, if it makes a chunk for this channel. -/
def deliveredOn (s : Session) (c : ConnectionId) : Input → Option Delivery
  | .chunkRead read (.ok data) =>
    s.pendingRead.bind fun pending =>
      if pending.1 = read ∧ data.size = pending.2.length ∧ s.isOpen c then
        some ⟨read, pending.2, data⟩
      else none
  | _ => none

/-- The input brings nothing to the transfer. -/
def Neutral (s : Session) (i : Input) : Prop :=
  ∀ c, s.announcedOn c i = none ∧ s.deliveredOn c i = none

/-- The transfer has not got to an earlier stage or to one that it had not reached. -/
structure StageFrom (s' s : Session) : Prop where
  awaits : s'.AwaitsParams → s.AwaitsParams
  transfers : s'.Transfers → s.Transfers

/-- What a transition does to the transfer. -/
inductive Move (s : Session) : Input → Reaction → Prop
  | kept {i : Input} {r : Reaction} (hp : r.session.progress = s.progress)
      (hs : r.session.StageFrom s) (he : ∀ c, chunksOn c r.effects = [])
      (hi : s.Neutral i) : Move s i r
  | reconnected {i : Input} {r : Reaction} (hr : r.session = s.reconnected)
      (he : ∀ c, chunksOn c r.effects = []) (hi : s.Neutral i) : Move s i r
  | announced {conn : ConnectionId} {params : UploadParams} {r : Reaction}
      (hc : s.channel = some ⟨conn, true⟩) (hr : s.Accepts (.uploadConfig params))
      (hp : r.session.progress = ⟨s.connections, params.resumeOffset.toNat,
        params.resumeOffset.toNat, some params.chunkSize.toNat⟩)
      (he : ∀ c, chunksOn c r.effects = []) : Move s (.record conn (.uploadConfig params)) r
  | acknowledged {conn : ConnectionId} {size : UInt64} {r : Reaction}
      (hc : s.channel = some ⟨conn, true⟩) (hr : s.Accepts (.chunkAck size))
      (hp : r.session.progress = { s.progress with acked := s.acked + size.toNat })
      (hs : r.session.StageFrom s) (he : ∀ c, chunksOn c r.effects = []) :
      Move s (.record conn (.chunkAck size)) r
  | sent {conn : ConnectionId} {read : ReadId} {range : ByteRange} {data : ByteArray}
      {r : Reaction} (hc : s.channel = some ⟨conn, true⟩)
      (hr : s.pendingRead = some (read, range)) (hd : data.size = range.length)
      (hp : r.session.progress = { s.progress with sent := s.sent + data.size })
      (hs : r.session.StageFrom s)
      (he : ∀ c, chunksOn c r.effects = if conn = c then [data] else []) :
      Move s (.chunkRead read (.ok data)) r

variable {s : Session} {i : Input} {r : Reaction}

/-! ### Effects that are no chunks -/

@[simp] theorem chunksOn_timerRelease (c : ConnectionId) : chunksOn c s.timerRelease = [] := by
  cases h : s.retry.armed <;> simp [timerRelease, h, Effect.chunkOn?]

@[simp] theorem chunksOn_readRelease (c : ConnectionId) : chunksOn c s.readRelease = [] := by
  cases h : s.pendingRead <;> simp [readRelease, h, Effect.chunkOn?]

@[simp] theorem chunksOn_channelRelease (c : ConnectionId) :
    chunksOn c s.channelRelease = [] := by
  cases h : s.channel <;> simp [channelRelease, h, Effect.chunkOn?]

@[simp] theorem chunksOn_releases (c : ConnectionId) : chunksOn c s.releases = [] := by
  simp [releases]

@[simp] theorem chunksOn_goodbye (c : ConnectionId) : chunksOn c s.goodbye = [] := by
  cases h : s.openConnection <;> simp [goodbye, h, Effect.chunkOn?]

@[simp] theorem chunksOn_requestNextChunk (c : ConnectionId) :
    chunksOn c s.requestNextChunk.effects = [] := by
  rcases s.requestNextChunk_cases with h | ⟨w, -, -, -, -, h⟩ <;> simp [h, Effect.chunkOn?]

/-! ### Stages -/

theorem Transfers.not_awaitsParams (h : s.Transfers) : ¬s.AwaitsParams := by
  rintro (ha | ha) <;> cases h.symm.trans ha

theorem requestNextChunk_handler : s.requestNextChunk.session.handler = s.handler := by
  rw [requestNextChunk_session]
  rfl

namespace StageFrom

theorem of_handler_eq {s' : Session} (h : s'.handler = s.handler) : s'.StageFrom s where
  awaits := by simp [AwaitsParams, h]
  transfers := by simp [Transfers, h]

/-- A transfer that is over is at neither stage. -/
theorem of_over {s' : Session} (h : s'.phase.isTerminal = true ∨ s'.phase = .paused) :
    s'.StageFrom s where
  awaits ha := by
    cases hp : s'.phase <;> simp [AwaitsParams, handler, hp, Phase.isTerminal] at h ha
  transfers ht := by
    cases hp : s'.phase <;> simp [Transfers, handler, hp, Phase.isTerminal] at h ht

/-- The parameters have come, and do not come a second time. -/
theorem of_transfers {s' : Session} (h : s.Transfers) (ha : ¬s'.AwaitsParams) :
    s'.StageFrom s where
  awaits hs := absurd hs ha
  transfers _ := h

end StageFrom

theorem progress_released : s.released.progress = s.progress := by
  simp [progress, released]

theorem progress_acknowledged (s : Session) (size : Nat) :
    (s.acknowledged size).progress = { s.progress with acked := s.acked + size } := by
  simp [progress, Session.acknowledged, Function.comp_def]

theorem progress_chunkSent (s : Session) (size : Nat) :
    (s.chunkSent size).progress = { s.progress with sent := s.sent + size } := by
  simp [progress, Session.chunkSent, Function.comp_def]

theorem requestNextChunk_progress : s.requestNextChunk.session.progress = s.progress := by
  have hsize := congrArg Snapshot.chunkSize s.requestNextChunk_snapshot
  rw [progress, requestNextChunk_connections, requestNextChunk_sent, requestNextChunk_acked]
  exact congrArg (Progress.mk s.connections s.sent s.acked) hsize

theorem neutral_of_not_accepts {conn : ConnectionId} {r : ServerRecord} (hr : ¬s.Accepts r) :
    s.Neutral (.record conn r) := by
  intro c
  cases r with
  | uploadConfig params => exact ⟨if_neg fun h => hr h.2.2, rfl⟩
  | _ => exact ⟨rfl, rfl⟩

theorem neutral_of_ignores (hi : s.Ignores i) : s.Neutral i := by
  intro c
  cases i with
  | record conn r =>
    have hc : s.isOpen conn = false := hi
    cases r with
    | uploadConfig params =>
      refine ⟨if_neg ?_, rfl⟩
      rintro ⟨rfl, ho, -⟩
      simp [hc] at ho
    | _ => exact ⟨rfl, rfl⟩
  | chunkRead read result =>
    cases result with
    | error e => exact ⟨rfl, rfl⟩
    | ok data =>
      refine ⟨rfl, ?_⟩
      -- the answer is stale: nothing is pending, or another read
      cases hr : s.pendingRead with
      | none => simp [deliveredOn, hr]
      | some pending =>
        have hne : pending.1 ≠ read := fun he => hi pending.2 (by rw [hr, ← he])
        simp [deliveredOn, hr, hne]
  | _ => exact ⟨rfl, rfl⟩

theorem neutral_of_readFailure {read : ReadId} {range : ByteRange}
    {result : Except Source.ReadError ByteArray} (hr : s.pendingRead = some (read, range))
    (hd : ∀ data, result = .ok data → data.size ≠ range.length) :
    s.Neutral (.chunkRead read result) := by
  intro c
  cases result with
  | error e => exact ⟨rfl, rfl⟩
  | ok data => simp [announcedOn, deliveredOn, hr, hd data rfl]

theorem announcedOn_of_accepts {conn c : ConnectionId} {params : UploadParams}
    (hc : s.channel = some ⟨conn, true⟩) (hr : s.Accepts (.uploadConfig params)) :
    s.announcedOn c (.record conn (.uploadConfig params)) =
      if conn = c then some params else none := by
  by_cases hcc : conn = c
  · subst hcc
    simp [announcedOn, isOpen_iff.2 hc, hr]
  · simp [announcedOn, hcc]

theorem deliveredOn_of_pending {conn c : ConnectionId} {read : ReadId} {range : ByteRange}
    {data : ByteArray} (hc : s.channel = some ⟨conn, true⟩)
    (hr : s.pendingRead = some (read, range)) (hd : data.size = range.length) :
    s.deliveredOn c (.chunkRead read (.ok data)) =
      if conn = c then some ⟨read, range, data⟩ else none := by
  have ho : s.isOpen c = true ↔ conn = c := by simp [isOpen_iff, hc]
  simp [deliveredOn, hr, hd, ho]

/-! ### Every transition is a move -/

/-- **Every transition is a move.** -/
theorem Transition.move (ht : s.Transition i r) : s.Move i r := by
  cases ht with
  | ignored hi => exact .kept rfl (.of_handler_eq rfl) (fun _ => rfl) (neutral_of_ignores hi)
  | restarted => exact .reconnected rfl (by simp [Effect.chunkOn?]) fun _ => ⟨rfl, rfl⟩
  | unpaused => exact .reconnected rfl (by simp [Effect.chunkOn?]) fun _ => ⟨rfl, rfl⟩
  | retried => exact .reconnected rfl (by simp [Effect.chunkOn?]) fun _ => ⟨rfl, rfl⟩
  -- the channel opens between two phases that both await the parameters
  | opened hp hc =>
    refine .kept rfl ⟨fun _ => ?_, fun ht => ?_⟩ (by simp [Effect.chunkOn?]) fun _ => ⟨rfl, rfl⟩
    · simp [AwaitsParams, handler, hp]
    · simp [Transfers, handler] at ht
  | suspended =>
    refine .kept ?_ (.of_over (.inr rfl)) (by simp) fun _ => ⟨rfl, rfl⟩
    simp [progress, Session.suspended]
  -- a cancellation keeps the stage: records are still handled as before it
  | cancelSent _ hm | serverFailed hm _ =>
    refine .kept ?_ (.of_handler_eq ?_) (by simp [Effect.chunkOn?]) fun _ => ⟨rfl, rfl⟩
    · simp [progress, Session.cancelling]
    · simp [Session.cancelling, handler, hm.phase_ne]
  | readFailed failure hr hd hc hm =>
    refine .kept ?_ (.of_handler_eq ?_) (by simp [Effect.chunkOn?]) (neutral_of_readFailure hr hd)
    · simp [progress, Session.cancelling]
    · simp [Session.cancelling, handler, hm.phase_ne]
  | cancelledOffline =>
    refine .kept ?_ (.of_over (.inl ?_)) (by simp) fun _ => ⟨rfl, rfl⟩
    · simp [progress, released]
    · simp [Phase.isTerminal]
  | cancelConfirmed | serverCancelled | undecodable | finished | failedCompleting =>
    refine .kept ?_ (.of_over (.inl ?_)) ?_ fun _ => ⟨rfl, rfl⟩
    · simp [finishCancel, onServerCancel, violate, endWith, progress_released]
      rfl
    · simp [finishCancel, onServerCancel, violate, endWith, released, Phase.isTerminal]
    · simp [finishCancel, onServerCancel, violate, endWith]
  | violated v hc hr =>
    refine .kept ?_ (.of_over (.inl ?_)) ?_ (neutral_of_not_accepts hr)
    · simp [violate, progress_released]
      rfl
    · simp [violate, released, Phase.isTerminal]
    · simp [violate]
  | failedUncancelled =>
    refine .kept ?_ (.of_over (.inl ?_)) ?_ fun _ => ⟨rfl, rfl⟩
    · simp [progress_released]
      rfl
    · simp [released, Phase.isTerminal]
    · simp
  | errorNoted => exact .kept rfl (.of_handler_eq rfl) (fun _ => rfl) fun _ => ⟨rfl, rfl⟩
  | configNoted hp hc hr => exact .announced hc hr rfl fun _ => rfl
  | configCompletes hp hc hr =>
    exact .announced hc hr rfl (by simp [Effect.chunkOn?])
  | configBegins hp hc hr =>
    refine .announced hc hr ?_ (by simp [Effect.chunkOn?])
    simp only [Reaction.andThen_session, Reaction.tell_session, requestNextChunk_progress]
    rfl
  | ackNoted hp hc hr =>
    exact .acknowledged hc hr (progress_acknowledged s _) (.of_handler_eq rfl) fun _ => rfl
  | ackCompletes hp hc hr =>
    refine .acknowledged hc hr (progress_acknowledged s _) (.of_transfers hr.1 ?_) fun _ => rfl
    simp [AwaitsParams, handler]
  | ackContinues hp hc hr =>
    refine .acknowledged hc hr ?_ (.of_handler_eq ?_) (by simp)
    · simp only [Reaction.andThen_session, Reaction.tell_session, requestNextChunk_progress,
        progress_acknowledged]
    · simp only [Reaction.andThen_session, Reaction.tell_session, requestNextChunk_handler]
      rfl
  | @sent conn _ _ _ hr hc hd =>
    rw [sendChunk_endRead]
    refine .sent hc hr hd ?_ (.of_handler_eq ?_) ?_
    · simp only [requestNextChunk_progress]
      exact progress_chunkSent s _
    · simp only [requestNextChunk_handler]
      rfl
    · intro c
      by_cases hcc : conn = c <;> simp [Effect.chunkOn?, hcc]
  | lost =>
    refine .kept ?_ (.of_handler_eq ?_) ?_ fun _ => ⟨rfl, rfl⟩
    · simp [awaitRetry_eq, progress, endRead]
    · simp [awaitRetry_eq, handler, endRead]
    · simp [awaitRetry_eq, Effect.chunkOn?]
  | cancelLost =>
    refine .kept ?_ (.of_over (.inl ?_)) ?_ fun _ => ⟨rfl, rfl⟩
    · simp [abandonCancel, progress, endRead]
    · simp [abandonCancel, Phase.isTerminal]
    · simp [abandonCancel]

/-- A channel is handed the data of the answers that a move takes for it, and nothing else. -/
theorem Move.chunks (h : s.Move i r) (c : ConnectionId) :
    chunksOn c r.effects = (s.deliveredOn c i).toList.map (·.data) := by
  cases h with
  | kept _ _ he hi => rw [he, (hi c).2]; rfl
  | reconnected _ he hi => rw [he, (hi c).2]; rfl
  | announced _ _ _ he => exact he c
  | acknowledged _ _ _ _ he => exact he c
  | sent hc hr hd _ _ he =>
    rw [he, deliveredOn_of_pending hc hr hd]
    split <;> rfl

end Session

end ResumableUpload
