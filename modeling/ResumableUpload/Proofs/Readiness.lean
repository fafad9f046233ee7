import ResumableUpload.Proofs.Completion
import ResumableUpload.Proofs.Resources

/-!
# What a session is ready for

Two things about a session decide what may come next: whether it reads on, and what its caller may
ask of it. Neither is computed when it is needed. A chunk is asked for by the very input that makes
room for it, or not at all; and the flags that permit a pause and a cancellation are set and cleared
in many places.

* `Session.MayRead` : the circumstances in which a session asks for a chunk.
* `Session.AsksAt` : the session at the moment at which a reaction asks for one.
* `Session.readsAhead_run` : a session reads on as long as the window has room and the file has
  bytes, and never otherwise.
* `Snapshot.Candid` : the flags of a snapshot follow from the rest of it.
* `Session.HeedsCancel` : the flag for a cancellation decides what becomes of one.
* `Session.candid_run` : the flags are always exact.
-/

namespace ResumableUpload

section Requests

variable (e : Effect) (es fs : List Effect)

@[simp] theorem requestsIn_nil : requestsIn [] = 0 := rfl

@[simp] theorem requestsIn_cons :
    requestsIn (e :: es) = requestsIn es + if e.isRequest then 1 else 0 :=
  List.countP_cons

@[simp] theorem requestsIn_append : requestsIn (es ++ fs) = requestsIn es + requestsIn fs :=
  List.countP_append

theorem requestsIn_ne_zero {es : List Effect} {read : ReadId} {range : ByteRange}
    (h : .readChunk read range ∈ es) : requestsIn es ≠ 0 :=
  Nat.pos_iff_ne_zero.1 (List.countP_pos_iff.2 ⟨_, h, rfl⟩)

end Requests

namespace Session

open Reaction (quiet ask tell)

variable {s : Session} {i : Input} {r : Reaction}

/-! ### When a chunk is asked for -/

/-- The circumstances in which a session asks for a chunk. -/
structure MayRead (s : Session) : Prop where
  /-- In particular no cancellation is under way. -/
  phase_eq : s.phase = .transferring
  connected : s.openConnection.isSome = true
  unread : s.pendingRead = none
  room : ∃ w, s.window = some w ∧ w.chunks < w.limit
  unsent : s.sent < s.total.toNat

/-- The reaction asks for a chunk when the session is `u`: it has asked for none before, and it
changes the session no more. -/
structure AsksAt (u : Session) (r : Reaction) : Prop where
  effects_eq : ∃ es, requestsIn es = 0 ∧ r.effects = es ++ u.requestNextChunk.effects
  session_eq : r.session = u.requestNextChunk.session

/-- A session that asks for a chunk may read one. -/
theorem mayRead_of_asks (h : s.Consistent) (ha : requestsIn s.requestNextChunk.effects ≠ 0) :
    s.MayRead := by
  rcases s.requestNextChunk_cases with hq | ⟨w, hp, ho, hw, hopen, -⟩
  · simp [hq] at ha
  · obtain ⟨hroom, -, hsent, -⟩ := Window.isOpen_eq_true_iff.1 hopen
    exact ⟨hp, ho, h.unread_of_isOpen hw hopen, ⟨w, hw, hroom⟩, hsent⟩

@[simp] theorem requestsIn_timerRelease : requestsIn s.timerRelease = 0 := by
  cases h : s.retry.armed <;> simp [timerRelease, h, Effect.isRequest]

@[simp] theorem requestsIn_readRelease : requestsIn s.readRelease = 0 := by
  cases h : s.pendingRead <;> simp [readRelease, h, Effect.isRequest]

@[simp] theorem requestsIn_channelRelease : requestsIn s.channelRelease = 0 := by
  cases h : s.channel <;> simp [channelRelease, h, Effect.isRequest]

@[simp] theorem requestsIn_releases : requestsIn s.releases = 0 := by
  simp [releases]

@[simp] theorem requestsIn_goodbye : requestsIn s.goodbye = 0 := by
  cases h : s.openConnection <;> simp [goodbye, h, Effect.isRequest]

/-- A reaction asks for no chunk, or it does so last and from a consistent session. -/
theorem asksAt_of_transition (h : s.Consistent) (ht : s.Transition i r) :
    requestsIn r.effects = 0 ∨ ∃ u : Session, u.Consistent ∧ u.AsksAt r := by
  cases ht with
  | @configBegins conn params hp hc hr hlt =>
    exact .inr ⟨_, h.begun hp hc hr hlt, ⟨[.sendRecord conn .ack], rfl, by simp⟩, rfl⟩
  | ackContinues hp hc hr => exact .inr ⟨_, h.acknowledged hr, ⟨[], rfl, by simp⟩, rfl⟩
  | sent hr hc hd =>
    rw [sendChunk_endRead]
    exact .inr ⟨_, h.chunkSent hr hd, ⟨[_], rfl, rfl⟩, rfl⟩
  | _ =>
    left
    simp [Effect.isRequest, finishCancel, onServerCancel, violate, endWith, awaitRetry_eq,
      abandonCancel]

theorem AsksAt.snapshot_eq {u : Session} (ha : u.AsksAt r) : r.session.snapshot = u.snapshot := by
  rw [ha.session_eq, requestNextChunk_snapshot]

theorem AsksAt.requests_ne_zero {u : Session} (ha : u.AsksAt r) (hr : requestsIn r.effects ≠ 0) :
    requestsIn u.requestNextChunk.effects ≠ 0 := by
  obtain ⟨es, hes, heffects⟩ := ha.effects_eq
  rwa [heffects, requestsIn_append, hes, Nat.zero_add] at hr

/-- The chunk that is asked for is pending from then on. -/
theorem pendingRead_of_mem_request {read : ReadId} {range : ByteRange}
    (h : .readChunk read range ∈ s.requestNextChunk.effects) :
    s.requestNextChunk.session.pendingRead = some (read, range) := by
  rcases s.requestNextChunk_cases with hq | ⟨w, -, -, -, -, hq⟩ <;> rw [hq] at h ⊢
  · cases h
  · obtain ⟨rfl, rfl⟩ : read = _ ∧ range = _ := by simpa using h
    rfl

theorem AsksAt.pendingRead_eq {u : Session} {read : ReadId} {range : ByteRange}
    (ha : u.AsksAt r) (hr : .readChunk read range ∈ r.effects) :
    r.session.pendingRead = some (read, range) := by
  obtain ⟨es, hes, heffects⟩ := ha.effects_eq
  rw [heffects, List.mem_append] at hr
  have hmem := hr.resolve_left fun hmem => requestsIn_ne_zero hmem hes
  rw [ha.session_eq]
  exact pendingRead_of_mem_request hmem

/-- How a session reads ahead in a run. -/
structure ReadsAhead (s : Session) (is : List Input) : Prop where
  /-- A transfer on an open channel that reads nothing has filled its window or sent the file. -/
  full : (s.run is).session.phase = .transferring →
    (s.run is).session.openConnection.isSome = true →
    (s.run is).session.pendingRead = none →
      (s.run is).session.snapshot.limit = some (s.run is).session.snapshot.chunksInFlight ∨
        (s.run is).session.sent = (s.run is).session.total.toNat
  /-- A chunk is asked for only where one may be read. Everybody sees the session as it was at that
  moment, and the chunk that was asked for is the one that is pending from then on. -/
  asks : ∀ before i after read range, is = before ++ i :: after →
    .readChunk read range ∈ ((s.run before).session.step i).effects →
      ∃ u : Session, u.AsksAt ((s.run before).session.step i) ∧ u.MayRead ∧
        ((s.run before).session.step i).session.snapshot = u.snapshot ∧
        ((s.run before).session.step i).session.pendingRead = some (read, range)
  /-- Also for those who perform the effects no other read is under way. -/
  alone : ∀ os read range rest, s.history is = os ++ .asked (.readChunk read range) :: rest →
    ∀ x ∈ (custody os).outstanding, x.kind ≠ .read

/-- **The window is never left idle, and never overrun.** -/
theorem readsAhead_run (id : String) (total : UInt64) (delay : Nat) {is : List Input}
    (h : OpensOnce is) : (new id total delay).ReadsAhead is := by
  constructor
  · intro hp ho hr
    have hcons := consistent_run id total delay h
    obtain ⟨w, hw⟩ := Option.isSome_iff_exists.1 (hcons.announced (by simp [handler, hp]))
    have hle := hcons.balanced.sent_le_total
    have hlimit := hcons.balanced.inFlight_le
    simp only [Snapshot.books, snapshot, hw, Option.map_some, Option.getD_some, Option.some.injEq,
      forall_eq'] at hle hlimit ⊢
    rcases engaged_run id total delay h hp ho hr w hw with hfull | hall
    · exact .inl (Nat.le_antisymm hfull hlimit)
    · exact .inr (Nat.le_antisymm hle hall)
  · rintro before i after read range rfl hr
    have hpre : before ++ [i] <+: before ++ i :: after := ⟨after, by simp⟩
    have hopens := h.of_prefix hpre
    have hcons := consistent_run id total delay hopens.init
    rcases asksAt_of_transition hcons (transition_run id total delay hopens) with hnone | hasks
    · exact absurd hnone (requestsIn_ne_zero hr)
    · obtain ⟨u, hu, ha⟩ := hasks
      have hmay := mayRead_of_asks hu (ha.requests_ne_zero (requestsIn_ne_zero hr))
      exact ⟨u, ha, hmay, ha.snapshot_eq, ha.pendingRead_eq hr⟩
  · intro os read range rest he
    have hpre : os ++ [.asked (.readChunk read range)] <+: (new id total delay).history is :=
      ⟨rest, by rw [he, List.append_assoc, List.singleton_append]⟩
    obtain ⟨f, -, hf⟩ := shows_run id total delay h hpre
    rw [custody_concat] at hf
    exact (Custody.Sound.not_mem_of_acquires (x := ⟨.read, read.number⟩) rfl hf.sound).2

/-- One chunk in flight fills a window of one, and no other chunk is asked for. -/
theorem readsAhead_run_of_full_window :
    OpensOnce [.start, .channelOpened ⟨1⟩, .record ⟨1⟩ (.uploadConfig ⟨4, 2, 1⟩),
      .chunkRead ⟨1⟩ (.ok ⟨#[0, 1, 2, 3]⟩)] ∧
    (new "upload" 10 500).ReadsAhead [.start, .channelOpened ⟨1⟩,
      .record ⟨1⟩ (.uploadConfig ⟨4, 2, 1⟩), .chunkRead ⟨1⟩ (.ok ⟨#[0, 1, 2, 3]⟩)] ∧
    ((new "upload" 10 500).run [.start, .channelOpened ⟨1⟩,
      .record ⟨1⟩ (.uploadConfig ⟨4, 2, 1⟩),
      .chunkRead ⟨1⟩ (.ok ⟨#[0, 1, 2, 3]⟩)]).session.pendingRead = none :=
  ⟨by decide, readsAhead_run "upload" 10 500 (by decide), by decide⟩

end Session

/-! ### What the flags permit -/

/-- The flags of a snapshot follow from what else it shows. -/
structure Snapshot.Candid (p : Snapshot) : Prop where
  /-- It does not matter whether the connection is up. -/
  canCancel_iff : p.canCancel = true ↔
    p.phase = .connecting ∨ p.phase = .handshaking ∨ p.phase = .transferring ∧ p.sent < p.total
  canPause_iff : p.phase ≠ .paused →
    (p.canPause = true ↔
      p.retryPending = true ∨ p.phase = .transferring ∧ p.connected = true ∧ p.sent < p.total)

namespace Session

open Reaction (quiet)

variable {s : Session} {reason : String}

/-- In a transfer every channel is open. -/
theorem Consistent.connected_iff (h : s.Consistent) (hp : s.phase = .transferring) :
    s.snapshot.connected = true ↔ s.channel.isSome = true := by
  cases hc : s.channel with
  | none => simp [snapshot, openConnection, hc]
  | some c =>
    have ho := (h.open_iff (by simp [hp, Phase.isLive]) c hc).2 (by simp [hp])
    simp [snapshot, openConnection, hc, ho]

theorem Consistent.candid (h : s.Consistent) : s.snapshot.Candid where
  canCancel_iff := h.canCancel_iff
  canPause_iff hp := by
    refine (h.canPause_iff hp).trans (or_congr Iff.rfl ?_)
    refine and_congr_right fun ht => ?_
    rw [h.connected_iff ht]
    rfl

/-- What becomes of a cancellation by the caller. -/
structure HeedsCancel (s : Session) (reason : String) : Prop where
  refused : s.canCancel = false → s.step (.cancel reason) = quiet s
  /-- The server is asked first, if it can be. -/
  granted : s.canCancel = true →
    (s.step (.cancel reason)).session.phase =
      if s.openConnection.isSome then .cancelling else .cancelled
  changes_iff : (s.step (.cancel reason)).session ≠ s ↔ s.canCancel = true

theorem step_cancel_of_not_canCancel (h : s.canCancel = false) :
    s.step (.cancel reason) = quiet s := by
  simp [step, cancel, h]

theorem Consistent.phase_of_cancel (h : s.Consistent) (hcan : s.canCancel = true) :
    (s.step (.cancel reason)).session.phase =
      if s.openConnection.isSome then .cancelling else .cancelled := by
  have hphase := h.canCancel_iff.1 hcan
  have hcancel : s.step (.cancel reason) = s.beginCancel reason s.phase := by
    rw [Session.step, cancel, if_neg]
    rintro (hp | hnot)
    · simp [hp] at hphase
    · exact hnot hcan
  rw [hcancel]
  cases ho : s.openConnection with
  | some conn =>
    rw [beginCancel_of_open s ho]
    rfl
  | none => simp [beginCancel_of_not_open s ho]

theorem Consistent.heedsCancel (h : s.Consistent) (reason : String) : s.HeedsCancel reason where
  refused := step_cancel_of_not_canCancel
  granted := h.phase_of_cancel
  changes_iff := by
    constructor
    · intro hne
      by_contra hcan
      exact hne (by rw [step_cancel_of_not_canCancel (Bool.eq_false_iff.2 hcan), quiet])
    · -- a session that can be cancelled is in neither of the phases that it may get to
      intro hcan heq
      have hphase := h.canCancel_iff.1 hcan
      have hp : (s.step (.cancel reason)).session.phase = _ := h.phase_of_cancel hcan
      rw [heq] at hp
      rw [hp] at hphase
      split at hphase <;> simp at hphase

/-- **The flags of a session are exact**, and the one for a cancellation decides whether there is
one. -/
theorem candid_run (id : String) (total : UInt64) (delay : Nat) {is : List Input}
    (h : OpensOnce is) :
    ((new id total delay).run is).session.snapshot.Candid ∧
      ∀ reason, ((new id total delay).run is).session.HeedsCancel reason := by
  have hcons := consistent_run id total delay h
  exact ⟨hcons.candid, hcons.heedsCancel⟩

/-- A transfer that has lost its channel can be paused and cancelled, for its timer is armed and
not all of the file is sent. -/
theorem candid_run_of_lost_channel :
    OpensOnce [.start, .channelOpened ⟨1⟩, .record ⟨1⟩ (.uploadConfig ⟨4, 2, 2⟩),
      .channelClosed ⟨1⟩] ∧
    ((new "upload" 10 500).run [.start, .channelOpened ⟨1⟩,
      .record ⟨1⟩ (.uploadConfig ⟨4, 2, 2⟩), .channelClosed ⟨1⟩]).session.snapshot.Candid ∧
    ((new "upload" 10 500).run [.start, .channelOpened ⟨1⟩,
      .record ⟨1⟩ (.uploadConfig ⟨4, 2, 2⟩), .channelClosed ⟨1⟩]).session.HeedsCancel "late" := by
  have hopens : OpensOnce [.start, .channelOpened ⟨1⟩, .record ⟨1⟩ (.uploadConfig ⟨4, 2, 2⟩),
      .channelClosed ⟨1⟩] := by decide
  obtain ⟨hcandid, hheeds⟩ := candid_run "upload" 10 500 hopens
  exact ⟨hopens, hcandid, hheeds "late"⟩

end Session

end ResumableUpload
