import Mathlib.Data.List.Induction
import Mathlib.Data.List.Nodup
import ResumableUpload.Proofs.Transitions

/-!
# Reachable sessions are consistent

Each kind of transition keeps a session consistent (`Session.Consistent.step`), and hence so does
every list of inputs in which no channel is reported open twice (`Session.consistent_run`).
`Session.run_induction` is the induction over such lists that later modules use, and
`Session.tidy_run` says what such a list leaves a session with.
-/

namespace ResumableUpload

namespace Session

open Reaction (quiet ask tell)
open Wire (UploadParams)

variable {s : Session}

namespace Consistent

/-! ### What each kind of transition keeps -/

theorem paused_eq_false (h : s.Consistent) (hp : s.phase ≠ .paused) : s.paused = false := by
  by_contra hc
  exact hp (h.paused_iff.1 (by simpa using hc))

theorem any_readFinished (o : Option Window) :
    (o.map Window.readFinished).any (·.reading) = false := by
  cases o <;> rfl

/-- All that is held is given up for good. -/
theorem released (h : s.Consistent) (hp : s.phase ≠ .paused) {p : Phase}
    (ht : p.isTerminal = true)
    (hf : p = .finished → s.acked = s.total.toNat ∧ s.sent = s.total.toNat)
    (e : Option SessionError) (c r : Option String) (i : Option Phase) :
    Consistent (Session.released
      { s with
        phase := p, error := e, cancelReason := c, pendingReason := r, interrupted := i }) := by
  have hpaused := h.paused_eq_false hp
  have hb := h.balanced
  rw [← released_books] at hb
  -- only the phases that end a session are left
  cases p <;> try cases ht
  all_goals
    exact
      { idle := fun _ => ⟨rfl, rfl, rfl⟩
        live := fun h => by cases h
        open_iff := fun h => by cases h
        cancelling := fun h => by cases h
        paused_iff := by simp [Session.released, hpaused]
        reading_iff := any_readFinished s.window
        read := fun _ _ h => by cases h
        complete := fun hp => hf (hp.resolve_left (by rintro ⟨⟩))
        balanced := hb
        canCancel_iff := by simp [Session.released]
        canPause_iff := by simp [Session.released]
        unsent := by simp [handler, Session.released]
        announced := by simp [handler, Session.released]
        channel_latest := fun _ h => by cases h
        read_latest := fun _ _ h => by cases h
        timer_latest := fun _ h => by cases h }

/-- A new channel is asked for. -/
theorem reconnected (h : s.Consistent) : s.reconnected.Consistent where
  idle hi := by cases hi
  live _ := rfl
  open_iff _ c hc := by
    obtain rfl : _ = c := Option.some.inj hc
    simp [Session.reconnected]
  cancelling hx := by cases hx
  paused_iff := by simp [Session.reconnected]
  reading_iff := by cases hw : s.window <;> simp [Session.reconnected, hw, Window.reset,
    Window.empty]
  read _ _ hr := by cases hr
  complete hc := by simp [Session.reconnected] at hc
  balanced := by
    have hb := h.balanced
    refine ⟨?_, ?_, ?_, ?_⟩
    -- what was in flight is to be sent again, and the window is empty
    · have := hb.sent_le_total
      have := hb.sent_eq
      simp only [Snapshot.books, snapshot, Session.reconnected] at *
      omega
    · cases hw : s.window <;> simp [Snapshot.books, snapshot, Session.reconnected, hw,
        Window.reset, Window.empty]
    · cases hw : s.window <;> simp [Snapshot.books, snapshot, Session.reconnected, hw,
        Window.reset, Window.empty]
    · cases hw : s.window <;> simp [Snapshot.books, snapshot, Session.reconnected, hw,
        Window.reset, Window.empty]
  canCancel_iff := by simp [Session.reconnected]
  canPause_iff := by simp [Session.reconnected]
  unsent _ := ⟨rfl, rfl, rfl⟩
  announced ha := by simp [Session.reconnected, handler] at ha
  channel_latest c hc := by
    obtain rfl : _ = c := Option.some.inj hc
    rfl
  read_latest _ _ hr := by cases hr
  timer_latest _ ht := by cases ht

/-- The channel that was asked for is open. -/
theorem opened (h : s.Consistent) {conn : ConnectionId} (hp : s.phase = .connecting)
    (hc : s.channel = some ⟨conn, false⟩) :
    Consistent { s with channel := some ⟨conn, true⟩, phase := .handshaking } where
  idle hi := by cases hi
  live _ := by simp [h.armed_of_channel hc]
  open_iff _ c hc := by
    obtain rfl : _ = c := Option.some.inj hc
    simp
  cancelling hx := by cases hx
  paused_iff := by simp [h.paused_eq_false (by simp [hp])]
  reading_iff := h.reading_iff
  read _ _ hr := by simp [h.read_none_of_phase (by simp [hp])] at hr
  complete hc := by simp at hc
  balanced := h.balanced
  canCancel_iff := by simp [h.canCancel_iff, hp]
  canPause_iff _ := by
    simpa [hp, h.armed_of_channel hc] using h.canPause_iff (by simp [hp])
  unsent _ := h.unsent (.inl (by simp [handler, hp]))
  announced ha := by simp [handler] at ha
  channel_latest c hc' := by
    obtain rfl : _ = c := Option.some.inj hc'
    exact h.channel_latest ⟨conn, false⟩ hc
  read_latest := h.read_latest
  timer_latest := h.timer_latest

/-- The caller pauses. -/
theorem suspended (h : s.Consistent) : s.suspended.Consistent where
  idle _ := ⟨rfl, rfl, rfl⟩
  live hl := by cases hl
  open_iff hl := by cases hl
  cancelling hx := by cases hx
  paused_iff := by simp [Session.suspended]
  reading_iff := any_readFinished s.window
  read _ _ hr := by cases hr
  complete hc := by simp [Session.suspended] at hc
  balanced := by
    rw [suspended_books]
    exact h.balanced
  canCancel_iff := by simp [Session.suspended]
  canPause_iff hp := absurd rfl hp
  unsent hu := by simp [Session.suspended, handler] at hu
  announced ha := by simp [Session.suspended, handler] at ha
  channel_latest _ hc := by cases hc
  read_latest _ _ hr := by cases hr
  timer_latest _ ht := by cases ht

/-- The server is asked to cancel. -/
theorem cancelling_of_open (h : s.Consistent) {conn : ConnectionId}
    (hc : s.channel = some ⟨conn, true⟩) (hm : s.MayCancel) (reason : String)
    (e : Option SessionError) : Consistent { s.cancelling reason with error := e } where
  idle hi := by cases hi
  live hl := by cases hl
  open_iff hl := by cases hl
  cancelling _ := by
    refine ⟨⟨conn, hc⟩, rfl, rfl, ?_⟩
    rcases hm with hp | ⟨hp, -⟩
    · exact .inl (congrArg some hp)
    · exact .inr (congrArg some hp)
  paused_iff := by
    have hp : s.phase ≠ .paused := by rcases hm with hp | ⟨hp, -⟩ <;> simp [hp]
    simp [Session.cancelling, h.paused_eq_false hp]
  reading_iff := any_readFinished s.window
  read _ _ hr := by cases hr
  complete hc := by simp [Session.cancelling] at hc
  balanced := by
    have hb := h.balanced
    rw [← s.cancelling_books reason] at hb
    exact hb
  canCancel_iff := by simp [Session.cancelling]
  canPause_iff := by simp [Session.cancelling]
  unsent hu := h.unsent (by simpa [Session.cancelling, handler, hm.phase_ne] using hu)
  announced ha := by
    have := h.announced (by simpa [Session.cancelling, handler, hm.phase_ne] using ha)
    simpa [Session.cancelling] using this
  channel_latest := h.channel_latest
  read_latest _ _ hr := by cases hr
  timer_latest _ ht := by cases ht

/-- The channel is lost. -/
theorem lost (h : s.Consistent) (hl : s.phase.isLive = true) :
    Consistent
      { s with
        channel := none
        pendingRead := none
        window := s.window.map Window.readFinished
        canPause := true
        retry := ⟨some ⟨s.retry.count + 1⟩, s.retry.count + 1⟩ } where
  idle hi := by cases hp : s.phase <;> simp_all [Phase.isLive, Phase.isIdle]
  live _ := rfl
  open_iff _ _ hc := by cases hc
  cancelling hx := by cases hp : s.phase <;> simp_all [Phase.isLive]
  paused_iff := h.paused_iff
  reading_iff := any_readFinished s.window
  read _ _ hr := by cases hr
  complete := h.complete
  balanced := by
    have hb := h.balanced
    rw [← endRead_snapshot] at hb
    exact hb
  canCancel_iff := h.canCancel_iff
  canPause_iff := by simp
  unsent := h.unsent
  announced ha := by simpa using h.announced ha
  channel_latest _ hc := by cases hc
  read_latest _ _ hr := by cases hr
  timer_latest _ ht := by
    obtain rfl : _ = _ := Option.some.inj ht
    rfl

/-- The error that a session is to end with has no part in its consistency. -/
theorem errorSet (h : s.Consistent) (e : Option SessionError) :
    Consistent { s with error := e } where
  idle := h.idle
  live := h.live
  open_iff := h.open_iff
  cancelling := h.cancelling
  paused_iff := h.paused_iff
  reading_iff := h.reading_iff
  read := h.read
  complete := h.complete
  balanced := h.balanced
  canCancel_iff := h.canCancel_iff
  canPause_iff := h.canPause_iff
  unsent := h.unsent
  announced := h.announced
  channel_latest := h.channel_latest
  read_latest := h.read_latest
  timer_latest := h.timer_latest

/-! ### Announced parameters -/

theorem balanced_configured {params : UploadParams} (hle : params.resumeOffset ≤ s.total)
    (hs : s.chunksSent = 0) (ha : s.chunksAcked = 0) :
    (s.configured params).snapshot.books.Balanced where
  sent_le_total := UInt64.le_iff_toNat_le.1 hle
  sent_eq := rfl
  chunksSent_eq := by simp [Snapshot.books, snapshot, configured, hs, ha, Window.empty]
  inFlight_le n _ := Nat.zero_le n

/-- While a cancellation is not confirmed the parameters are only taken down. -/
theorem configNoted (h : s.Consistent) {params : UploadParams} (hp : s.phase = .cancelling)
    (hr : s.Accepts (.uploadConfig params)) : (s.configured params).Consistent where
  idle hi := by simp [configured, hp, Phase.isIdle] at hi
  live hl := by simp [configured, hp, Phase.isLive] at hl
  open_iff hl := by simp [configured, hp, Phase.isLive] at hl
  cancelling := h.cancelling
  paused_iff := h.paused_iff
  reading_iff := by simp [configured, h.read_none_of_phase, hp, Window.empty]
  read _ _ hr := by simp [configured, h.read_none_of_phase, hp] at hr
  complete hc := by simp [configured, hp] at hc
  balanced := by
    obtain ⟨-, hs, ha⟩ := h.unsent (.inr hr.1)
    exact balanced_configured hr.2 hs ha
  canCancel_iff := by simpa [configured, hp] using h.canCancel_iff
  canPause_iff := by simpa [configured, hp] using h.canPause_iff
  unsent hu := ⟨rfl, (h.unsent hu).2⟩
  announced _ := rfl
  channel_latest := h.channel_latest
  read_latest := h.read_latest
  timer_latest := h.timer_latest

/-- The parameters end the handshake: nothing is left to send, or the transfer begins. -/
theorem configAccepted (h : s.Consistent) {conn : ConnectionId} {params : UploadParams}
    (hp : s.phase = .handshaking) (hc : s.channel = some ⟨conn, true⟩)
    (hr : s.Accepts (.uploadConfig params)) {p : Phase} {canCancel canPause : Bool}
    (hn : p = .awaitingCompletion ∧ params.resumeOffset = s.total ∧ canCancel = false ∧
        canPause = false ∨
      p = .transferring ∧ params.resumeOffset < s.total ∧ canCancel = true ∧ canPause = true) :
    Consistent { s.configured params with canCancel, canPause, phase := p } where
  idle hi := by rcases hn with ⟨rfl, -⟩ | ⟨rfl, -⟩ <;> cases hi
  live _ := by simp [configured, hc, h.armed_of_channel hc]
  open_iff _ c hc' := by
    obtain rfl : c = ⟨conn, true⟩ := by simpa [configured, hc, eq_comm] using hc'
    rcases hn with ⟨rfl, -⟩ | ⟨rfl, -⟩ <;> simp
  cancelling hx := by rcases hn with ⟨rfl, -⟩ | ⟨rfl, -⟩ <;> cases hx
  paused_iff := by
    rcases hn with ⟨rfl, -⟩ | ⟨rfl, -⟩ <;> simp [configured, h.paused_eq_false, hp]
  reading_iff := by simp [configured, h.read_none_of_phase, hp, Window.empty]
  read _ _ hr := by simp [configured, h.read_none_of_phase, hp] at hr
  complete hx := by
    rcases hn with ⟨-, he, -⟩ | ⟨rfl, -⟩
    · exact ⟨congrArg UInt64.toNat he, congrArg UInt64.toNat he⟩
    · rcases hx with hx | hx <;> cases hx
  balanced := by
    obtain ⟨-, hs, ha⟩ := h.unsent (.inr hr.1)
    exact balanced_configured hr.2 hs ha
  canCancel_iff := by
    rcases hn with ⟨rfl, -, rfl, -⟩ | ⟨rfl, hlt, rfl, -⟩
    · simp
    · simpa [configured] using UInt64.lt_iff_toNat_lt.1 hlt
  canPause_iff _ := by
    rcases hn with ⟨rfl, -, -, rfl⟩ | ⟨rfl, hlt, -, rfl⟩
    · simp [configured, h.armed_of_channel hc]
    · simpa [configured, hc] using .inr (UInt64.lt_iff_toNat_lt.1 hlt)
  unsent hu := by
    rcases hn with ⟨rfl, -⟩ | ⟨rfl, -⟩ <;> simp [handler] at hu
  announced _ := rfl
  channel_latest := h.channel_latest
  read_latest := h.read_latest
  timer_latest := h.timer_latest

/-- The transfer begins. -/
theorem begun (h : s.Consistent) {conn : ConnectionId} {params : UploadParams}
    (hp : s.phase = .handshaking) (hc : s.channel = some ⟨conn, true⟩)
    (hr : s.Accepts (.uploadConfig params)) (hlt : params.resumeOffset < s.total) :
    Consistent { s.configured params with canPause := true, phase := .transferring } := by
  have hcan : s.canCancel = true := h.canCancel_iff.2 (.inr (.inl hp))
  exact h.configAccepted hp hc hr (.inr ⟨rfl, hlt, hcan, rfl⟩)

/-! ### Acknowledgements and chunks -/

theorem window_of_accepts {size : UInt64} (hr : s.Accepts (.chunkAck size)) :
    ∃ w, s.window = some w ∧ 0 < w.chunks ∧ size.toNat ≤ w.bytes := by
  obtain ⟨-, hchunks, hbytes⟩ := hr
  cases hw : s.window with
  | none => simp [snapshot, hw] at hchunks
  | some w => exact ⟨w, rfl, by simpa [snapshot, hw] using hchunks,
      by simpa [snapshot, hw] using hbytes⟩

theorem balanced_acknowledged (h : s.Consistent) {size : UInt64}
    (hr : s.Accepts (.chunkAck size)) :
    (s.acknowledged size.toNat).snapshot.books.Balanced := by
  obtain ⟨w, hw, hchunks, hbytes⟩ := window_of_accepts hr
  obtain ⟨hle, hsent, hcs, hlim⟩ := h.balanced
  simp only [Snapshot.books, snapshot, hw, Option.map_some, Option.getD_some, Option.some.injEq,
    forall_eq'] at hle hsent hcs hlim
  refine ⟨hle, ?_, ?_, ?_⟩ <;>
    simp only [Snapshot.books, snapshot, acknowledged, hw, Option.map_some, Option.getD_some,
      Option.some.injEq, forall_eq'] <;> omega

/-- An acknowledgement is counted. -/
theorem acknowledged (h : s.Consistent) {size : UInt64} (hr : s.Accepts (.chunkAck size)) :
    (s.acknowledged size.toNat).Consistent where
  idle := h.idle
  live := h.live
  open_iff := h.open_iff
  cancelling := h.cancelling
  paused_iff := h.paused_iff
  reading_iff := by
    rw [show (s.acknowledged size.toNat).pendingRead = s.pendingRead from rfl, ← h.reading_iff]
    cases hw : s.window <;> simp [Session.acknowledged, hw]
  read read range hread := by
    obtain ⟨hp, hc, hs, ho, w, hw, hlt, hn⟩ := h.read _ _ hread
    refine ⟨hp, hc, hs, ho, _, congrArg (Option.map _) hw, ?_, hn⟩
    simp only
    omega
  complete hc := by
    have hh : s.handler = .transferring := hr.1
    have hph : (s.acknowledged size.toNat).phase = s.phase := rfl
    rcases hc with hp | hp <;> simp [handler, hph ▸ hp] at hh
  balanced := h.balanced_acknowledged hr
  canCancel_iff := h.canCancel_iff
  canPause_iff := h.canPause_iff
  unsent hu := by
    have hh : s.handler = .transferring := hr.1
    rw [show (s.acknowledged size.toNat).handler = s.handler from rfl, hh] at hu
    simp at hu
  announced ha := by simpa [Session.acknowledged] using h.announced ha
  channel_latest := h.channel_latest
  read_latest := h.read_latest
  timer_latest := h.timer_latest

/-- Every byte is acknowledged, so no read is pending any more. -/
theorem completed (h : s.Consistent) {conn : ConnectionId} (hp : s.phase = .transferring)
    (hc : s.channel = some ⟨conn, true⟩) (ha : s.acked = s.total.toNat) :
    Consistent { s with phase := .awaitingCompletion } := by
  have hb := h.balanced
  -- what is acknowledged was sent, and no more is sent than there is
  have hs : s.sent = s.total.toNat := by
    have := hb.sent_le_total
    have := hb.sent_eq
    simp only [Snapshot.books, snapshot] at *
    omega
  have hr : s.pendingRead = none := by
    by_contra hr
    obtain ⟨⟨read, range⟩, hr⟩ := Option.ne_none_iff_exists'.1 hr
    have := (h.read _ _ hr).2.2.1
    omega
  exact
    { idle := fun hi => by cases hi
      live := fun _ => by simp [hc, h.armed_of_channel hc]
      open_iff := fun _ c hc' => by
        obtain rfl : ⟨conn, true⟩ = c := Option.some.inj (hc.symm.trans hc')
        simp
      cancelling := fun hx => by cases hx
      paused_iff := by simp [h.paused_eq_false, hp]
      reading_iff := h.reading_iff
      read := fun _ _ h => by simp [hr] at h
      complete := fun _ => ⟨ha, hs⟩
      balanced := hb
      canCancel_iff := by simp [h.canCancel_iff, hp, hs]
      canPause_iff := fun _ => by simp [h.canPause_iff, hp, hs]
      unsent := fun hu => by simp [handler] at hu
      announced := fun hx => by simp [handler] at hx
      channel_latest := h.channel_latest
      read_latest := h.read_latest
      timer_latest := h.timer_latest }

/-- The next chunk is asked for if the window is open. -/
theorem requestNextChunk (h : s.Consistent) {conn : ConnectionId} (hp : s.phase = .transferring)
    (hc : s.channel = some ⟨conn, true⟩) : s.requestNextChunk.session.Consistent := by
  obtain ⟨w, hw⟩ := Option.isSome_iff_exists.1 (h.announced (by simp [handler, hp]))
  rw [requestNextChunk_of_transferring s hp (openConnection_eq_some_iff.2 hc) hw]
  split
  · rename_i hopen
    obtain ⟨hlt, -, hs, -⟩ := Window.isOpen_eq_true_iff.1 hopen
    have hb := h.balanced
    simp only [Snapshot.books, snapshot, hw] at hb
    exact
      { idle := fun hi => by simp [hp, Phase.isIdle] at hi
        live := h.live
        open_iff := h.open_iff
        cancelling := h.cancelling
        paused_iff := h.paused_iff
        reading_iff := rfl
        read := fun read range hr => by
          simp only [Reaction.ask_session, Option.some.injEq, Prod.mk.injEq] at hr
          obtain ⟨rfl, rfl⟩ := hr
          exact ⟨hp, ⟨conn, hc⟩, hs, rfl, _, rfl, hlt, rfl⟩
        complete := h.complete
        balanced := hb
        canCancel_iff := h.canCancel_iff
        canPause_iff := h.canPause_iff
        unsent := h.unsent
        announced := fun _ => rfl
        channel_latest := h.channel_latest
        read_latest := fun read range hr => by
          simp only [Reaction.ask_session, Option.some.injEq, Prod.mk.injEq] at hr
          obtain ⟨rfl, -⟩ := hr
          rfl
        timer_latest := h.timer_latest }
  · exact h

theorem balanced_chunkSent (h : s.Consistent) {read : ReadId} {range : ByteRange} {n : Nat}
    (hr : s.pendingRead = some (read, range)) (hn : n = range.length) :
    (s.chunkSent n).snapshot.books.Balanced := by
  obtain ⟨-, -, hlt, -, w, hw, hwlt, rfl⟩ := h.read _ _ hr
  obtain ⟨hle, hsent, hcs, hlim⟩ := h.balanced
  subst hn
  simp only [Snapshot.books, snapshot, hw, Option.map_some, Option.getD_some, Option.some.injEq,
    forall_eq'] at hle hsent hcs hlim
  refine ⟨?_, ?_, ?_, ?_⟩ <;>
    simp only [Snapshot.books, snapshot, chunkSent, hw, Option.map_some, Option.getD_some,
      Option.some.injEq, forall_eq', Window.sent, Window.readFinished, Window.nextChunk] <;> omega

/-- A chunk is handed to the channel. -/
theorem chunkSent (h : s.Consistent) {read : ReadId} {range : ByteRange} {n : Nat}
    (hr : s.pendingRead = some (read, range)) (hn : n = range.length) :
    (s.chunkSent n).Consistent := by
  obtain ⟨hp, ⟨conn, hc⟩, hlt, -, w, hw, -, -⟩ := h.read _ _ hr
  have hb := h.balanced_chunkSent hr hn
  have hle : s.sent + n ≤ s.total.toNat := hb.sent_le_total
  have hph : (s.chunkSent n).phase = .transferring := hp
  exact
    { idle := fun hi => by simp [hph, Phase.isIdle] at hi
      live := h.live
      open_iff := h.open_iff
      cancelling := h.cancelling
      paused_iff := h.paused_iff
      reading_iff := by simp [Session.chunkSent, hw, Window.sent]
      read := fun _ _ h => by cases h
      complete := fun hx => by simp [hph] at hx
      balanced := hb
      canCancel_iff := by
        have hcan : s.canCancel = true := h.canCancel_iff.2 (.inr (.inr ⟨hp, hlt⟩))
        simp only [hph]
        simp only [Session.chunkSent, hcan, Bool.true_and, decide_eq_true_eq, reduceCtorEq,
          false_or, true_and]
        omega
      canPause_iff := fun _ => by
        have hpause : s.canPause = true :=
          (h.canPause_iff (by simp [hp])).2 (.inr ⟨hp, by simp [hc], hlt⟩)
        simp only [hph]
        simp only [Session.chunkSent, hpause, hc, h.armed_of_channel hc, Bool.true_and,
          decide_eq_true_eq, Option.isSome_none, Bool.false_eq_true, Option.isSome_some, false_or,
          true_and]
        omega
      unsent := fun hu => by simp [handler, hph] at hu
      announced := fun _ => by simp [Session.chunkSent, hw]
      channel_latest := h.channel_latest
      read_latest := fun _ _ h => by cases h
      timer_latest := h.timer_latest }

/-! ### Steps and runs -/

theorem of_transition (h : s.Consistent) {i : Input} {r : Reaction} (ht : s.Transition i r) :
    r.session.Consistent := by
  have hopen {conn : ConnectionId} (hc : s.channel = some ⟨conn, true⟩) : s.phase ≠ .paused := by
    rcases h.phase_of_open hc with hp | hp | hp | hp <;> simp [hp]
  cases ht with
  | ignored => exact h
  | restarted => exact h.reconnected
  | unpaused => exact h.reconnected
  | retried => exact h.reconnected
  | opened hp hc => exact h.opened hp hc
  | suspended => exact h.suspended
  | cancelSent hc hm => exact h.cancelling_of_open hc hm _ _
  | cancelledOffline hl hc =>
    have hp := (Phase.goesOn_of_isLive hl).1
    simpa [Session.released] using h.released hp (p := .cancelled) rfl (by rintro ⟨⟩) _ _ _ _
  | cancelConfirmed hp hc =>
    simpa [finishCancel] using h.released (hopen hc) (p := .cancelled) rfl (by rintro ⟨⟩) _ _ _ _
  | serverCancelled hc =>
    simpa [onServerCancel] using h.released (hopen hc) (p := .cancelled) rfl (by rintro ⟨⟩) _ _ _ _
  | violated v hc hr =>
    simpa [violate] using h.released (hopen hc) (p := .errored) rfl (by rintro ⟨⟩) _ _ _ _
  | undecodable hc =>
    simpa [violate] using h.released (hopen hc) (p := .errored) rfl (by rintro ⟨⟩) _ _ _ _
  | finished hp hc =>
    simpa using h.released (hopen hc) (p := .finished) rfl (fun _ => h.complete (.inl hp)) _ _ _ _
  | failedCompleting hp hc =>
    simpa [endWith] using h.released (hopen hc) (p := .errored) rfl (by rintro ⟨⟩) _ _ _ _
  | failedUncancelled hp hs hc =>
    simpa using h.released (hopen hc) (p := .errored) rfl (by rintro ⟨⟩) _ _ _ _
  | serverFailed hm hc => exact h.cancelling_of_open hc hm _ _
  | readFailed failure hr hd hc hm => exact h.cancelling_of_open hc hm _ _
  | errorNoted hp hc => exact h.errorSet _
  | configNoted hp hc hr => exact h.configNoted hp hr
  | configCompletes hp hc hr he => exact h.configAccepted hp hc hr (.inl ⟨rfl, he, rfl, rfl⟩)
  | configBegins hp hc hr he => exact (h.begun hp hc hr he).requestNextChunk rfl hc
  | ackNoted hp hc hr => exact h.acknowledged hr
  | ackCompletes hp hc hr he => exact (h.acknowledged hr).completed hp hc he
  | ackContinues hp hc hr he => exact (h.acknowledged hr).requestNextChunk hp hc
  | sent hr hc hd =>
    rw [sendChunk_endRead]
    exact (h.chunkSent hr hd).requestNextChunk (h.read _ _ hr).1 hc
  | lost hl hc => simpa [awaitRetry_eq, endRead] using h.lost hl
  | cancelLost hp hc =>
    have hcan : s.canCancel = false := by simpa [hp] using h.canCancel_iff
    have hpause : s.canPause = false := by
      simpa [hp, h.armed_of_channel hc] using h.canPause_iff (by simp [hp])
    simpa [abandonCancel, endRead, Session.released, hcan, hpause] using
      h.released (hopen hc) (p := .cancelled) rfl (by rintro ⟨⟩) _ _ _ _

theorem step (h : s.Consistent) {i : Input} (ht : s.Timely i) : (s.step i).session.Consistent :=
  h.of_transition (transition h ht)

end Consistent

/-- What a session is created with stays as it is. -/
theorem fixed_of_transition {i : Input} {r : Reaction} (ht : s.Transition i r) :
    r.session.id = s.id ∧ r.session.total = s.total ∧ r.session.retryDelay = s.retryDelay := by
  cases ht with
  | sent => rw [sendChunk_endRead, requestNextChunk_session]; exact ⟨rfl, rfl, rfl⟩
  | configBegins | ackContinues =>
    simp only [Reaction.andThen_session, Reaction.ask_session, Reaction.tell_session]
    rw [requestNextChunk_session]
    exact ⟨rfl, rfl, rfl⟩
  | cancelledOffline | cancelConfirmed | serverCancelled | violated | undecodable
  | finished | failedCompleting | failedUncancelled | lost | cancelLost =>
    simp [finishCancel, onServerCancel, violate, endWith, released, awaitRetry_eq, abandonCancel,
      endRead]
  | _ => exact ⟨rfl, rfl, rfl⟩

theorem total_of_transition {i : Input} {r : Reaction} (ht : s.Transition i r) :
    r.session.total = s.total :=
  (fixed_of_transition ht).2.1

/-- What a transition can do to the channel. -/
theorem channel_of_transition {i : Input} {r : Reaction} (ht : s.Transition i r) :
    r.session.channel = s.channel ∨ r.session.channel = none ∨
      r.session.channel = some ⟨⟨s.connections + 1⟩, false⟩ ∨
      ∃ conn, i = .channelOpened conn ∧ r.session.channel = some ⟨conn, true⟩ := by
  cases ht with
  | restarted | unpaused | retried => exact .inr (.inr (.inl rfl))
  | opened hp hc => exact .inr (.inr (.inr ⟨_, rfl, rfl⟩))
  | suspended | cancelledOffline | cancelConfirmed | serverCancelled | violated | undecodable
  | finished | failedCompleting | failedUncancelled | lost | cancelLost =>
    refine .inr (.inl ?_)
    simp [suspended, finishCancel, onServerCancel, violate, endWith, released, awaitRetry_eq,
      abandonCancel, endRead]
  | sent => exact .inl (by simp [sendChunk_endRead, chunkSent])
  | configBegins | ackContinues => exact .inl (by simp [configured, acknowledged])
  | _ => exact .inl rfl

end Session

/-! ### Runs -/

/-- The channel that an input reports open. -/
def Input.opened? : Input → Option ConnectionId
  | .channelOpened conn => some conn
  | _ => none

/-- No channel is reported open twice. -/
def OpensOnce (is : List Input) : Prop := (is.filterMap Input.opened?).Nodup

instance (is : List Input) : Decidable (OpensOnce is) :=
  inferInstanceAs (Decidable (List.Nodup _))

theorem OpensOnce.of_append {is js : List Input} (h : OpensOnce (is ++ js)) : OpensOnce is := by
  rw [OpensOnce, List.filterMap_append] at h
  exact (List.nodup_append'.1 h).1

theorem OpensOnce.of_prefix {is js : List Input} (h : OpensOnce is) (hpre : js <+: is) :
    OpensOnce js := by
  obtain ⟨ks, rfl⟩ := hpre
  exact h.of_append

theorem OpensOnce.init {is : List Input} {i : Input} (h : OpensOnce (is ++ [i])) :
    OpensOnce is :=
  h.of_append

namespace Session

open Reaction (quiet)

theorem run_concat (s : Session) (is : List Input) (i : Input) :
    s.run (is ++ [i]) = (s.run is).andThen (step · i) := by
  rw [run_append]
  refine Reaction.andThen_congr ?_
  ext1 <;> simp [run]

/-- **Induction over runs.** What holds before any input, and is kept by an input that comes in
time to a consistent session, holds after every list of inputs that opens no channel twice. -/
theorem run_induction (id : String) (total : UInt64) (delay : Nat)
    {P : List Input → Reaction → Prop} (nil : P [] (quiet (new id total delay)))
    (concat : ∀ is i r, r = (new id total delay).run is → r.session.Consistent →
      r.session.Timely i → P is r → P (is ++ [i]) (r.andThen (step · i)))
    {is : List Input} (h : OpensOnce is) : P is ((new id total delay).run is) := by
  -- the induction also carries that a channel is open only if it was reported open
  suffices hall : P is ((new id total delay).run is) ∧
      ((new id total delay).run is).session.Consistent ∧
      ∀ conn, ((new id total delay).run is).session.isOpen conn = true →
        conn ∈ is.filterMap Input.opened? from hall.1
  induction is using List.reverseRecOn with
  | nil => exact ⟨nil, consistent_new id total delay, fun _ ho => by cases ho⟩
  | append_singleton is i ih =>
    have hnodup : (is.filterMap Input.opened? ++ [i].filterMap Input.opened?).Nodup := by
      rw [← List.filterMap_append]
      exact h
    obtain ⟨his, -, hdisj⟩ := List.nodup_append'.1 hnodup
    obtain ⟨hP, hcons, hopened⟩ := ih his
    -- so a second report of an open channel would be a second report in the list
    have htimely : ((new id total delay).run is).session.Timely i := by
      rintro conn rfl ho
      exact hdisj (hopened conn ho) (by simp [Input.opened?])
    rw [run_concat]
    refine ⟨concat is i _ rfl hcons htimely hP, hcons.step htimely, fun conn ho => ?_⟩
    rw [List.filterMap_append, List.mem_append]
    rw [Reaction.andThen_session, isOpen_iff] at ho
    rcases channel_of_transition (transition hcons htimely) with hc | hc | hc | ⟨c, rfl, hc⟩
    · exact .inl (hopened conn (isOpen_iff.2 (hc.symm.trans ho)))
    · simp [hc] at ho
    · simp [hc] at ho
    · obtain rfl : c = conn := by simpa [hc] using ho
      exact .inr (by simp [Input.opened?])

theorem consistent_run (id : String) (total : UInt64) (delay : Nat) {is : List Input}
    (h : OpensOnce is) : ((new id total delay).run is).session.Consistent :=
  run_induction id total delay (P := fun _ r => r.session.Consistent)
    (consistent_new id total delay)
    (fun _ _ _ _ _ ht hc => hc.step ht) h

theorem total_run (id : String) (total : UInt64) (delay : Nat) {is : List Input}
    (h : OpensOnce is) : ((new id total delay).run is).session.total = total :=
  run_induction id total delay (P := fun _ r => r.session.total = total) rfl
    (fun _ _ _ _ hc ht htotal => (total_of_transition (transition hc ht)).trans htotal) h

theorem transition_run (id : String) (total : UInt64) (delay : Nat) {is : List Input} {i : Input}
    (h : OpensOnce (is ++ [i])) :
    ((new id total delay).run is).session.Transition i
      (((new id total delay).run is).session.step i) := by
  refine run_induction id total delay
    (P := fun js _ => ∀ is i, js = is ++ [i] →
      ((new id total delay).run is).session.Transition i
        (((new id total delay).run is).session.step i))
    (fun is i he => by simp at he) ?_ h is i rfl
  rintro is i _ rfl hc ht - js j he
  obtain ⟨rfl, rfl⟩ := List.append_singleton_inj.1 he
  exact transition hc ht

/-- **What a session holds always fits its phase**, whatever has happened to it before. -/
theorem tidy_run (id : String) (total : UInt64) (delay : Nat) {is : List Input}
    (h : OpensOnce is) : ((new id total delay).run is).session.Tidy :=
  (consistent_run id total delay h).toTidy

theorem tidy_run_of_retry :
    OpensOnce [.start, .channelOpened ⟨1⟩, .record ⟨1⟩ (.uploadConfig ⟨4, 2, 2⟩),
      .channelClosed ⟨1⟩, .retryElapsed ⟨1⟩] ∧
    ((new "upload" 10 500).run [.start, .channelOpened ⟨1⟩,
      .record ⟨1⟩ (.uploadConfig ⟨4, 2, 2⟩), .channelClosed ⟨1⟩,
      .retryElapsed ⟨1⟩]).session.Tidy :=
  ⟨by decide, tidy_run "upload" 10 500 (by decide)⟩

end Session

end ResumableUpload
