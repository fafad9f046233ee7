import ResumableUpload.Proofs.Operations

/-!
# Which input leads to which phase

An input leaves a session in its phase or leads it to one of a few others, whatever the session was
told before, in any order and however often.

* `Input.destinations` : the phases that an input can lead to.
* `Session.Leads` : a reaction keeps the phase or goes to one of a list of phases, and it keeps the
  pause flag. Every operation has its list.
* `Session.phase_step` : no input leads to a phase that is not among its destinations.
* `Session.paused_step` : only the caller changes the pause flag.
* `Session.run_unfinished` : an upload that is never said to be done is never finished.
-/

namespace ResumableUpload

open Wire (ServerRecord UploadParams)

/-- The phases that a record can lead to. -/
def Wire.ServerRecord.destinations : ServerRecord → List Phase
  | uploadConfig _ => [.transferring, .awaitingCompletion, .errored]
  | chunkAck _ => [.awaitingCompletion, .errored]
  | error .. => [.cancelling, .cancelled, .errored]
  | cancel _ => [.cancelled]
  | cancelAck => [.cancelled, .errored]
  | allDone => [.finished, .errored]

/-- The phases that an input can lead to. -/
def Input.destinations : Input → List Phase
  | start | retryElapsed _ => [.connecting]
  | pause .pause => [.paused]
  | pause .unpause => [.connecting]
  | pause .toggle => [.paused, .connecting]
  | cancel _ => [.cancelling, .cancelled]
  | channelOpened _ => [.handshaking]
  | record _ r => r.destinations
  | undecodable .. => [.errored]
  | channelClosed _ => [.cancelled]
  | chunkRead .. => [.cancelling, .cancelled, .errored]

namespace Session

open Reaction (quiet tell)

/-- The reaction keeps the phase or goes to one of these, and it keeps the pause flag. -/
structure Leads (s : Session) (ps : List Phase) (r : Reaction) : Prop where
  phase : r.session.phase = s.phase ∨ r.session.phase ∈ ps
  paused : r.session.paused = s.paused

namespace Leads

variable {s : Session} {ps qs : List Phase} {p : Phase} {r : Reaction}

/-- The phase stays. -/
theorem stay (hp : r.session.phase = s.phase) (hf : r.session.paused = s.paused) : s.Leads ps r :=
  ⟨.inl hp, hf⟩

theorem quiet : s.Leads ps (quiet s) := stay rfl rfl

theorem go (hp : r.session.phase = p) (hf : r.session.paused = s.paused) (hmem : p ∈ ps) :
    s.Leads ps r :=
  ⟨.inr (hp ▸ hmem), hf⟩

theorem mono (h : s.Leads ps r) (hsub : ps ⊆ qs) : s.Leads qs r :=
  ⟨h.phase.imp_right fun hmem => hsub hmem, h.paused⟩

end Leads

variable (s : Session)

/-! ### Where the operations lead -/

theorem leads_start : s.Leads [.connecting] s.start := by
  unfold start
  split
  · exact .quiet
  · exact .go (p := .connecting) (by simp [connect]) (by simp [connect, endRead]) (by simp)

theorem leads_beginCancel (reason : String) (p : Phase) :
    s.Leads [.cancelling, .cancelled] (s.beginCancel reason p) := by
  cases ho : s.openConnection with
  | some conn =>
    rw [beginCancel_of_open s ho]
    exact .go (p := .cancelling) rfl rfl (by simp)
  | none =>
    rw [beginCancel_of_not_open s ho]
    exact .go (p := .cancelled) (by simp) (by simp [released]) (by simp)

theorem leads_violate (v : Violation) : s.Leads [.errored] (s.violate v) :=
  .go (p := .errored) (by simp [violate, released]) (by simp [violate, released]) (by simp)

theorem leads_onServerCancel (reason : String) : s.Leads [.cancelled] (s.onServerCancel reason) :=
  .go (p := .cancelled) (by simp [onServerCancel, released]) (by simp [onServerCancel, released])
    (by simp)

theorem leads_endWith (e : SessionError) : s.Leads [.errored] (s.endWith e) :=
  .go (p := .errored) (by simp [endWith, released]) (by simp [endWith, released]) (by simp)

theorem leads_failWith (e : SessionError) (reason : String) :
    s.Leads [.cancelling, .cancelled, .errored] (s.failWith e reason) := by
  unfold failWith
  split
  · exact .stay rfl rfl
  · -- the session is errored for the time being, which it does not stay if it can be cancelled
    by_cases hcan : s.canCancel = true
    · have hlead := leads_beginCancel { s with error := some e, phase := .errored } reason s.phase
      refine ⟨.inr ?_, ?_⟩
      · rw [Reaction.andThen_session, Reaction.tell_session, if_pos hcan]
        rcases hlead.phase with hp | hp
        · simp [hp]
        · exact List.mem_append_left [.errored] hp
      · rw [Reaction.andThen_session, Reaction.tell_session, if_pos hcan]
        exact hlead.paused
    · exact .go (p := .errored) (by simp [hcan, released]) (by simp [hcan, released]) (by simp)

theorem leads_requestNextChunk : s.Leads [] s.requestNextChunk :=
  .stay (by simp) (by rw [requestNextChunk_session])

theorem leads_sendChunk (conn : ConnectionId) (data : ByteArray) :
    s.endRead.Leads [] (s.endRead.sendChunk conn data) := by
  have hlead := leads_requestNextChunk (s.chunkSent data.size)
  rw [sendChunk_endRead]
  exact ⟨hlead.phase, hlead.paused⟩

theorem leads_onUploadConfig (params : UploadParams) :
    s.Leads [.transferring, .awaitingCompletion, .errored] (s.onUploadConfig params) := by
  unfold onUploadConfig
  split
  · exact (s.leads_violate _).mono (by simp)
  · simp only
    split
    · exact .stay rfl rfl
    · split
      · exact .stay rfl rfl
      · by_cases he : params.resumeOffset = s.total
        · exact .go (p := .awaitingCompletion) (by simp [beginTransfer, he])
            (by simp [beginTransfer, he]) (by simp)
        · refine .go (p := .transferring) (by simp [beginTransfer, he]) ?_ (by simp)
          simp only [beginTransfer, he, ↓reduceIte, Reaction.andThen_session, Reaction.ask_session,
            Reaction.tell_session]
          rw [requestNextChunk_session]

theorem leads_afterAck : s.Leads [.awaitingCompletion] s.afterAck := by
  unfold afterAck
  split
  · split
    · exact .go (p := .awaitingCompletion) rfl rfl (by simp)
    · exact .quiet
  · exact s.leads_requestNextChunk.mono (by simp)

theorem leads_onChunkAck (size : UInt64) :
    s.Leads [.awaitingCompletion, .errored] (s.onChunkAck size) := by
  unfold onChunkAck
  split
  · exact (s.leads_violate _).mono (by simp)
  · split
    · exact (s.leads_violate _).mono (by simp)
    · rename_i w _
      have hlead := leads_afterAck { s with
        window := some w
        acked := s.acked + size.toNat
        chunksAcked := s.chunksAcked + 1 }
      exact Leads.mono ⟨hlead.phase, hlead.paused⟩ (by simp)

theorem leads_dispatch (handler : Phase) (r : ServerRecord) :
    s.Leads r.destinations (s.dispatch handler r) := by
  have violated (v : Violation) (hmem : Phase.errored ∈ r.destinations) :
      s.Leads r.destinations (s.violate v) := (s.leads_violate v).mono (by simpa using hmem)
  cases handler with
  | handshaking =>
    cases r with
    | uploadConfig params => exact s.leads_onUploadConfig params
    | error code message => exact s.leads_failWith _ _
    | cancel reason => exact s.leads_onServerCancel reason
    | chunkAck | allDone | cancelAck => exact violated _ (by simp [ServerRecord.destinations])
  | transferring =>
    cases r with
    | chunkAck size => exact s.leads_onChunkAck size
    | error code message => exact s.leads_failWith _ _
    | cancel reason => exact s.leads_onServerCancel reason
    | uploadConfig | allDone | cancelAck => exact violated _ (by simp [ServerRecord.destinations])
  | awaitingCompletion =>
    cases r with
    | allDone =>
      exact .go (p := .finished) (by simp [dispatch, completionRecord, released])
        (by simp [dispatch, completionRecord, released]) (by simp [ServerRecord.destinations])
    | error code message => exact (s.leads_endWith _).mono (by simp [ServerRecord.destinations])
    | cancel reason => exact s.leads_onServerCancel reason
    | uploadConfig | chunkAck | cancelAck => exact violated _ (by simp [ServerRecord.destinations])
  | _ => exact .quiet

theorem leads_onRecord (conn : ConnectionId) (r : ServerRecord) :
    s.Leads r.destinations (s.onRecord conn r) := by
  unfold onRecord
  split
  · split
    · rename_i hr
      rw [hr.2]
      exact .go (p := .cancelled) (by simp [finishCancel, released])
        (by simp [finishCancel, released]) (by simp [ServerRecord.destinations])
    · exact s.leads_dispatch _ r
  · exact .quiet

theorem leads_onReadFailure (failure : ReadFailure) :
    s.Leads [.cancelling, .cancelled, .errored] (s.onReadFailure failure) := by
  unfold onReadFailure
  split
  · exact .quiet
  · exact s.leads_failWith _ _

theorem leads_onChunkRead (read : ReadId) (result : Except Source.ReadError ByteArray) :
    s.Leads [.cancelling, .cancelled, .errored] (s.onChunkRead read result) := by
  -- the end of the read concerns neither the phase nor the flag
  have ended {r : Reaction} (hr : s.endRead.Leads [.cancelling, .cancelled, .errored] r) :
      s.Leads [.cancelling, .cancelled, .errored] r := ⟨hr.phase, hr.paused⟩
  unfold onChunkRead
  split
  · split
    · refine ended ?_
      unfold onRangeRead
      split
      · exact leads_onReadFailure _ _
      · split
        · split
          · split
            · exact (s.leads_sendChunk _ _).mono (by simp)
            · exact .quiet
          · exact .quiet
        · exact leads_onReadFailure _ _
    · exact .quiet
  · exact .quiet

theorem leads_onChannelClosed (conn : ConnectionId) :
    s.Leads [.cancelled] (s.onChannelClosed conn) := by
  unfold onChannelClosed
  split
  · constructor
    · simp only [Reaction.andThen_session, abortRead_session]
      split
      · simp [abandonCancel]
      all_goals exact .inl (by simp [awaitRetry_eq, endRead])
    · simp only [Reaction.andThen_session, abortRead_session]
      split <;> simp [abandonCancel, awaitRetry_eq, endRead]
  · exact .quiet

variable {s} {i : Input}

/-- An input that does not change the pause flag. -/
theorem leads_step (hi : ∀ mode, i ≠ .pause mode) : s.Leads i.destinations (s.step i) := by
  cases i with
  | start => exact s.leads_start
  | pause mode => exact absurd rfl (hi mode)
  | cancel reason =>
    rw [step, cancel]
    split
    · exact .quiet
    · exact s.leads_beginCancel reason s.phase
  | channelOpened conn =>
    rw [step, onChannelOpened]
    split
    · exact .go (p := .handshaking) rfl rfl (by simp [Input.destinations])
    · exact .quiet
  | record conn r => exact s.leads_onRecord conn r
  | undecodable conn detail =>
    rw [step, onUndecodable]
    split
    · exact s.leads_violate _
    · exact .quiet
  | channelClosed conn => exact s.leads_onChannelClosed conn
  | chunkRead read result => exact s.leads_onChunkRead read result
  | retryElapsed token =>
    rw [step, onRetryElapsed]
    split
    · rename_i retry _
      have hlead := leads_start { s with retry }
      exact ⟨hlead.phase, hlead.paused⟩
    · exact .quiet

theorem phase_pause (mode : PauseMode) :
    (s.pause mode).session.phase = s.phase ∨
      (s.pause mode).session.phase ∈ (Input.pause mode).destinations := by
  unfold pause
  split
  · exact .inl rfl
  · have hstart := leads_start { s with paused := false }
    cases mode with
    | pause =>
      simp only [PauseMode.resolve, Input.destinations, ↓reduceIte]
      split
      · exact .inl rfl
      · exact .inr (by simp [suspend_eq, suspended])
    | unpause =>
      simp only [PauseMode.resolve, Input.destinations, Bool.false_eq_true, ↓reduceIte]
      split
      · exact .inl rfl
      · exact hstart.phase
    | toggle =>
      cases hf : s.paused with
      | false => exact .inr (by simp [PauseMode.resolve, Input.destinations, suspend_eq, suspended])
      | true =>
        simp only [PauseMode.resolve, Input.destinations, Bool.not_true, Bool.false_eq_true,
          ↓reduceIte]
        exact hstart.phase.imp_right fun hmem => List.mem_cons_of_mem _ hmem

/-- **An input leaves a session in its phase or leads to one of its destinations.** -/
theorem phase_step (s : Session) (i : Input) :
    (s.step i).session.phase = s.phase ∨ (s.step i).session.phase ∈ i.destinations := by
  cases i with
  | pause mode => exact phase_pause mode
  | _ => exact (leads_step (by rintro _ ⟨⟩)).phase

/-- Only the caller changes the pause flag. -/
theorem paused_step (hi : ∀ mode, i ≠ .pause mode) : (s.step i).session.paused = s.paused :=
  (leads_step hi).paused

/-- Only the caller pauses a session. -/
theorem paused_mem_destinations (h : .paused ∈ i.destinations) : ∃ mode, i = .pause mode := by
  cases i with
  | pause mode => exact ⟨mode, rfl⟩
  | record conn r => cases r <;> simp [Input.destinations, ServerRecord.destinations] at h
  | _ => simp [Input.destinations] at h

/-! ### What finishes an upload -/

/-- Nothing but the record that all is done finishes an upload. -/
theorem finished_mem_destinations (h : .finished ∈ i.destinations) :
    ∃ conn, i = .record conn .allDone := by
  cases i with
  | record conn r => cases r <;> simp_all [Input.destinations, ServerRecord.destinations]
  | pause mode => cases mode <;> simp [Input.destinations] at h
  | _ => simp [Input.destinations] at h

/-- An upload that is never said to be done is never finished. -/
theorem run_unfinished {s : Session} (h : s.phase ≠ .finished) {is : List Input}
    (his : ∀ conn, .record conn .allDone ∉ is) : (s.run is).session.phase ≠ .finished := by
  induction is generalizing s with
  | nil => exact h
  | cons i is ih =>
    have hstep : (s.step i).session.phase ≠ .finished := by
      intro hp
      rcases s.phase_step i with hkept | hmem
      · exact h (hkept ▸ hp)
      · rw [hp] at hmem
        obtain ⟨conn, rfl⟩ := finished_mem_destinations hmem
        exact his conn List.mem_cons_self
    exact ih hstep fun conn hmem => his conn (List.mem_cons_of_mem _ hmem)

end Session

end ResumableUpload
