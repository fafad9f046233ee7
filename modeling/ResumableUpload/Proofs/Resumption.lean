import ResumableUpload.Proofs.Conversation
import ResumableUpload.Proofs.Outcome
import ResumableUpload.Proofs.Renumbering

/-!
# A resumed upload is as good as a new one

A session that connects anew keeps nothing of what happened on its earlier connections but the
numbers that it has used up. Once the server has announced its parameters, it is the session that a
new one is after the same handshake, counted from these numbers.

* `Session.Reconnects` : the input with which a session connects anew, and `Session.past` : what it
  has used up until then.
* `Session.greeted` : the session with its new channel open. What it is once the parameters are
  taken down depends on nothing that is not fixed (`Session.greeted_configured`).
* `Session.resumption_run` : from then on nobody can tell the resumed session from a new one.
-/

namespace ResumableUpload

namespace Session

open Reaction (quiet ask tell)
open Wire (UploadParams)

/-- The input with which the session connects anew. -/
def Reconnects (s : Session) : Input → Prop
  | .start => s.phase ≠ .paused ∧ s.phase ≠ .cancelling ∧ s.phase.isTerminal = false
  | .pause mode => s.phase = .paused ∧ mode ≠ .pause
  | .retryElapsed token => s.retry.armed = some token
  | _ => False

instance (s : Session) : DecidablePred s.Reconnects := fun i => by
  cases i <;> unfold Reconnects <;> infer_instance

/-- The connections, reads and timers that a session has taken up. -/
def past (s : Session) : Past := ⟨s.connections, s.reads, s.retry.count⟩

/-- The channel is reported open, and the server announces its parameters on it. -/
def handshake (conn : ConnectionId) (params : UploadParams) : List Input :=
  [.channelOpened conn, .record conn (.uploadConfig params)]

/-- Nobody can tell the sessions apart but by the numbers, of which the first has used some before:
whatever happens next, they ask for the same, tell the same and show the same. -/
structure Mirrors (s f : Session) (p : Past) : Prop where
  effects : ∀ is, (s.run is).effects = (f.run (is.map (·.since p))).effects.map (·.after p)
  notices : ∀ is, (s.run is).notices = (f.run (is.map (·.since p))).notices
  snapshot : ∀ is, (s.run is).session.snapshot = (f.run (is.map (·.since p))).session.snapshot

/-- Connecting anew with the input `i`, the session asks for a channel, and goes on as the new
session `f` does if the server announces the same parameters to both. -/
structure ResumesAs (s f : Session) (i : Input) (params : UploadParams) : Prop where
  opens : .openChannel (.after s.past ⟨1⟩) ∈ (s.step i).effects
  mirrors : Mirrors (s.run (i :: handshake (.after s.past ⟨1⟩) params)).session
    (f.run (.start :: handshake ⟨1⟩ params)).session s.past

variable {s f : Session} {i : Input} {r : Reaction} {p : Past}

/-! ### Connecting anew -/

/-- A session that connects anew asks for one channel. -/
theorem of_reconnects (h : s.Consistent) (hi : s.Reconnects i) :
    s.phase.isTerminal = false ∧ s.phase ≠ .cancelling ∧ (s.step i).session = s.reconnected ∧
      .openChannel ⟨s.connections + 1⟩ ∈ (s.step i).effects := by
  have ht : s.Transition i (s.step i) := transition h (by rintro conn rfl; cases hi)
  generalize s.step i = r at ht ⊢
  cases ht with
  | restarted hend hc => exact ⟨hend, hc, rfl, by simp⟩
  | unpaused hp => exact ⟨by simp [hp, Phase.isTerminal], by simp [hp], rfl, by simp⟩
  | retried hl =>
    obtain ⟨-, hc, hend⟩ := Phase.goesOn_of_isLive hl
    exact ⟨hend, hc, rfl, by simp⟩
  | suspended _ _ hp => exact absurd hi.1 hp
  | ignored hig =>
    -- none of these inputs is ignored in the phase in which it connects
    exfalso
    cases i with
    | start =>
      obtain ⟨hpaused, hc, hend⟩ := hi
      rcases hig with hig | hig | hig
      · simp [hend] at hig
      · exact hc hig
      · exact hpaused hig
    | pause mode =>
      obtain ⟨hp, hm⟩ := hi
      have hpaused := h.paused_iff.2 hp
      rcases hig with hig | hig | hig
      · simp [hp, Phase.isTerminal] at hig
      · simp [hp] at hig
      · cases mode <;> simp_all [PauseMode.resolve]
    | retryElapsed token => exact hig hi
    | _ => exact hi
  | _ => cases hi

/-! ### The handshake -/

/-- The session once the channel that it has asked for is open. -/
def greeted (s : Session) : Session :=
  { s.reconnected with channel := some ⟨⟨s.connections + 1⟩, true⟩, phase := .handshaking }

/-- Of a session without marks the handshake leaves nothing but its numbers. -/
theorem greeted_configured (hm : s.marks = .clear) (params : UploadParams) :
    s.greeted.configured params =
      ((new s.id s.total s.retryDelay).greeted.configured params).after s.past := by
  obtain ⟨herror, hreason, hpending, hinterrupted⟩ := Marks.mk.injEq .. ▸ hm
  cases s
  simp only at herror hreason hpending hinterrupted
  subst herror hreason hpending hinterrupted
  rfl

theorem run_handshake {params : UploadParams} (hle : params.resumeOffset ≤ s.total) :
    (s.reconnected.run (handshake ⟨s.connections + 1⟩ params)).session =
      ((s.greeted.configured params).beginTransfer ⟨s.connections + 1⟩ params).session := by
  have hopened : s.reconnected.step (.channelOpened ⟨s.connections + 1⟩) =
      ask s.greeted (.sendRecord ⟨s.connections + 1⟩ (.uploadRequest s.id s.total)) := by
    simp [step, onChannelOpened, holds, reconnected, greeted]
  have hconfig : s.greeted.step (.record ⟨s.connections + 1⟩ (.uploadConfig params)) =
      ((s.greeted.configured params).beginTransfer ⟨s.connections + 1⟩ params).andThen
        (tell .progress) := by
    have hserved : s.greeted.step (.record ⟨s.connections + 1⟩ (.uploadConfig params)) =
        s.greeted.onUploadConfig params := by
      simp [step, onRecord, isOpen, greeted, dispatch, handler, handshakeRecord]
    rw [hserved, onUploadConfig_eq (show _ ≤ s.greeted.total from hle)]
    simp [greeted, openConnection]
  simp [handshake, run, hopened, hconfig]

/-- A session after a handshake is a new session after the same handshake. -/
theorem resumed_eq (hm : s.marks = .clear) {params : UploadParams}
    (hle : params.resumeOffset ≤ s.total) :
    (s.reconnected.run (handshake ⟨s.connections + 1⟩ params)).session =
      ((new s.id s.total s.retryDelay).run (.start :: handshake ⟨1⟩ params)).session.after
        s.past := by
  have hstart : (new s.id s.total s.retryDelay).start.session =
      (new s.id s.total s.retryDelay).reconnected := by
    rw [start_eq _ rfl (by simp [new]) rfl]
  calc (s.reconnected.run (handshake ⟨s.connections + 1⟩ params)).session
      = ((s.greeted.configured params).beginTransfer ⟨s.connections + 1⟩ params).session :=
        run_handshake hle
    _ = (((new s.id s.total s.retryDelay).greeted.configured params).beginTransfer ⟨1⟩
          params).session.after s.past := by
        rw [greeted_configured hm]
        exact congrArg Reaction.session (beginTransfer_after (p := s.past) ⟨1⟩ params _)
    _ = ((new s.id s.total s.retryDelay).reconnected.run (handshake ⟨1⟩ params)).session.after
          s.past :=
        congrArg (after s.past) (run_handshake (s := new s.id s.total s.retryDelay) hle).symm
    _ = _ := by
        rw [← hstart]
        rfl

/-! ### Runs -/

/-- A session mirrors the one that it is with later numbers. -/
theorem mirrors_after (h : f.Robust) : Mirrors (f.after p) f p where
  effects is := by rw [run_after h is]; rfl
  notices is := by rw [run_after h is]; rfl
  snapshot is := by rw [run_after h is]; exact snapshot_after

theorem retryDelay_run (id : String) (total : UInt64) (delay : Nat) {is : List Input}
    (h : OpensOnce is) : ((new id total delay).run is).session.retryDelay = delay :=
  run_induction id total delay (P := fun _ r => r.session.retryDelay = delay) rfl
    (fun _ _ _ _ hc ht hd => (fixed_of_transition (transition hc ht)).2.2.trans hd) h

/-- **A resumed upload is as good as a new one.** A session that connects anew, by whichever input,
asks for a channel; once that is open and the server has announced its parameters, the session and
a new one after the same handshake show the same, and they answer every further input alike, the
numbers of the one following on what it has used up before. -/
theorem resumption_run (id : String) (total : UInt64) (delay : Nat) {is : List Input}
    (h : OpensOnce is) {i : Input} (hi : ((new id total delay).run is).session.Reconnects i)
    {params : UploadParams} (hle : params.resumeOffset ≤ total) :
    ((new id total delay).run is).session.ResumesAs (new id total delay) i params := by
  obtain ⟨hend, hc, hstep, hopen⟩ := of_reconnects (consistent_run id total delay h) hi
  have hmarks := (report_run id total delay h).honest.marks_eq hend hc
  have hle' : params.resumeOffset ≤ ((new id total delay).run is).session.total := by
    rwa [total_run id total delay h]
  have hresumed := resumed_eq hmarks hle'
  rw [id_run id total delay h, total_run id total delay h, retryDelay_run id total delay h,
    ← hstep] at hresumed
  exact
    { opens := hopen
      mirrors := by
        rw [run, Reaction.andThen_session]
        exact hresumed ▸ mirrors_after (robust_run id total delay _) }

/-- The first four of ten bytes are sent and acknowledged, the channel is lost, and a second one
takes the upload up again from there. -/
theorem resumption_run_of_retry :
    OpensOnce [.start, .channelOpened ⟨1⟩, .record ⟨1⟩ (.uploadConfig ⟨4, 0, 2⟩),
      .chunkRead ⟨1⟩ (.ok ⟨#[0, 1, 2, 3]⟩), .record ⟨1⟩ (.chunkAck 4), .channelClosed ⟨1⟩] ∧
    ((new "upload" 10 500).run [.start, .channelOpened ⟨1⟩,
      .record ⟨1⟩ (.uploadConfig ⟨4, 0, 2⟩), .chunkRead ⟨1⟩ (.ok ⟨#[0, 1, 2, 3]⟩),
      .record ⟨1⟩ (.chunkAck 4), .channelClosed ⟨1⟩]).session.Reconnects (.retryElapsed ⟨1⟩) ∧
    (⟨4, 4, 2⟩ : UploadParams).resumeOffset ≤ 10 ∧
    ((new "upload" 10 500).run [.start, .channelOpened ⟨1⟩,
      .record ⟨1⟩ (.uploadConfig ⟨4, 0, 2⟩), .chunkRead ⟨1⟩ (.ok ⟨#[0, 1, 2, 3]⟩),
      .record ⟨1⟩ (.chunkAck 4), .channelClosed ⟨1⟩]).session.ResumesAs (new "upload" 10 500)
        (.retryElapsed ⟨1⟩) ⟨4, 4, 2⟩ :=
  ⟨by decide, by decide, by decide,
    resumption_run "upload" 10 500 (by decide) (by decide) (by decide)⟩

end Session

end ResumableUpload
