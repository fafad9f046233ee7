import ResumableUpload.Proofs.Absorption
import ResumableUpload.Proofs.Phases
import ResumableUpload.Proofs.Staleness

/-!
# What a pause does

A pause gives up the channel, the pending read, the armed timer and the right to cancel at once,
from whichever phase it interrupts. Nothing is left that could bring news, and the caller has
nothing left to ask for but that the session goes on.

* `Session.Resting` : a paused session. It answers nothing but the end of the pause
  (`Session.Resting.step`, `Session.Resting.resume`).
* `Session.Awake` : any other session. It stays awake until the caller pauses it
  (`Session.Awake.step`).
* `Session.pauses_run` : what holds of every pause, whatever the session was told before.
-/

namespace ResumableUpload

/-- The input ends a pause. -/
def Input.resumes : Input → Bool
  | pause .unpause | pause .toggle => true
  | _ => false

namespace Session

open Reaction (quiet)

/-- The session is not paused, and its flag says so. -/
structure Awake (s : Session) : Prop where
  phase_ne : s.phase ≠ .paused
  paused : s.paused = false

/-- The session is paused, and holds nothing. -/
structure Resting (s : Session) : Prop extends Settled s where
  phase_eq : s.phase = .paused
  paused : s.paused = true

variable {s : Session} {i : Input} {mode : PauseMode}

/-! ### A paused session -/

theorem resting_suspended : s.suspended.Resting where
  channel := rfl
  read := rfl
  timer := rfl
  canCancel := .inr rfl
  phase_eq := rfl
  paused := rfl

/-- A session that holds nothing takes no news. -/
theorem Settled.step_of_about (h : s.Settled) {x : Resource} (hx : i.about? = some x) :
    s.step i = quiet s := by
  refine step_of_ignores hx (ignores_of_not_held hx ?_)
  cases x.kind <;> simp [stock, Stock.get, h.channel, h.read, h.timer]

namespace Resting

/-- Nothing but the end of the pause is answered. -/
theorem step (h : s.Resting) (hi : i.resumes = false) : s.step i = quiet s := by
  have hp := h.phase_eq
  have hflag := h.paused
  cases i with
  | start => simp [Session.step, start, hflag]
  | pause mode =>
    cases mode with
    | pause => simp [Session.step, pause, PauseMode.resolve, hp, hflag]
    | unpause | toggle => simp [Input.resumes] at hi
  | cancel reason =>
    have hcan : s.canCancel = false := h.canCancel.resolve_left (by simp [hp])
    simp [Session.step, cancel, hcan]
  | channelOpened | record | undecodable | channelClosed | chunkRead | retryElapsed =>
    exact h.step_of_about rfl

theorem run (h : s.Resting) {is : List Input} (his : ∀ i ∈ is, i.resumes = false) :
    s.run is = quiet s := by
  induction is with
  | nil => rfl
  | cons i is ih =>
    rw [Session.run, h.step (his i List.mem_cons_self), Reaction.quiet_andThen]
    exact ih fun j hj => his j (List.mem_cons_of_mem _ hj)

/-- The end of the pause opens a channel. -/
theorem resume (h : s.Resting) (hm : mode ≠ .pause) :
    s.step (.pause mode) = ⟨s.reconnected, [.openChannel ⟨s.connections + 1⟩], []⟩ := by
  obtain ⟨⟨hc, hr, ht, -⟩, hp, hflag⟩ := h
  have hstart := start_of_idle s (by simp [hp, Phase.isTerminal]) (by simp [hp]) hc hr ht
  cases mode with
  | pause => exact absurd rfl hm
  | unpause | toggle =>
    simpa [Session.step, pause, PauseMode.resolve, hp, hflag, Phase.isTerminal] using hstart

end Resting

/-! ### A session that is not paused -/

/-- The caller pauses a session, or it stays awake. -/
theorem Awake.step (h : s.Awake) (i : Input) :
    (s.step i).session.Awake ∨ ∃ mode, i = .pause mode ∧ s.step i = s.suspend := by
  by_cases hi : ∃ mode, i = .pause mode
  · obtain ⟨mode, rfl⟩ := hi
    change (s.pause mode).session.Awake ∨ ∃ m, _ ∧ s.pause mode = s.suspend
    unfold pause
    split
    · exact .inl h
    · cases mode with
      | unpause => exact .inl (by simpa [PauseMode.resolve, h.paused] using h)
      | pause => exact .inr ⟨.pause, rfl, by simp [PauseMode.resolve, h.paused]⟩
      | toggle => exact .inr ⟨.toggle, rfl, by simp [PauseMode.resolve, h.paused]⟩
  · rw [not_exists] at hi
    refine .inl ⟨fun hp => ?_, (paused_step hi).trans h.paused⟩
    rcases s.phase_step i with hkept | hmem
    · exact h.phase_ne (hkept ▸ hp)
    · rw [hp] at hmem
      obtain ⟨mode, rfl⟩ := paused_mem_destinations hmem
      exact hi mode rfl

/-! ### Pausing twice -/

/-- A session whose flag is as the caller wants it does nothing. -/
theorem pause_of_resolved (h : mode.resolve s.paused = s.paused) : s.pause mode = quiet s := by
  simp [pause, h]

/-- The flag is as the caller wanted it, unless the session is on its way out. -/
theorem paused_of_pause (s : Session) (mode : PauseMode) :
    s.pause mode = quiet s ∨ (s.pause mode).session.paused = mode.resolve s.paused := by
  by_cases hquiet : (s.phase.isTerminal || s.phase == .cancelling) = true
  · exact .inl (by rw [pause, if_pos hquiet])
  · by_cases hflag : mode.resolve s.paused = s.paused
    · exact .inl (pause_of_resolved hflag)
    · right
      cases htarget : mode.resolve s.paused with
      | true =>
        have hs : s.pause mode = s.suspend := by
          rw [htarget] at hflag
          simp [pause, hquiet, htarget, hflag]
        simp [hs, suspend_eq, suspended]
      | false =>
        have hs : s.pause mode = start { s with paused := false } := by
          rw [htarget] at hflag
          simp [pause, hquiet, htarget, hflag]
        rw [hs]
        exact (leads_start { s with paused := false }).paused

/-- To pause a paused session does nothing, and neither does it to unpause one that is not. -/
theorem pause_pause (s : Session) (hm : mode ≠ .toggle) :
    (s.pause mode).session.pause mode = quiet (s.pause mode).session := by
  rcases s.paused_of_pause mode with hquiet | hflag
  · rw [hquiet]
    exact hquiet
  · refine pause_of_resolved ?_
    rw [hflag]
    cases mode with
    | toggle => exact absurd rfl hm
    | pause | unpause => rfl

/-! ### Runs -/

/-- After the inputs `before` the caller paused the session, and the inputs `during` have not ended
the pause. -/
structure PausedSince (s : Session) (before : List Input) (mode : PauseMode)
    (during : List Input) : Prop where
  awake : (s.run before).session.Awake
  began : (s.run before).session.step (.pause mode) = (s.run before).session.suspend
  lasting : ∀ i ∈ during, i.resumes = false

namespace PausedSince

variable {before during rest : List Input}

theorem of_prefix (h : s.PausedSince before mode during) (hpre : rest <+: during) :
    s.PausedSince before mode rest :=
  ⟨h.awake, h.began, fun i hi => h.lasting i (hpre.subset hi)⟩

theorem append (h : s.PausedSince before mode during) {more : List Input}
    (hmore : ∀ i ∈ more, i.resumes = false) : s.PausedSince before mode (during ++ more) where
  awake := h.awake
  began := h.began
  lasting i hi := (List.mem_append.1 hi).elim (h.lasting i) (hmore i)

/-- The session is as the beginning of the pause left it. -/
theorem session_eq (h : s.PausedSince before mode during) :
    (s.run (before ++ .pause mode :: during)).session = (s.run before).session.suspended := by
  rw [run_append, Reaction.andThen_session, run, Reaction.andThen_session, h.began, suspend_eq,
    resting_suspended.run h.lasting, Reaction.quiet_session]

end PausedSince

/-- At every moment a session is awake or in a pause. -/
theorem awake_or_paused (h : s.Awake) (is : List Input) :
    (s.run is).session.Awake ∨
      ∃ before mode during, is = before ++ .pause mode :: during ∧
        s.PausedSince before mode during := by
  induction is using List.reverseRecOn with
  | nil => exact .inl h
  | append_singleton is i ih =>
    have hrun : (s.run (is ++ [i])).session = ((s.run is).session.step i).session := by
      rw [run_concat]
      rfl
    rcases ih with hawake | ⟨before, mode, during, rfl, hpaused⟩
    · rcases hawake.step i with hstep | ⟨mode, rfl, hstep⟩
      · left
        rwa [hrun]
      -- the pause begins
      · exact .inr ⟨is, mode, [], rfl, hawake, hstep, by simp⟩
    · cases hi : i.resumes with
      | false =>
        exact .inr ⟨before, mode, during ++ [i], by simp, hpaused.append (by simpa using hi)⟩
      -- the pause ends
      | true =>
        left
        obtain ⟨m, rfl, hm⟩ : ∃ m, i = .pause m ∧ m ≠ .pause := by
          cases i with
          | pause m => exact ⟨m, rfl, by rintro rfl; cases hi⟩
          | _ => cases hi
        rw [hrun, hpaused.session_eq, resting_suspended.resume hm]
        exact ⟨by simp [reconnected], rfl⟩

/-- A pause that began after `before` ends in this way: one new channel is asked for, on which the
upload goes on from what had been acknowledged when the pause began. -/
structure Resumes (s : Session) (before is : List Input) (r : Reaction) : Prop where
  effects : ∃ conn, r.effects = [.openChannel conn] ∧ .openChannel conn ∉ (s.run is).effects
  notices : r.notices = []
  phase : r.session.phase = .connecting
  sent : r.session.sent = (s.run before).session.acked

/-- What a session that was told `is` does with pauses. -/
structure Pauses (s : Session) (is : List Input) : Prop where
  /-- A paused session was paused by the caller at some moment and has been paused ever since.
  Until the caller ends the pause, nothing that it is told has any effect. -/
  paused : (s.run is).session.phase = .paused →
    ∃ before mode during, is = before ++ .pause mode :: during ∧
      (s.run before).session.phase ≠ .paused ∧
      (∀ rest, rest <+: during →
        (s.run (before ++ .pause mode :: rest)).session.phase = .paused) ∧
      ∀ more, (∀ i ∈ more, i.resumes = false) →
        (s.run is).session.run more = quiet (s.run is).session ∧
          ∀ mode, mode ≠ .pause →
            s.Resumes before (is ++ more) ((s.run (is ++ more)).session.step (.pause mode))
  /-- What was asked for once need not be asked for again. -/
  once : ∀ mode, mode ≠ .toggle →
    (s.run is).session.run [.pause mode, .pause mode] = (s.run is).session.run [.pause mode]

/-- The caller ends a pause, at whatever moment of it. -/
theorem PausedSince.resumes (id : String) (total : UInt64) (delay : Nat)
    {before during : List Input} {m : PauseMode}
    (h : (new id total delay).PausedSince before mode during) (hm : m ≠ .pause) :
    (new id total delay).Resumes before (before ++ .pause mode :: during)
      (((new id total delay).run (before ++ .pause mode :: during)).session.step (.pause m)) := by
  have hrest : ((new id total delay).run (before ++ .pause mode :: during)).session.Resting := by
    rw [h.session_eq]
    exact resting_suspended
  rw [hrest.resume hm]
  refine ⟨⟨_, rfl, fun hopened => ?_⟩, rfl, rfl, ?_⟩
  -- the connection has the number after all that were used
  · exact absurd (number_le_of_acquires id total delay hopened rfl) (Nat.not_succ_le_self _)
  · rw [h.session_eq]
    rfl

/-- **A pause loses nothing, and nothing happens in it**, whatever the session was told before. -/
theorem pauses_run (id : String) (total : UInt64) (delay : Nat) (is : List Input) :
    (new id total delay).Pauses is := by
  constructor
  · intro hp
    have hnew : (new id total delay).Awake := ⟨by simp [new], rfl⟩
    rcases awake_or_paused hnew is with hawake | ⟨before, mode, during, rfl, hpaused⟩
    · exact absurd hp hawake.phase_ne
    refine ⟨before, mode, during, rfl, hpaused.awake.phase_ne, ?_, ?_⟩
    · intro rest hpre
      rw [(hpaused.of_prefix hpre).session_eq]
      rfl
    · intro more hmore
      constructor
      · rw [hpaused.session_eq]
        exact resting_suspended.run hmore
      · intro m hm
        rw [List.append_assoc, List.cons_append]
        exact (hpaused.append hmore).resumes id total delay hm
  · intro mode hm
    have hstep := pause_pause ((new id total delay).run is).session hm
    simp only [run, step]
    refine Reaction.andThen_congr ?_
    rw [hstep]
    rfl

/-- The channel is lost in the middle of a transfer, and the caller pauses before the next attempt.
Neither the timer, nor the channel, nor a cancellation disturbs the pause. -/
theorem pauses_run_of_pending_retry :
    ((new "upload" 10 500).run [.start, .channelOpened ⟨1⟩,
      .record ⟨1⟩ (.uploadConfig ⟨4, 2, 2⟩), .channelClosed ⟨1⟩, .pause .toggle,
      .retryElapsed ⟨1⟩, .channelClosed ⟨1⟩, .cancel "too late"]).session.phase = .paused ∧
    (new "upload" 10 500).Pauses [.start, .channelOpened ⟨1⟩,
      .record ⟨1⟩ (.uploadConfig ⟨4, 2, 2⟩), .channelClosed ⟨1⟩, .pause .toggle,
      .retryElapsed ⟨1⟩, .channelClosed ⟨1⟩, .cancel "too late"] :=
  ⟨by decide, pauses_run "upload" 10 500 _⟩

end Session

end ResumableUpload
