import ResumableUpload.Proofs.Absorption

/-!
# What the observer learns of the end

An upload that is finished or cancelled is reported so, once, and an upload that fails is reported
neither way: the last that the observer then hears is the error.

* `Notice.Truthful` : the snapshot of a notice bears out its hook.
* `Session.Honest` : the error and the reasons that a session carries fit its phase.
* `Session.Report` : what a transition of a session that has not ended tells, and leaves behind
  (`Session.report_of_transition`).
* `Session.outcome_run` : what the observer of a run learns.
-/

namespace ResumableUpload

/-- The notification says that the upload is over. -/
def Hook.isFinal : Hook → Bool
  | finished | cancelled => true
  | progress | error => false

/-- The notification that a phase calls for when it is entered. -/
def Phase.verdict : Phase → Option Hook
  | finished => some .finished
  | cancelled => some .cancelled
  | _ => none

theorem Phase.verdict_eq_none {p : Phase} (h : p.isTerminal = false) : p.verdict = none := by
  cases p <;> simp_all [isTerminal, verdict]

/-- The notifications among these that say that the upload is over, in order. -/
def verdicts (ns : List Notice) : List Hook := (ns.map (·.hook)).filter Hook.isFinal

theorem verdicts_append (ns ms : List Notice) : verdicts (ns ++ ms) = verdicts ns ++ verdicts ms := by
  simp [verdicts]

/-- The snapshot of a notice bears out what its hook says. -/
def Notice.Truthful (n : Notice) : Prop :=
  match n.hook with
  | .finished => n.snapshot.phase = .finished ∧ n.snapshot.acked = n.snapshot.total ∧
      n.snapshot.error = none ∧ n.snapshot.cancelReason = none
  | .cancelled => n.snapshot.phase = .cancelled ∧ n.snapshot.cancelReason.isSome = true
  | .error => n.snapshot.error.isSome = true
  | .progress => True

namespace Session

open Reaction (quiet ask tell)

/-- What a session carries along of an error or a cancellation. -/
structure Marks where
  error : Option SessionError
  cancelReason : Option String
  pendingReason : Option String
  interrupted : Option Phase
  deriving DecidableEq, Repr

/-- Neither an error nor a cancellation has left a mark. -/
def Marks.clear : Marks := ⟨none, none, none, none⟩

/-- The marks of a session. -/
def marks (s : Session) : Marks := ⟨s.error, s.cancelReason, s.pendingReason, s.interrupted⟩

/-- The marks of a session fit its phase. -/
structure Honest (s : Session) : Prop where
  reason_iff : s.cancelReason.isSome = true ↔ s.phase = .cancelled
  error_of_errored : s.phase = .errored → s.error.isSome = true
  phase_of_error : s.error.isSome = true →
    s.phase = .cancelling ∨ s.phase = .cancelled ∨ s.phase = .errored
  pending : s.pendingReason.isSome = true → s.phase = .cancelling
  interrupted : s.interrupted.isSome = true → s.phase = .cancelling

/-- What the reaction of a session that has not ended tells and leaves behind. -/
structure Report (r : Reaction) : Prop where
  honest : r.session.Honest
  truthful : ∀ n ∈ r.notices, n.Truthful
  verdicts_eq : verdicts r.notices = r.session.phase.verdict.toList
  /-- Of an error that ends the session the observer hears last. -/
  errored : r.session.phase = .errored →
    ∃ n, r.notices.getLast? = some n ∧ n.hook = .error ∧ n.snapshot.phase = .errored

variable {s : Session} {i : Input} {r : Reaction}

/-! ### Marks -/

theorem requestNextChunk_marks : s.requestNextChunk.session.marks = s.marks := by
  rw [requestNextChunk_session]
  rfl

theorem Honest.cancelReason_eq_none (h : s.Honest) (ht : s.phase.isTerminal = false) :
    s.cancelReason = none := by
  by_contra hne
  have hp := h.reason_iff.1 (Option.isSome_iff_ne_none.2 hne)
  simp [hp, Phase.isTerminal] at ht

/-- A session that goes on is not marked. -/
theorem Honest.marks_eq (h : s.Honest) (ht : s.phase.isTerminal = false)
    (hc : s.phase ≠ .cancelling) : s.marks = .clear := by
  have hreason := h.cancelReason_eq_none ht
  have herror : s.error = none := by
    by_contra hne
    rcases h.phase_of_error (Option.isSome_iff_ne_none.2 hne) with hp | hp | hp <;>
      simp_all [Phase.isTerminal]
  have hpending : s.pendingReason = none := by
    by_contra hne
    exact hc (h.pending (Option.isSome_iff_ne_none.2 hne))
  have hinterrupted : s.interrupted = none := by
    by_contra hne
    exact hc (h.interrupted (Option.isSome_iff_ne_none.2 hne))
  simp [marks, Marks.clear, *]

theorem honest_of_clear (hm : s.marks = .clear) (hc : s.phase ≠ .cancelled)
    (he : s.phase ≠ .errored) : s.Honest := by
  obtain ⟨herror, hreason, hpending, hinterrupted⟩ := Marks.mk.injEq .. ▸ hm
  constructor <;> simp [*]

/-! ### What transitions tell -/

namespace Report

/-- The session goes on, and nothing that is told says otherwise. -/
theorem of_active (hh : r.session.Honest) (hp : r.session.phase.isTerminal = false)
    (hn : ∀ n ∈ r.notices, n.hook.isFinal = false ∧ n.Truthful) : Report r where
  honest := hh
  truthful n hmem := (hn n hmem).2
  verdicts_eq := by
    rw [Phase.verdict_eq_none hp, Option.toList_none, verdicts, List.filter_eq_nil_iff]
    rintro _ hmem
    obtain ⟨n, hmem', rfl⟩ := List.mem_map.1 hmem
    simp [(hn n hmem').1]
  errored he := by simp [he, Phase.isTerminal] at hp

/-- The session goes on unmarked, and tells of progress at most. -/
theorem of_clear (hm : r.session.marks = .clear) (hp : r.session.phase.isTerminal = false)
    (hn : ∀ n ∈ r.notices, n.hook = .progress) : Report r := by
  refine of_active (honest_of_clear hm ?_ ?_) hp fun n hmem => ?_
  · intro hph
    simp [hph, Phase.isTerminal] at hp
  · intro hph
    simp [hph, Phase.isTerminal] at hp
  · simp [Notice.Truthful, hn n hmem, Hook.isFinal]

/-- What is done before without telling does not count. -/
theorem of_silent {f : Session → Reaction} (hr : r.notices = []) (h : Report (f r.session)) :
    Report (r.andThen f) where
  honest := h.honest
  truthful n hmem := h.truthful n (by simpa [hr] using hmem)
  verdicts_eq := by simpa [hr] using h.verdicts_eq
  errored he := by simpa [hr] using h.errored he

/-- The session ends with an error. -/
theorem of_errored (e : SessionError) (p : Snapshot) (hp : r.session.phase = .errored)
    (hm : r.session.marks = { Marks.clear with error := some e })
    (hn : r.notices = [⟨.error, p⟩]) (hphase : p.phase = .errored) (herror : p.error = some e) :
    Report r where
  honest := by
    obtain ⟨he, hreason, hpending, hinterrupted⟩ := Marks.mk.injEq .. ▸ hm
    constructor <;> simp_all [Marks.clear]
  truthful n hmem := by
    obtain rfl : n = ⟨.error, p⟩ := by simpa [hn] using hmem
    simp [Notice.Truthful, herror]
  verdicts_eq := by simp [hn, hp, verdicts, Hook.isFinal, Phase.verdict]
  errored _ := ⟨⟨.error, p⟩, by simp [hn], rfl, hphase⟩

/-- The server has broken the protocol. -/
theorem of_violate (hreason : s.cancelReason = none) (v : Violation) : Report (s.violate v) := by
  refine of_errored (.violation v) (s.violate v).session.snapshot ?_ ?_ ?_ ?_ ?_
  · simp [violate, released]
  · simp [violate, released, marks, Marks.clear, hreason]
  · simp [violate, released]
  · simp [violate, released, snapshot]
  · simp [violate, released, snapshot]

/-- The session ends on the word of the server. -/
theorem of_cancelled (reason : String) (hp : r.session.phase = .cancelled)
    (hm : r.session.marks = { Marks.clear with
      error := r.session.error, cancelReason := some reason })
    (hn : r.notices = [⟨.cancelled, r.session.snapshot⟩]) : Report r where
  honest := by
    obtain ⟨-, hreason, hpending, hinterrupted⟩ := Marks.mk.injEq .. ▸ hm
    constructor <;> simp_all [Marks.clear]
  truthful n hmem := by
    obtain rfl : n = _ := by simpa [hn] using hmem
    obtain ⟨-, hreason, -⟩ := Marks.mk.injEq .. ▸ hm
    simp [Notice.Truthful, snapshot, hp, hreason]
  verdicts_eq := by simp [hn, hp, verdicts, Hook.isFinal, Phase.verdict]
  errored he := by simp [hp] at he

/-- Every byte is acknowledged, and the server is done. -/
theorem of_finished (hm : s.marks = .clear) (ha : s.acked = s.total.toNat) :
    Report (shutDown { s with phase := .finished } |>.andThen (tell .finished)) := by
  obtain ⟨herror, hreason, hpending, hinterrupted⟩ := Marks.mk.injEq .. ▸ hm
  constructor
  · refine honest_of_clear ?_ ?_ ?_
    · simpa [released, marks] using hm
    · simp [released]
    · simp [released]
  · rintro n hmem
    obtain rfl : n = _ := by simpa using hmem
    simp [Notice.Truthful, snapshot, released, ha, herror, hreason]
  · simp [verdicts, released, Hook.isFinal, Phase.verdict]
  · intro he
    simp [released] at he

/-- The session ends without the word of the server. -/
theorem of_endUnconfirmed (hpending : s.pendingReason = none) (hinterrupted : s.interrupted = none)
    (reason : String) (e : SessionError) : Report (s.endUnconfirmed (some reason) e) where
  honest := by
    rw [endUnconfirmed_session]
    constructor <;> simp [hpending, hinterrupted]
  truthful n hmem := by
    cases he : s.error with
    | none =>
      simp only [endUnconfirmed, he, Reaction.andThen_notices] at hmem
      rcases List.mem_append.1 hmem with hmem | hmem
      · obtain rfl := List.mem_singleton.1 hmem
        simp [Notice.Truthful, snapshot]
      · obtain rfl : n = _ := by simpa using hmem
        simp [Notice.Truthful, snapshot]
    | some e' =>
      obtain rfl : n = _ := by simpa [endUnconfirmed, he] using hmem
      simp [Notice.Truthful, snapshot]
  verdicts_eq := by
    cases he : s.error <;>
      simp [endUnconfirmed, he, verdicts, List.filter, Hook.isFinal, Phase.verdict]
  errored hp := by simp at hp

end Report

/-- A session that has asked the server to cancel carries the reason that it gave. -/
theorem honest_cancelling (hreason : s.cancelReason = none) (reason : String)
    (e : Option SessionError) : Honest { s.cancelling reason with error := e } := by
  constructor <;> simp [cancelling, hreason]

/-- **What a session tells fits what becomes of it.** -/
theorem report_of_transition (h : s.Consistent) (hs : s.Honest)
    (hactive : s.phase.isTerminal = false) (ht : s.Transition i r) : Report r := by
  -- a session that is not being cancelled has no marks
  have hclear (hc : s.phase ≠ .cancelling) : s.marks = .clear := hs.marks_eq hactive hc
  have hreason := hs.cancelReason_eq_none hactive
  cases ht with
  | ignored => exact .of_active hs hactive (by simp)
  | restarted _ hc => exact .of_clear (hclear hc) rfl (by simp)
  | unpaused hp => exact .of_clear (hclear (by simp [hp])) rfl (by simp)
  | retried hl =>
    exact .of_clear (hclear (Phase.goesOn_of_isLive hl).2.1) rfl (by simp)
  | opened hp => exact .of_clear (hclear (by simp [hp])) rfl (by simp)
  | suspended _ hc => exact .of_clear (hclear hc) rfl (by simp)
  | cancelSent =>
    exact .of_active (honest_cancelling hreason _ s.error) rfl (by simp)
  | serverFailed | readFailed =>
    exact .of_active (honest_cancelling hreason _ _) rfl
      (by simp [Hook.isFinal, Notice.Truthful, snapshot])
  | cancelledOffline hl =>
    obtain ⟨-, -, hpending, hinterrupted⟩ := Marks.mk.injEq .. ▸
      hclear (Phase.goesOn_of_isLive hl).2.1
    refine .of_silent (by simp) (.of_endUnconfirmed ?_ ?_ _ _)
    · simpa [released] using hpending
    · simpa [released] using hinterrupted
  | cancelConfirmed hp =>
    obtain ⟨reason, hpending⟩ := Option.isSome_iff_exists.1 (h.cancelling hp).2.2.1
    refine .of_cancelled reason ?_ ?_ ?_
    · simp [finishCancel, released]
    · simp [finishCancel, released, marks, Marks.clear, hpending]
    · simp [finishCancel, released]
  | @serverCancelled _ reason =>
    refine .of_cancelled reason ?_ ?_ ?_
    · simp [onServerCancel, released]
    · simp [onServerCancel, released, marks, Marks.clear]
    · simp [onServerCancel, released]
  | violated v => exact .of_violate hreason v
  | undecodable => exact .of_violate hreason _
  | finished hp => exact .of_finished (hclear (by simp [hp])) (h.complete (.inl hp)).1
  | @failedCompleting _ code message hp =>
    refine .of_errored (.reported code message)
      (s.endWith (.reported code message)).session.snapshot ?_ ?_ ?_ ?_ ?_
    · simp [endWith, released]
    · simp only [endWith, Reaction.andThen_session, shutDown_session, Reaction.tell_session]
      exact congrArg (fun m : Marks => { m with error := some (.reported code message) })
        (hclear (by simp [hp]))
    · simp [endWith]
    · simp [endWith, released, snapshot]
    · simp [endWith, released, snapshot]
  | @failedUncancelled _ code message hp =>
    refine .of_errored (.reported code message)
      (snapshot { s with error := some (.reported code message), phase := .errored }) ?_ ?_ ?_ rfl
      rfl
    · simp [released]
    · simp only [Reaction.andThen_session, shutDown_session, Reaction.tell_session]
      exact congrArg (fun m : Marks => { m with error := some (.reported code message) })
        (hclear (by simp [hp]))
    · simp
  | errorNoted hp =>
    refine .of_active ?_ (by simp [hp, Phase.isTerminal])
      (by simp [Hook.isFinal, Notice.Truthful, snapshot])
    constructor <;> simp [hp, hreason]
  -- the marks of a cancellation that is not confirmed stay as they are
  | configNoted hp | ackNoted hp =>
    exact .of_active ⟨hs.reason_iff, hs.error_of_errored, hs.phase_of_error, hs.pending,
      hs.interrupted⟩ hactive (by simp [Hook.isFinal, Notice.Truthful])
  | configCompletes hp => exact .of_clear (hclear (by simp [hp])) rfl (by simp)
  | configBegins hp =>
    refine .of_clear ?_ ?_ (by simp)
    · simp only [Reaction.andThen_session, Reaction.tell_session, requestNextChunk_marks]
      exact hclear (by simp [hp])
    · simp [Phase.isTerminal]
  | ackCompletes hp => exact .of_clear (hclear (by simp [hp])) rfl (by simp)
  | ackContinues hp =>
    refine .of_clear ?_ ?_ (by simp)
    · simp only [Reaction.andThen_session, Reaction.tell_session, requestNextChunk_marks]
      exact hclear (by simp [hp])
    · simpa [acknowledged] using hactive
  | sent hr =>
    have hp := (h.read _ _ hr).1
    rw [sendChunk_endRead]
    refine .of_clear ?_ ?_ (by simp)
    · simp only [requestNextChunk_marks]
      exact hclear (by simp [hp])
    · simpa [chunkSent] using hactive
  | lost hl =>
    have hmarks := hclear (Phase.goesOn_of_isLive hl).2.1
    refine .of_clear ?_ ?_ ?_
    · simpa [awaitRetry_eq, endRead, marks] using hmarks
    · simpa [awaitRetry_eq, endRead] using hactive
    · simp [awaitRetry_eq]
  | cancelLost hp =>
    obtain ⟨reason, hpending⟩ := Option.isSome_iff_exists.1 (h.cancelling hp).2.2.1
    refine .of_silent (by simp) (.of_silent (by simp) ?_)
    rw [show (abortRead { s with channel := none }).session.pendingReason = some reason by
      simpa [endRead] using hpending]
    exact .of_endUnconfirmed (by simp) (by simp) _ _

/-! ### Runs -/

/-- What is told before the end is no verdict, so that the last part of a report is the verdict. -/
theorem Report.andThen {f : Session → Reaction} (h : Report r)
    (hp : r.session.phase.isTerminal = false) (hf : Report (f r.session)) :
    Report (r.andThen f) where
  honest := hf.honest
  truthful n hmem := (List.mem_append.1 hmem).elim (h.truthful n) (hf.truthful n)
  verdicts_eq := by
    rw [Reaction.andThen_notices, verdicts_append, h.verdicts_eq, hf.verdicts_eq,
      Phase.verdict_eq_none hp]
    rfl
  errored he := by
    obtain ⟨n, hn, hrest⟩ := hf.errored he
    refine ⟨n, ?_, hrest⟩
    rw [Reaction.andThen_notices, List.getLast?_append, hn, Option.some_or]

theorem report_run (id : String) (total : UInt64) (delay : Nat) {is : List Input}
    (h : OpensOnce is) : Report ((new id total delay).run is) := by
  refine run_induction id total delay (P := fun _ r => Report r) ?_ ?_ h
  · exact .of_clear rfl rfl (by simp)
  · rintro is i _ rfl hcons htimely hreport
    cases hp : ((new id total delay).run is).session.phase.isTerminal with
    | true =>
      have hsettled := (robust_run id total delay is).settled hp
      rwa [Reaction.andThen_of_quiet (hsettled.step hp i)]
    | false =>
      exact hreport.andThen hp
        (report_of_transition hcons hreport.honest hp (transition hcons htimely))

/-- The input takes the session into this phase. -/
def Enters (s : Session) (i : Input) (p : Phase) : Prop :=
  s.phase ≠ p ∧ (s.step i).session.phase = p

/-- What the observer learns of a run. -/
structure Outcome (s : Session) (is : List Input) : Prop where
  /-- That the upload is finished or cancelled is told once at most. -/
  once : (verdicts (s.run is).notices).length ≤ 1
  finished_iff : ∀ js i, js ++ [i] <+: is →
    ((∃ n ∈ ((s.run js).session.step i).notices, n.hook = .finished) ↔
      (s.run js).session.Enters i .finished)
  cancelled_iff : ∀ js i, js ++ [i] <+: is →
    ((∃ n ∈ ((s.run js).session.step i).notices, n.hook = .cancelled) ↔
      (s.run js).session.Enters i .cancelled)
  truthful : ∀ n ∈ (s.run is).notices, n.Truthful
  /-- A failed upload is reported neither way, and its error is the last that is told. -/
  errored : (s.run is).session.phase = .errored →
    verdicts (s.run is).notices = [] ∧
      ∃ n, (s.run is).notices.getLast? = some n ∧ n.hook = .error ∧ n.snapshot.phase = .errored
  honest : (s.run is).session.Honest
  /-- After the end nothing is told. -/
  silent : ∀ js i, js ++ [i] <+: is → (s.run js).session.phase.isTerminal = true →
    ((s.run js).session.step i).notices = []

theorem mem_verdicts {ns : List Notice} {hook : Hook} (hf : hook.isFinal = true) :
    hook ∈ verdicts ns ↔ ∃ n ∈ ns, n.hook = hook := by
  simp [verdicts, hf]

/-- A verdict is told by the input that takes the session into the phase that calls for it. -/
theorem told_iff_enters (id : String) (total : UInt64) (delay : Nat) {js : List Input} {i : Input}
    (h : OpensOnce (js ++ [i])) {p : Phase} {hook : Hook} (hp : p.verdict = some hook) :
    (∃ n ∈ (((new id total delay).run js).session.step i).notices, n.hook = hook) ↔
      ((new id total delay).run js).session.Enters i p := by
  have hfinal : hook.isFinal = true ∧ p.isTerminal = true := by
    cases p <;> cases hp <;> exact ⟨rfl, rfl⟩
  cases hend : ((new id total delay).run js).session.phase.isTerminal with
  | true =>
    have hquiet := ((robust_run id total delay js).settled hend).step hend i
    simp [hquiet, Enters]
  | false =>
    have hreport := report_of_transition (consistent_run id total delay h.init)
      (report_run id total delay h.init).honest hend (transition_run id total delay h)
    rw [← mem_verdicts hfinal.1, hreport.verdicts_eq, Option.mem_toList]
    constructor
    · intro hverdict
      refine ⟨fun hph => by simp [hph, hfinal.2] at hend, ?_⟩
      -- each verdict belongs to one phase
      cases hr : (((new id total delay).run js).session.step i).session.phase <;>
        rw [hr] at hverdict <;> cases hverdict <;> cases p <;> cases hp <;> rfl
    · rintro ⟨-, hph⟩
      rw [hph]
      exact hp

/-- **The observer learns what becomes of an upload.** That it is finished or cancelled is told
once, by the input with which it ends so and with a snapshot that bears it out; if it fails, the
last that is told is the error. Nothing is told afterwards. -/
theorem outcome_run (id : String) (total : UInt64) (delay : Nat) {is : List Input}
    (h : OpensOnce is) : (new id total delay).Outcome is where
  once := by
    rw [(report_run id total delay h).verdicts_eq]
    exact Option.length_toList_le
  finished_iff _ _ hpre := told_iff_enters id total delay (h.of_prefix hpre) rfl
  cancelled_iff _ _ hpre := told_iff_enters id total delay (h.of_prefix hpre) rfl
  truthful := (report_run id total delay h).truthful
  errored he := by
    refine ⟨?_, (report_run id total delay h).errored he⟩
    rw [(report_run id total delay h).verdicts_eq, he]
    rfl
  honest := (report_run id total delay h).honest
  silent js i _ hend := by
    rw [((robust_run id total delay js).settled hend).step hend i]
    rfl

/-- The server reports an error, and the channel is lost before it confirms the cancellation that
the error calls for. -/
theorem outcome_run_of_server_error :
    OpensOnce [.start, .channelOpened ⟨1⟩, .record ⟨1⟩ (.uploadConfig ⟨4, 0, 2⟩),
      .record ⟨1⟩ (.error 7 "disk full"), .channelClosed ⟨1⟩] ∧
    (new "upload" 10 500).Outcome [.start, .channelOpened ⟨1⟩,
      .record ⟨1⟩ (.uploadConfig ⟨4, 0, 2⟩), .record ⟨1⟩ (.error 7 "disk full"),
      .channelClosed ⟨1⟩] :=
  ⟨by decide, outcome_run "upload" 10 500 (by decide)⟩

end Session

end ResumableUpload
