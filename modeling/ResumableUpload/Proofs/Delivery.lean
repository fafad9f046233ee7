import Mathlib.Data.List.Infix
import ResumableUpload.Channel.Writer

/-!
# What a writer delivers

Whatever is queued before it starts or while it is at work, whenever it is told to stop, and
whichever writes fail, a writer writes the frames of its queue in order. What it has taken from the
queue is written, but for one frame on which it broke.

A writer looks at its queue, and whether it is to stop, only between two writes. What happens while
a frame is on its way to the sink therefore counts as an event after that turn.

* `Channel.Writer.Transition` : all that an event can do to a writer.
* `Channel.queuedBy` : the frames that events put on a queue.
* `Channel.Writer.Ledger` : the account of all frames that were ever on the queue. Every event
  keeps it (`Channel.Writer.Ledger.of_transition`, `Channel.Writer.ledger_run`).
* `Channel.Writer.delivers` : what was written, at any time and after the end.
-/

namespace ResumableUpload.Channel

/-- The frames that events put on the queue, until nobody is left who could. -/
def queuedBy : List WriterEvent → List Frame
  | [] => []
  | .enqueue f :: es => f :: queuedBy es
  | .abandon :: _ => []
  | .cancel :: es | .turn :: es => queuedBy es

namespace Writer

/-- A writer with these frames on its queue. -/
def holding (frames : List Frame) : Writer := { fresh with queue := frames }

/-- The frames that events put on the queue of this writer. -/
def queues (w : Writer) (es : List WriterEvent) : List Frame :=
  if w.abandoned then [] else queuedBy es

section Transitions

variable (fails : Nat → Bool)

/-- A write has failed. -/
def HasFailed (w : Writer) : Prop := ∃ k < w.tried, fails k = true

/-- What an event does to a writer. -/
inductive Transition (w : Writer) : WriterEvent → Writer → Prop
  | enqueued {f : Frame} (ha : w.abandoned = false) :
      Transition w (.enqueue f) { w with queue := w.queue ++ [f] }
  | refused {f : Frame} (ha : w.abandoned = true) : Transition w (.enqueue f) w
  | abandoned : Transition w .abandon { w with abandoned := true }
  | cancelled : Transition w .cancel { w with cancelled := true }
  | wrote {f : Frame} {rest : List Frame} (hs : w.state = .running) (hq : w.queue = f :: rest)
      (hf : fails w.tried = false) :
      Transition w .turn
        { w with queue := rest, written := w.written ++ [f], tried := w.tried + 1 }
  | broke {f : Frame} {rest : List Frame} (hs : w.state = .running) (hq : w.queue = f :: rest)
      (hf : fails w.tried = true) :
      Transition w .turn
        { w with queue := rest, state := .broken, cancelled := true, tried := w.tried + 1 }
  /-- The close frame is tried. Nobody takes notice if that fails. -/
  | closed {written : List Frame} (hs : w.state = .running) (hq : w.queue = [])
      (hend : w.abandoned = true ∨ w.cancelled = true)
      (hw : written = w.written ++ [.close] ∧ fails w.tried = false ∨
        written = w.written ∧ fails w.tried = true) :
      Transition w .turn { w with written := written, state := .closed, tried := w.tried + 1 }
  | idle
      (hidle : w.state ≠ .running ∨ w.queue = [] ∧ w.abandoned = false ∧ w.cancelled = false) :
      Transition w .turn w

/-- Every event does one of these things. -/
theorem transition (w : Writer) (e : WriterEvent) : Transition fails w e (w.step fails e) := by
  cases e with
  | enqueue f =>
    cases ha : w.abandoned with
    | false =>
      rw [step, if_neg (by simp [ha])]
      exact .enqueued ha
    | true =>
      rw [step, if_pos ha]
      exact .refused ha
  | abandon => exact .abandoned
  | cancel => exact .cancelled
  | turn =>
    rw [step, turn]
    split
    · rename_i hs
      split
      · rename_i f rest hq
        cases hf : fails w.tried with
        | false =>
          rw [writeQueued, if_neg (by simp [hf])]
          exact .wrote hs hq hf
        | true =>
          rw [writeQueued, if_pos hf]
          exact .broke hs hq hf
      · rename_i hq
        by_cases hend : (w.abandoned || w.cancelled) = true
        · rw [if_pos hend]
          rw [Bool.or_eq_true] at hend
          exact .closed hs hq hend (by cases hf : fails w.tried <;> simp)
        · rw [if_neg hend]
          exact .idle (.inr ⟨hq, by simpa using hend⟩)
    · rename_i hs
      exact .idle (.inl (by simpa using hs))

end Transitions

variable {fails : Nat → Bool} {w w' : Writer} {es before : List WriterEvent} {e : WriterEvent}
  {early all : List Frame}

/-! ### What stays -/

theorem tried_of_transition (ht : Transition fails w e w') : w.tried ≤ w'.tried := by
  cases ht <;> simp

theorem tried_run : w.tried ≤ (w.run fails es).tried := by
  induction es generalizing w with
  | nil => exact Nat.le_refl _
  | cons e es ih => exact Nat.le_trans (tried_of_transition (transition fails w e)) ih

theorem HasFailed.run (h : w.HasFailed fails) : (w.run fails es).HasFailed fails := by
  obtain ⟨k, hk, hf⟩ := h
  exact ⟨k, Nat.lt_of_lt_of_le hk tried_run, hf⟩

theorem queues_nil : w.queues [] = [] := by simp [queues, queuedBy]

theorem queues_of_abandoned (h : w.abandoned = true) : w.queues es = [] := by simp [queues, h]

theorem queues_cons (ht : Transition fails w e w') :
    w.queues (e :: es) = w.queues [e] ++ w'.queues es := by
  cases ht with
  | enqueued ha => simp [queues, ha, queuedBy]
  | refused ha => simp [queues, ha]
  | _ => simp [queues, queuedBy]

/-- All that events do to a writer that has ended: it writes nothing more. -/
structure Ended (w : Writer) (es : List WriterEvent) (w' : Writer) : Prop where
  state_eq : w'.state = w.state
  written_eq : w'.written = w.written
  tried_eq : w'.tried = w.tried
  queue_eq : w'.queue = w.queue ++ w.queues es
  abandoned : w.abandoned = true → w'.abandoned = true
  cancelled : w.cancelled = true → w'.cancelled = true

theorem ended_of_transition (h : w.state ≠ .running) (ht : Transition fails w e w') :
    Ended w [e] w' := by
  cases ht with
  | wrote hs | broke hs | closed hs => exact absurd hs h
  | enqueued ha => exact ⟨rfl, rfl, rfl, by simp [queues, ha, queuedBy], id, id⟩
  | refused ha => exact ⟨rfl, rfl, rfl, by simp [queues, ha], id, id⟩
  | abandoned => exact ⟨rfl, rfl, rfl, by simp [queues, queuedBy], fun _ => rfl, id⟩
  | cancelled => exact ⟨rfl, rfl, rfl, by simp [queues, queuedBy], id, fun _ => rfl⟩
  | idle => exact ⟨rfl, rfl, rfl, by simp [queues, queuedBy], id, id⟩

theorem run_of_ended (h : w.state ≠ .running) (es : List WriterEvent) :
    Ended w es (w.run fails es) := by
  induction es generalizing w with
  | nil => exact ⟨rfl, rfl, rfl, by simp [queues_nil], id, id⟩
  | cons e es ih =>
    have ht := transition fails w e
    have hfirst := ended_of_transition h ht
    have hrest := ih (w := w.step fails e) (by rwa [hfirst.state_eq])
    exact
      { state_eq := hrest.state_eq.trans hfirst.state_eq
        written_eq := hrest.written_eq.trans hfirst.written_eq
        tried_eq := hrest.tried_eq.trans hfirst.tried_eq
        queue_eq := by
          rw [queues_cons ht, ← List.append_assoc, ← hfirst.queue_eq]
          exact hrest.queue_eq
        abandoned := hrest.abandoned ∘ hfirst.abandoned
        cancelled := hrest.cancelled ∘ hfirst.cancelled }

/-- A writer is cancelled by the caller, or because it broke. -/
theorem cancelled_of_transition (ht : Transition fails w e w') (h : w'.cancelled = true) :
    w.cancelled = true ∨ e = .cancel ∨ w'.state = .broken := by
  cases ht with
  | cancelled => exact .inr (.inl rfl)
  | broke => exact .inr (.inr rfl)
  | _ => exact .inl h

theorem cancelled_run (h : (w.run fails es).cancelled = true) :
    w.cancelled = true ∨ .cancel ∈ es ∨ (w.run fails es).state = .broken := by
  induction es using List.reverseRecOn with
  | nil => exact .inl h
  | append_singleton es e ih =>
    have ht := transition fails (w.run fails es) e
    rw [run_append, run_cons, run_nil] at h ⊢
    rcases cancelled_of_transition ht h with hcan | rfl | hbroken
    · rcases ih hcan with hw | hmem | hbroken
      · exact .inl hw
      · exact .inr (.inl (List.mem_append_left _ hmem))
      · have hended : (w.run fails es).state ≠ .running := by simp [hbroken]
        exact .inr (.inr ((ended_of_transition hended ht).state_eq.trans hbroken))
    · exact .inr (.inl (List.mem_append_right _ List.mem_cons_self))
    · exact .inr (.inr hbroken)

/-! ### The account of the queue -/

/-- Where the frames are that were ever on the queue of a writer: `all` of them, and `early` those
from before some moment at which it was at work. -/
inductive Ledger (fails : Nat → Bool) (early all : List Frame) (w : Writer) : Prop
  /-- They are written or wait. -/
  | running (hs : w.state = .running) (hall : w.written ++ w.queue = all) (hearly : early <+: all)
  /-- Those that were on the queue in time are written, and after them the close frame. Without a
  cancellation all were in time. -/
  | closed (hs : w.state = .closed) (front : List Frame)
      (hw : w.written = front ++ [.close] ∨ w.written = front ∧ w.HasFailed fails)
      (hall : front ++ w.queue = all) (hearly : early <+: front)
      (hcalm : w.cancelled = false → w.abandoned = true ∧ w.queue = [])
  /-- One is lost, those before it are written and those after it still wait. -/
  | broken (hs : w.state = .broken) (f : Frame) (hall : w.written ++ f :: w.queue = all)
      (hfailed : w.HasFailed fails)

/-- Every event keeps the account. -/
theorem Ledger.of_transition (h : Ledger fails early all w) (ht : Transition fails w e w') :
    Ledger fails early (all ++ w.queues [e]) w' := by
  cases h with
  | running hs hall hearly =>
    have hearly' : early <+: all ++ w.queues [e] := hearly.trans (List.prefix_append _ _)
    -- what is not written is put after what is, and the writer takes its frames from there
    cases ht with
    | enqueued ha =>
      refine .running hs ?_ hearly'
      simp [queues, ha, queuedBy, ← hall]
    | refused ha => exact .running hs (by simp [queues, ha, hall]) hearly'
    | abandoned | cancelled | idle =>
      exact .running hs (by simp [queues, queuedBy, hall]) hearly'
    | wrote _ hq => exact .running hs (by simp [queues, queuedBy, ← hall, hq]) hearly'
    | @broke f rest _ hq hf =>
      refine .broken rfl f ?_ ⟨w.tried, Nat.lt_succ_self _, hf⟩
      simp [queues, queuedBy, ← hall, hq]
    | closed _ hq hend hw =>
      -- nothing waits, so that all that was ever on the queue is written
      have hfront : w.written = all := by simpa [hq] using hall
      refine .closed rfl w.written ?_ ?_ (hfront ▸ hearly) fun hcan => ?_
      · exact hw.imp And.left fun ⟨hw, hf⟩ => ⟨hw, w.tried, Nat.lt_succ_self _, hf⟩
      · simp [queues, queuedBy, hall]
      · have hnot : w.cancelled ≠ true := by simpa using hcan
        exact ⟨hend.resolve_right hnot, hq⟩
  | closed hs front hw hall hearly hcalm =>
    obtain ⟨hs', hw', htried, hq', ha', hc'⟩ := ended_of_transition (by simp [hs]) ht
    refine .closed (hs'.trans hs) front ?_ ?_ hearly fun hcan => ?_
    · rwa [hw', HasFailed, htried]
    · rw [hq', ← List.append_assoc, hall]
    · have hnot : w.cancelled = false := Bool.eq_false_iff.2 fun h => by simp [hc' h] at hcan
      obtain ⟨ha, hq⟩ := hcalm hnot
      exact ⟨ha' ha, by rw [hq', hq, queues_of_abandoned ha, List.append_nil]⟩
  | broken hs f hall hfailed =>
    obtain ⟨hs', hw', htried, hq', -, -⟩ := ended_of_transition (by simp [hs]) ht
    refine .broken (hs'.trans hs) f ?_ ?_
    · rw [hw', hq', ← hall]
      simp
    · rwa [HasFailed, htried]

theorem ledger_run (h : Ledger fails early all w) (es : List WriterEvent) :
    Ledger fails early (all ++ w.queues es) (w.run fails es) := by
  induction es generalizing w all with
  | nil =>
    rw [queues_nil, List.append_nil]
    exact h
  | cons e es ih =>
    have ht := transition fails w e
    rw [queues_cons ht, ← List.append_assoc]
    exact ih (h.of_transition ht)

theorem ledger_holding (fails : Nat → Bool) (frames : List Frame) (es : List WriterEvent) :
    Ledger fails frames (frames ++ queuedBy es) ((holding frames).run fails es) :=
  ledger_run (w := holding frames) (.running rfl rfl (List.prefix_refl _)) es

theorem Ledger.all_eq (h : Ledger fails early all w) (hs : w.state = .running) :
    w.written ++ w.queue = all := by
  cases h with
  | running _ hall => exact hall
  | closed hs' => simp [hs] at hs'
  | broken hs' => simp [hs] at hs'

/-- A writer that ended without a failure has written the close frame. -/
theorem Ledger.closed_of_ended (h : Ledger fails early all w) (hs : w.state ≠ .running)
    (hf : ¬w.HasFailed fails) :
    w.state = .closed ∧ ∃ front, w.written = front ++ [.close] ∧ early <+: front ∧
      front ++ w.queue = all ∧ (w.cancelled = false → w.queue = []) := by
  cases h with
  | running hs' => exact absurd hs' hs
  | closed hs' front hw hall hearly hcalm =>
    have hw := hw.resolve_right fun hw => hf hw.2
    exact ⟨hs', front, hw, hearly, hall, fun hcan => (hcalm hcan).2⟩
  | broken _ _ _ hfailed => exact absurd hfailed hf

/-! ### The end -/

/-- A writer that is to stop ends when it gets a turn, or has one frame less to write. -/
theorem turn_of_stopping (h : w.abandoned = true ∨ w.cancelled = true)
    (ht : Transition fails w .turn w') :
    w'.state ≠ .running ∨
      (∃ f, w.queue = f :: w'.queue) ∧ (w'.abandoned = true ∨ w'.cancelled = true) := by
  cases ht with
  | wrote _ hq => exact .inr ⟨⟨_, hq⟩, h⟩
  | broke | closed => exact .inl (by simp)
  | idle hidle =>
    left
    rcases hidle with hs | ⟨-, ha, hc⟩
    · exact hs
    · simp [ha, hc] at h

/-- A writer that is to stop ends once it has had time to write what is queued. -/
theorem settle_state (h : w.abandoned = true ∨ w.cancelled = true) :
    (w.settle fails).state ≠ .running := by
  unfold settle
  generalize hq : w.queue = queue
  induction queue generalizing w with
  | nil =>
    rcases turn_of_stopping h (transition fails w .turn) with hs | ⟨⟨f, hf⟩, -⟩
    · exact hs
    · simp [hq] at hf
  | cons f rest ih =>
    rw [List.length_cons, List.replicate_succ, run_cons]
    rcases turn_of_stopping h (transition fails w .turn) with hs | ⟨⟨g, hg⟩, h'⟩
    · rwa [(run_of_ended hs _).state_eq]
    · rw [hq] at hg
      exact ih h' (List.cons.inj hg).2.symm

/-- What is on the queue of a writer at work is written before the close frame. -/
theorem written_of_running (hs : w.state = .running) (hs' : (w.run fails es).state ≠ .running)
    (hf : ¬(w.run fails es).HasFailed fails) {front : List Frame}
    (hw : (w.run fails es).written = front ++ [.close]) : w.written ++ w.queue <+: front := by
  -- the account begins with the writer as it is
  have hledger : Ledger fails (w.written ++ w.queue) (w.written ++ w.queue) w :=
    .running hs rfl (List.prefix_refl _)
  obtain ⟨-, front', hw', hearly, -⟩ := (ledger_run hledger es).closed_of_ended hs' hf
  rwa [List.append_cancel_right (hw.symm.trans hw')]

/-- A writer that has ended without a cancellation has written all that was put on its queue. -/
theorem written_of_ended {frames : List Frame} (hcan : .cancel ∉ es)
    (hs : ((holding frames).run fails es).state ≠ .running)
    (hf : ¬((holding frames).run fails es).HasFailed fails) :
    ((holding frames).run fails es).written = frames ++ queuedBy es ++ [.close] := by
  obtain ⟨hclosed, front, hw, -, hall, hempty⟩ :=
    (ledger_holding fails frames es).closed_of_ended hs hf
  have hcalm : ((holding frames).run fails es).cancelled = false := by
    refine Bool.eq_false_iff.2 fun h => ?_
    rcases cancelled_run h with h | h | h
    · cases h
    · exact hcan h
    · simp [hclosed] at h
  rw [hw, ← hall, hempty hcalm, List.append_nil]

/-- A writer that breaks is cancelled, and writes nothing. -/
theorem broken_of_failure {f : Frame} {rest : List Frame} (hs : w.state = .running)
    (hq : w.queue = f :: rest) (hf : fails w.tried = true)
    (ht : Transition fails w .turn w') :
    w'.state = .broken ∧ w'.cancelled = true ∧ w'.written = w.written := by
  cases ht with
  | wrote _ _ hf' => simp [hf] at hf'
  | broke => exact ⟨rfl, rfl, rfl⟩
  | closed _ hq' => simp [hq] at hq'
  | idle hidle =>
    rcases hidle with hs' | ⟨hq', -⟩
    · exact absurd hs hs'
    · simp [hq] at hq'

/-- What a writer that starts with these frames on its queue has written after these events. -/
structure Delivers (fails : Nat → Bool) (frames : List Frame) (es : List WriterEvent) : Prop where
  /-- The frames of the queue in order, and after them at most a close frame. -/
  in_order : ∃ front closing, ((holding frames).run fails es).written = front ++ closing ∧
    front <+: frames ++ queuedBy es ∧
    (closing = [] ∨ closing = [.close] ∧ ((holding frames).run fails es).state = .closed)
  /-- Nothing is written after the end. -/
  final : ((holding frames).run fails es).state ≠ .running → ∀ more,
    ((holding frames).run fails (es ++ more)).written = ((holding frames).run fails es).written
  /-- Unless a write has failed, all that was queued before the cancellation is written in the end,
  and so is what was queued after it while the writer was still at work. -/
  complete : ¬((holding frames).run fails es).HasFailed fails →
    ((holding frames).run fails es).state ≠ .running →
      ∃ front, ((holding frames).run fails es).written = front ++ [.close] ∧
        front <+: frames ++ queuedBy es ∧
        ∀ before, before <+: es →
          .cancel ∉ before ∨ ((holding frames).run fails before).state = .running →
            frames ++ queuedBy before <+: front
  /-- The first frame that cannot be written is the last one that is tried. -/
  broken : ∀ before f rest, before ++ [.turn] <+: es →
    ((holding frames).run fails before).state = .running →
    ((holding frames).run fails before).queue = f :: rest →
    fails ((holding frames).run fails before).tried = true →
      ((holding frames).run fails es).cancelled = true ∧
        ((holding frames).run fails es).written = ((holding frames).run fails before).written
  /-- A writer that is to stop does so. -/
  ends : ((holding frames).run fails es).abandoned = true ∨
      ((holding frames).run fails es).cancelled = true →
    (((holding frames).run fails es).settle fails).state ≠ .running

/-- **What is queued in time is delivered in order**, up to the first failure. -/
theorem delivers (fails : Nat → Bool) (frames : List Frame) (es : List WriterEvent) :
    Delivers fails frames es where
  in_order := by
    cases ledger_holding fails frames es with
    | running _ hall => exact ⟨_, [], (List.append_nil _).symm, ⟨_, hall⟩, .inl rfl⟩
    | closed hs front hw hall =>
      rcases hw with hw | ⟨hw, -⟩
      · exact ⟨front, [.close], hw, ⟨_, hall⟩, .inr ⟨rfl, hs⟩⟩
      · exact ⟨front, [], by rw [hw, List.append_nil], ⟨_, hall⟩, .inl rfl⟩
    | broken _ f hall => exact ⟨_, [], (List.append_nil _).symm, ⟨_, hall⟩, .inl rfl⟩
  final hs more := by
    rw [run_append]
    exact (run_of_ended hs more).written_eq
  complete hf hs := by
    obtain ⟨-, front, hw, -, hall, -⟩ := (ledger_holding fails frames es).closed_of_ended hs hf
    refine ⟨front, hw, ⟨_, hall⟩, ?_⟩
    rintro before ⟨later, rfl⟩ htime
    rw [run_append] at hf hs hw
    by_cases hs' : ((holding frames).run fails before).state = .running
    · rw [← (ledger_holding fails frames before).all_eq hs']
      exact written_of_running hs' hs hf hw
    · have hf' : ¬((holding frames).run fails before).HasFailed fails := fun h => hf h.run
      have hwritten := written_of_ended (htime.resolve_right hs') hs' hf'
      rw [(run_of_ended hs' later).written_eq, hwritten] at hw
      exact ⟨[], by rw [List.append_nil, List.append_cancel_right hw]⟩
  broken := by
    rintro before f rest ⟨later, rfl⟩ hs hq hf
    rw [run_append, run_append, run_cons, run_nil]
    obtain ⟨hbroken, hcan, hw⟩ := broken_of_failure hs hq hf (transition fails _ .turn)
    have hs' : (((holding frames).run fails before).step fails .turn).state ≠ .running := by
      simp [hbroken]
    exact ⟨(run_of_ended hs' later).cancelled hcan, (run_of_ended hs' later).written_eq.trans hw⟩
  ends := settle_state

/-- The session says that it pauses, and cancels the connection at once. -/
theorem delivers_of_pause_before_cancel :
    ((holding [.binary ⟨#[0, 1]⟩]).run (fun _ => false)
      [.turn, .enqueue (.text "pause"), .cancel, .turn, .turn, .enqueue (.text "late"),
        .turn]).written = [.binary ⟨#[0, 1]⟩, .text "pause", .close] ∧
    Delivers (fun _ => false) [.binary ⟨#[0, 1]⟩]
      [.turn, .enqueue (.text "pause"), .cancel, .turn, .turn, .enqueue (.text "late"), .turn] :=
  ⟨rfl, delivers _ _ _⟩

end Writer

end ResumableUpload.Channel
