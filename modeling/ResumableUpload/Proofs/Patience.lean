import Mathlib.Algebra.BigOperators.Group.List.Basic
import Mathlib.Algebra.GroupWithZero.Nat
import Mathlib.Data.List.Induction
import ResumableUpload.Proofs.Forwarding

/-!
# How long a reader bears silence

A reader with an idle timeout stops when nothing has arrived for that long, whatever kind of frame
came last. Silences that are shorter than the timeout do it no harm, however many there are, and
over the first one that is longer it stops at once when the timeout has passed. A reader without a
timeout bears any silence.

All that holds as long as the clock can tell the deadlines. A frame after which it cannot tell the
next one is lost, and the reader with it, however long the timeout is. At the start a deadline that
is too late for the clock does no harm, so that a reader with a huge timeout begins as any other.

* `Channel.Reader.attentive` : a reader that has dealt with all that came.
* `Channel.Reader.run_timeline` : a reader stays attentive while no silence is too long.
* `Channel.Reader.run_silence` : what becomes of it over one that is.
* `Channel.Reader.run_broken` : what becomes of it over a frame that is too late for the clock.
* `Channel.Reader.patient` : how long a reader goes on.
-/

namespace ResumableUpload.Channel

/-- The time from the start to the last of these arrivals. -/
def elapsed (as : List TimedArrival) : Nat := (as.map (·.after)).sum

theorem elapsed_concat (as : List TimedArrival) (a : TimedArrival) :
    elapsed (as ++ [a]) = elapsed as + a.after := by
  simp [elapsed]

theorem timeline_append (as bs : List TimedArrival) :
    timeline (as ++ bs) = timeline as ++ timeline bs :=
  List.flatMap_append

namespace Reader

variable {p : Platform} {conn : ConnectionId} {idle : Option Nat} {as : List TimedArrival}
  {d gap : Nat}

/-- A reader that has just dealt with the last of these arrivals, and with all before. -/
def attentive (p : Platform) (conn : ConnectionId) (idle : Option Nat) (as : List TimedArrival) :
    Reader where
  platform := p
  conn := conn
  idle := idle
  now := elapsed as
  deadline := idle.map (elapsed as + ·)
  listening := true
  inputs := (as.map (·.arrival)).filterMap (·.input? p conn)
  replies := (as.map (·.arrival)).filterMap Arrival.reply?
  stoppedAt := none
  crashed := false

theorem hasRead_attentive (p : Platform) (conn : ConnectionId) (idle : Option Nat)
    (as : List TimedArrival) : HasRead p conn (as.map (·.arrival)) (attentive p conn idle as) :=
  ⟨rfl, rfl, rfl, rfl⟩

theorem canPostpone_iff {r : Reader} :
    r.canPostpone = true ↔ ∀ d ∈ r.idle, r.now + d ≤ r.platform.horizon := by
  cases h : r.idle <;> simp [canPostpone, h]

theorem step_pass_of_le {r : Reader} (hs : r.stoppedAt = none)
    (h : ∀ t ∈ r.deadline, r.now + gap ≤ t) :
    r.step (.pass gap) = { r with now := r.now + gap } := by
  rw [step, if_neg (by simp [hs]), react]
  obtain ⟨-, hw⟩ | ⟨t, hd, ht, -⟩ := r.wait_cases gap
  · exact hw
  · exact absurd (h t hd) (Nat.not_le.2 ht)

/-- A silence that is not longer than the timeout. -/
theorem step_pass_attentive (h : ∀ d ∈ idle, gap ≤ d) :
    (attentive p conn idle as).step (.pass gap) =
      { attentive p conn idle as with now := elapsed as + gap } := by
  refine step_pass_of_le rfl fun t ht => ?_
  obtain ⟨d, hidle, rfl⟩ := Option.map_eq_some_iff.1 ht
  exact Nat.add_le_add_left (h d hidle) _

/-- The next arrival, whatever frame it is, makes the reader attentive again. -/
theorem run_events_attentive {a : TimedArrival} (hgap : ∀ d ∈ idle, a.after ≤ d)
    (hclock : ∀ d ∈ idle, elapsed (as ++ [a]) + d ≤ p.horizon)
    (hopen : a.arrival.isLast = false) :
    (attentive p conn idle as).run a.events = attentive p conn idle (as ++ [a]) := by
  rw [TimedArrival.events, run_cons, run_cons, run_nil, step_pass_attentive hgap, step,
    if_neg (by simp [attentive]), react]
  have hpostpone : ({ attentive p conn idle as with now := elapsed as + a.after } :
      Reader).canPostpone = true := by
    rw [elapsed_concat] at hclock
    exact canPostpone_iff.2 hclock
  obtain ⟨⟨-, hno⟩, -⟩ | ⟨-, hh⟩ :=
    hear_cases { attentive p conn idle as with now := elapsed as + a.after } a.arrival
  · simp [hno] at hpostpone
  rw [hh]
  obtain ⟨hlast, -⟩ | ⟨-, hl, -⟩ | ⟨-, hh⟩ :=
    heed_cases { attentive p conn idle as with now := elapsed as + a.after } a.arrival
  · simp [hlast] at hopen
  · cases hl
  · rw [hh]
    simp only [attentive, postpone, elapsed_concat, List.map_append, List.filterMap_append]
    rfl

theorem start_eq_attentive (hclock : ∀ d ∈ idle, d ≤ p.horizon) :
    start p conn idle = attentive p conn idle [] := by
  cases idle with
  | none => simp [start, attentive, elapsed]
  | some d =>
    have hd : p.sleep d = d := if_pos (hclock d rfl)
    simp [start, attentive, elapsed, hd]

theorem run_timeline (hgap : ∀ a ∈ as, ∀ d ∈ idle, a.after ≤ d)
    (hclock : ∀ d ∈ idle, elapsed as + d ≤ p.horizon)
    (hopen : ∀ a ∈ as, a.arrival.isLast = false) :
    (start p conn idle).run (timeline as) = attentive p conn idle as := by
  -- what the reader is depends on all that came, so the last arrival is taken off
  induction as using List.reverseRecOn with
  | nil => exact start_eq_attentive (by simpa [elapsed] using hclock)
  | append_singleton as a ih =>
    have hone : timeline [a] = a.events := List.flatMap_singleton _ _
    have hearlier : ∀ d ∈ idle, elapsed as + d ≤ p.horizon := by
      intro d hd
      have hlater := hclock d hd
      rw [elapsed_concat] at hlater
      omega
    have hbefore : (start p conn idle).run (timeline as) = attentive p conn idle as :=
      ih (fun b hb => hgap b (by simp [hb])) hearlier fun b hb => hopen b (by simp [hb])
    rw [timeline_append, run_append, hbefore, hone]
    exact run_events_attentive (hgap a (by simp)) hclock (hopen a (by simp))

/-- Over a longer silence the reader stops, whatever may come after. -/
theorem run_silence (h : d < gap) (more : List ReaderEvent) :
    (attentive p conn (some d) as).run (.pass gap :: more) =
      { attentive p conn (some d) as with now := elapsed as + d }.stop := by
  have hpass : (attentive p conn (some d) as).step (.pass gap) =
      { attentive p conn (some d) as with now := elapsed as + d }.stop := by
    rw [step, if_neg (by simp [attentive]), react]
    exact if_pos (Nat.add_lt_add_left h _)
  rw [run_cons, hpass]
  exact run_of_stopped (stoppedAt_stop_ne_none _) more

/-- A reader breaks down over a frame after which the clock cannot tell the next deadline, whatever
may come after. -/
theorem run_broken {r : Reader} {a : TimedArrival} (hs : r.stoppedAt = none)
    (hidle : r.idle = some d) (hwait : ∀ t ∈ r.deadline, r.now + a.after ≤ t)
    (hopen : a.arrival.isLast = false) (hclock : r.platform.horizon < r.now + a.after + d)
    (more : List ReaderEvent) :
    r.run (a.events ++ more) = { r with now := r.now + a.after }.crash := by
  have hframe : a.arrival.isFrame = true := by
    cases ha : a.arrival <;> first | rfl | simp [ha, Arrival.isLast] at hopen
  have hno : ({ r with now := r.now + a.after } : Reader).canPostpone = false := by
    simpa [canPostpone, hidle] using hclock
  have hhear : ({ r with now := r.now + a.after } : Reader).step (.arrive a.arrival) =
      { r with now := r.now + a.after }.crash := by
    rw [step, if_neg (by simp [hs]), react, hear, if_pos (by simp [hframe, hno])]
  rw [TimedArrival.events, List.cons_append, List.cons_append, List.nil_append, run_cons,
    step_pass_of_le hs hwait, run_cons, hhear]
  exact run_of_stopped (stoppedAt_crash_ne_none _) more

/-- How long a reader goes on that bears a silence of `d` while these frames arrive. -/
structure Patient (p : Platform) (conn : ConnectionId) (d : Nat) (as : List TimedArrival) :
    Prop where
  /-- It deals with all of them if no gap is too long and the clock tells its deadlines. -/
  within : elapsed as + d ≤ p.horizon → (∀ a ∈ as, a.after < d) →
    ((start p conn (some d)).run (timeline as)).stoppedAt = none ∧
      Reports p conn (as.map (·.arrival)) ((start p conn (some d)).run (timeline as))
  /-- Then it stops with the stream, if that is soon enough. -/
  to_end : elapsed as + d ≤ p.horizon → (∀ a ∈ as, a.after < d) → ∀ gap < d,
    ((start p conn (some d)).run (timeline as ++ [.pass gap, .arrive .ended])).stoppedAt =
        some (elapsed as + gap) ∧
      Reports p conn (as.map (·.arrival))
        ((start p conn (some d)).run (timeline as ++ [.pass gap, .arrive .ended]))
  /-- Otherwise it stops when its patience ends, and nothing more counts. -/
  to_silence : elapsed as + d ≤ p.horizon → (∀ a ∈ as, a.after < d) → ∀ gap > d, ∀ more,
    ((start p conn (some d)).run (timeline as ++ .pass gap :: more)).stoppedAt =
        some (elapsed as + d) ∧
      Reports p conn (as.map (·.arrival))
        ((start p conn (some d)).run (timeline as ++ .pass gap :: more))
  /-- Over the first gap that is too long it stops when its patience ends, and deals with none of
  the frames after it. -/
  beyond : ∀ before late after, as = before ++ late :: after →
    elapsed before + d ≤ p.horizon → (∀ a ∈ before, a.after < d) → d < late.after →
      ((start p conn (some d)).run (timeline as)).stoppedAt = some (elapsed before + d) ∧
        Reports p conn (before.map (·.arrival)) ((start p conn (some d)).run (timeline as))
  /-- It breaks down over the first frame after which the clock cannot tell its deadline, and deals
  with none from then on. -/
  broken : ∀ before late after, as = before ++ late :: after →
    elapsed before + d ≤ p.horizon → (∀ a ∈ before, a.after < d) → late.after < d →
    p.horizon < elapsed before + late.after + d →
      ((start p conn (some d)).run (timeline as)).stoppedAt =
          some (elapsed before + late.after) ∧
        ((start p conn (some d)).run (timeline as)).crashed = true ∧
        Reports p conn (before.map (·.arrival)) ((start p conn (some d)).run (timeline as))
  /-- If the clock cannot even tell the first deadline, that is the first frame. -/
  broken_at_once : p.horizon < d → ∀ first after, as = first :: after →
    first.after ≤ Platform.farFuture →
      ((start p conn (some d)).run (timeline as)).stoppedAt = some first.after ∧
        ((start p conn (some d)).run (timeline as)).crashed = true ∧
        Reports p conn [] ((start p conn (some d)).run (timeline as))
  /-- Without a timeout it deals with all of them, and no silence stops it. -/
  unlimited : ∀ gap,
    ((start p conn none).run (timeline as ++ [.pass gap])).stoppedAt = none ∧
      Reports p conn (as.map (·.arrival)) ((start p conn none).run (timeline as ++ [.pass gap]))

theorem run_timeline_of_lt (hclock : elapsed as + d ≤ p.horizon) (hgaps : ∀ a ∈ as, a.after < d)
    (hopen : ∀ a ∈ as, a.arrival.isLast = false) :
    (start p conn (some d)).run (timeline as) = attentive p conn (some d) as :=
  run_timeline (by simpa using fun a ha => (hgaps a ha).le) (by simpa using hclock) hopen

/-- What a reader has done that stops over a silence. -/
theorem stopped_silence (hclock : elapsed as + d ≤ p.horizon) (hgaps : ∀ a ∈ as, a.after < d)
    (hopen : ∀ a ∈ as, a.arrival.isLast = false) (h : d < gap) (more : List ReaderEvent) :
    ((start p conn (some d)).run (timeline as ++ .pass gap :: more)).stoppedAt =
        some (elapsed as + d) ∧
      Reports p conn (as.map (·.arrival))
        ((start p conn (some d)).run (timeline as ++ .pass gap :: more)) := by
  rw [run_append, run_timeline_of_lt hclock hgaps hopen, run_silence h]
  exact ⟨rfl, ((hasRead_attentive p conn _ as).at_time _).stop.reports⟩

/-- What a reader has done that breaks down over a frame. -/
theorem stopped_broken {r : Reader} {a : TimedArrival} {front : List Arrival}
    (hread : HasRead p conn front r) (hs : r.stoppedAt = none) (hidle : r.idle = some d)
    (hwait : ∀ t ∈ r.deadline, r.now + a.after ≤ t) (hopen : a.arrival.isLast = false)
    (hclock : p.horizon < r.now + a.after + d) (more : List TimedArrival) :
    (r.run (timeline (a :: more))).stoppedAt = some (r.now + a.after) ∧
      (r.run (timeline (a :: more))).crashed = true ∧
      Reports p conn front (r.run (timeline (a :: more))) := by
  have hrun : r.run (timeline (a :: more)) = { r with now := r.now + a.after }.crash :=
    run_broken hs hidle hwait hopen (hread.platform_eq ▸ hclock) (timeline more)
  rw [hrun]
  exact ⟨rfl, rfl, (hread.at_time _).crash.reports⟩

/-- **A reader stops over the first silence that is too long**, and over nothing else while frames
arrive and the clock can tell its deadlines. -/
theorem patient (p : Platform) (conn : ConnectionId) (d : Nat) {as : List TimedArrival}
    (hopen : ∀ a ∈ as, a.arrival.isLast = false) : Patient p conn d as where
  within hclock hgaps := by
    rw [run_timeline_of_lt hclock hgaps hopen]
    exact ⟨rfl, (hasRead_attentive p conn _ as).reports⟩
  to_end hclock hgaps gap hgap := by
    have hpass : (attentive p conn (some d) as).step (.pass gap) =
        { attentive p conn (some d) as with now := elapsed as + gap } :=
      step_pass_attentive (by simpa using hgap.le)
    rw [run_append, run_timeline_of_lt hclock hgaps hopen, run_cons, hpass]
    exact ⟨rfl, ((hasRead_attentive p conn _ as).at_time _).stop.reports⟩
  to_silence hclock hgaps gap hgap := stopped_silence hclock hgaps hopen hgap
  beyond := by
    rintro before late after rfl hclock hgaps hlate
    rw [timeline_append]
    exact stopped_silence hclock hgaps (fun a ha => hopen a (by simp [ha])) hlate _
  broken := by
    rintro before late after rfl hclock hgaps hlate hbroken
    have hbefore : (start p conn (some d)).run (timeline before) =
        attentive p conn (some d) before :=
      run_timeline_of_lt hclock hgaps fun a ha => hopen a (by simp [ha])
    rw [timeline_append, run_append, hbefore]
    exact stopped_broken (hasRead_attentive p conn _ before) rfl rfl
      (by simpa [attentive] using hlate.le) (hopen late (by simp)) hbroken after
  broken_at_once := by
    rintro hhuge first after rfl hfirst
    have hread : HasRead p conn [] (start p conn (some d)) := ⟨rfl, rfl, rfl, rfl⟩
    have hsleep : p.sleep d = Platform.farFuture := if_neg (Nat.not_le.2 hhuge)
    have hnow : (start p conn (some d)).now + first.after = first.after := Nat.zero_add _
    rw [← hnow] at hfirst ⊢
    exact stopped_broken hread rfl rfl (by simpa [start, hsleep] using hfirst)
      (hopen first (by simp)) (Nat.lt_of_lt_of_le hhuge (Nat.le_add_left _ _)) after
  unlimited gap := by
    have hpass : (attentive p conn none as).step (.pass gap) =
        { attentive p conn none as with now := elapsed as + gap } :=
      step_pass_attentive (by simp)
    rw [run_append, run_timeline (by simp) (by simp) hopen, run_cons, run_nil, hpass]
    exact ⟨rfl, ((hasRead_attentive p conn _ as).at_time _).reports⟩

/-- A pong is as good as a text, but the ping after it comes too late. -/
theorem patient_of_late_ping :
    (∀ a ∈ [⟨29, .frame (.pong .empty)⟩, ⟨31, .frame (.ping .empty)⟩],
      (a : TimedArrival).arrival.isLast = false) ∧
    ((start .plain ⟨1⟩ (some 30)).run
      (timeline [⟨29, .frame (.pong .empty)⟩, ⟨31, .frame (.ping .empty)⟩])).stoppedAt = some 59 ∧
    Patient .plain ⟨1⟩ 30 [⟨29, .frame (.pong .empty)⟩, ⟨31, .frame (.ping .empty)⟩] := by
  have hopen : ∀ a ∈ [⟨29, .frame (.pong .empty)⟩, ⟨31, .frame (.ping .empty)⟩],
      (a : TimedArrival).arrival.isLast = false := by simp [Arrival.isLast]
  exact ⟨hopen, rfl, patient .plain ⟨1⟩ 30 hopen⟩

/-- A reader that bears a silence of 2⁶³ - 1 seconds does not survive a ping after one second, which
is not answered. -/
theorem lost_ping_of_huge_timeout :
    ∃ d as, d = (2 ^ 63 - 1) * 1000 ∧ as = [⟨1000, .frame (.ping .empty)⟩] ∧
      (∀ a ∈ as, a.arrival.isLast = false ∧ a.after < d) ∧
      ((start .plain ⟨1⟩ (some d)).run (timeline as)).stoppedAt = some 1000 ∧
      ((start .plain ⟨1⟩ (some d)).run (timeline as)).crashed = true ∧
      ¬ Reports .plain ⟨1⟩ (as.map (·.arrival))
          ((start .plain ⟨1⟩ (some d)).run (timeline as)) := by
  refine ⟨_, _, rfl, rfl, by simp [Arrival.isLast], rfl, rfl, fun h => ?_⟩
  have hnone : [] = [Frame.pong .empty] := h.answered
  cases hnone

end Reader

end ResumableUpload.Channel
