import ResumableUpload.Proofs.Absorption
import ResumableUpload.Proofs.Accounting
import ResumableUpload.Proofs.Conversation

/-!
# Cancelling with the consent of the server

A session that has told the server that it cancels waits until the server confirms it, gives the
upload up as well, or is gone. Meanwhile it asks for nothing, and still counts what the server had
sent before it learnt of the cancellation.

* `Session.crossed` : what the session does with a record that crosses the cancellation.
* `Session.Waits` : how a waiting session answers whatever comes next.
* `Session.cancellation_run` : all that can happen after a cancellation was sent.
-/

namespace ResumableUpload

/-- The input brings news of this channel. -/
def Input.Concerns (c : ConnectionId) : Input → Prop
  | channelOpened conn | record conn _ | undecodable conn _ | channelClosed conn => conn = c
  | _ => False

namespace Session

open Reaction (quiet tell)
open Wire (ServerRecord)

/-! ### What a waiting session does -/

/-- Takes down a record that crosses a cancellation on the wire. -/
def crossed (s : Session) : ServerRecord → Reaction
  | .uploadConfig params => tell .progress (s.configured params)
  | .chunkAck size => tell .progress (s.acknowledged size.toNat)
  | .error code message => tell .error { s with error := some (.reported code message) }
  | .cancelAck | .cancel _ | .allDone => quiet s

/-- Takes down records that cross a cancellation, one after the other. -/
def crossings (s : Session) (rs : List ServerRecord) : Reaction :=
  rs.foldl (fun r record => r.andThen (crossed · record)) (quiet s)

/-- The session after its end, in this phase, cancelled for this reason and with this error. -/
def ended (s : Session) (p : Phase) (why : Option String) (e : Option SessionError) : Session :=
  { s.released with
    phase := p
    cancelReason := why
    error := e
    pendingReason := none
    interrupted := none }

/-- The end of a cancellation on the word of the server. -/
def cancelledOn (s : Session) (c : ConnectionId) (why : String) : Reaction :=
  ⟨s.ended .cancelled (some why) s.error, [.closeChannel c],
    [⟨.cancelled, (s.ended .cancelled (some why) s.error).snapshot⟩]⟩

/-- The end of a cancellation that nobody confirms. This is an error unless there was one before. -/
def abandoned (s : Session) (reason : String) (e : SessionError) : Reaction :=
  ⟨s.ended .cancelled (some reason) (s.error.or (some e)), [],
    ⟨.cancelled, (s.ended .cancelled (some reason) s.error).snapshot⟩ ::
      if s.error = none then [⟨.error, (s.ended .cancelled (some reason) (some e)).snapshot⟩]
      else []⟩

/-- The end of a session with an error of the server. -/
def failedOn (s : Session) (c : ConnectionId) (e : SessionError) : Reaction :=
  ⟨s.ended .errored s.cancelReason (some e), [.closeChannel c],
    [⟨.error, (s.ended .errored s.cancelReason (some e)).snapshot⟩]⟩

/-- The input on the channel breaks the protocol. -/
def Breaks (s : Session) (c : ConnectionId) (i : Input) : Prop :=
  (∃ r, i = .record c r ∧ ¬s.Accepts r) ∨ ∃ detail, i = .undecodable c detail

/-- How a session that waits for the confirmation on `c` of a cancellation answers an input. -/
structure Waits (s : Session) (c : ConnectionId) (reason : String) : Prop extends
    AwaitsCancel s c reason where
  /-- Only news of the channel count, and not what the caller asks for. -/
  deaf : ∀ i : Input, ¬i.Concerns c → s.step i = quiet s
  /-- An acknowledgement that fits the window is counted. -/
  acks : ∀ size, 0 < s.snapshot.chunksInFlight → size.toNat ≤ s.snapshot.bytesInFlight →
    s.step (.record c (.chunkAck size)) = tell .progress (s.acknowledged size.toNat)
  /-- Parameters that were still awaited are taken down. -/
  params : ∀ params, s.interrupted = some .handshaking → params.resumeOffset ≤ s.total →
    s.step (.record c (.uploadConfig params)) = tell .progress (s.configured params)
  errors : ∀ code message, s.step (.record c (.error code message)) =
    tell .error { s with error := some (.reported code message) }
  confirmed : s.step (.record c .cancelAck) = s.cancelledOn c reason
  givenUp : ∀ why, s.step (.record c (.cancel why)) = s.cancelledOn c why
  lost : ∃ e : SessionError, e.code = -2 ∧ s.step (.channelClosed c) = s.abandoned reason e
  broken : ∀ i, s.Breaks c i → ∃ e : SessionError, e.code = -3 ∧ s.step i = s.failedOn c e
  /-- Nothing else ends the wait. -/
  ends : ∀ i, (s.step i).session.phase.isTerminal = true →
    i = .record c .cancelAck ∨ (∃ why, i = .record c (.cancel why)) ∨ i = .channelClosed c ∨
      s.Breaks c i

variable {s : Session} {c : ConnectionId} {reason : String} {i : Input} {r : Reaction}

theorem crossings_concat (s : Session) (rs : List ServerRecord) (record : ServerRecord) :
    s.crossings (rs ++ [record]) = (s.crossings rs).andThen (crossed · record) := by
  simp [crossings]

theorem crossings_effects (s : Session) (rs : List ServerRecord) :
    (s.crossings rs).effects = [] := by
  induction rs using List.reverseRecOn with
  | nil => rfl
  | append_singleton rs record ih =>
    rw [crossings_concat, Reaction.andThen_effects, ih]
    cases record <;> rfl

/-! ### The transitions of a waiting session -/

/-- What a transition can be while a cancellation is not confirmed. -/
inductive Answer (s : Session) (c : ConnectionId) (reason : String) : Input → Reaction → Prop
  | ignored {i : Input} (hi : s.Ignores i) : Answer s c reason i (quiet s)
  | crossed {record : ServerRecord} (ha : s.Accepts record) (hack : record ≠ .cancelAck)
      (hcancel : ∀ why, record ≠ .cancel why) :
      Answer s c reason (.record c record) (s.crossed record)
  | confirmed : Answer s c reason (.record c .cancelAck) (s.cancelledOn c reason)
  | givenUp {why : String} : Answer s c reason (.record c (.cancel why)) (s.cancelledOn c why)
  | lost : Answer s c reason (.channelClosed c) (s.abandoned reason .unconfirmed)
  | broken {i : Input} (v : Violation) (hi : s.Breaks c i) :
      Answer s c reason i (s.failedOn c (.violation v))

namespace AwaitsCancel

theorem releases_eq (h : s.Consistent) (hw : s.AwaitsCancel c reason) :
    s.releases = [.closeChannel c] := by
  have hr : s.pendingRead = none := h.read_none_of_phase (by simp [hw.phase])
  simp [releases, timerRelease, readRelease, channelRelease, h.armed_of_channel hw.channel, hr,
    hw.channel]

theorem finishCancel_eq (h : s.Consistent) (hw : s.AwaitsCancel c reason) :
    s.finishCancel = s.cancelledOn c reason := by
  have hreleases := hw.releases_eq h
  ext1
  · simp [finishCancel, cancelledOn, ended, released, hw.pending]
  · simpa [finishCancel, cancelledOn, releases, timerRelease, readRelease, channelRelease]
      using hreleases
  · simp [finishCancel, cancelledOn, ended, released, hw.pending]

theorem onServerCancel_eq (h : s.Consistent) (hw : s.AwaitsCancel c reason) (why : String) :
    s.onServerCancel why = s.cancelledOn c why := by
  have hreleases := hw.releases_eq h
  ext1
  · simp [onServerCancel, cancelledOn, ended, released]
  · simpa [onServerCancel, cancelledOn, releases, timerRelease, readRelease, channelRelease]
      using hreleases
  · simp [onServerCancel, cancelledOn, ended, released]

theorem violate_eq (h : s.Consistent) (hw : s.AwaitsCancel c reason) (v : Violation) :
    s.violate v = s.failedOn c (.violation v) := by
  have hreleases := hw.releases_eq h
  ext1
  · simp [violate, failedOn, ended, released]
  · simpa [violate, failedOn, releases, timerRelease, readRelease, channelRelease]
      using hreleases
  · simp [violate, failedOn, ended, released]

theorem abandonCancel_eq (h : s.Consistent) (hw : s.AwaitsCancel c reason) :
    (abortRead { s with channel := none }).andThen abandonCancel =
      s.abandoned reason .unconfirmed := by
  have hp := hw.phase
  have harmed := h.armed_of_channel hw.channel
  have hread : s.pendingRead = none := h.read_none_of_phase (by simp [hp])
  have hcan : s.canCancel = false := by simpa [hp] using h.canCancel_iff
  have hpause : s.canPause = false := by simpa [hp, harmed] using h.canPause_iff (by simp [hp])
  ext1
  · simp [abandonCancel, abandoned, endRead, ended, released, hw.pending, hcan, hpause]
  · simp [abandonCancel, abandoned, endRead, readRelease, timerRelease, harmed, hread]
  · cases he : s.error <;>
      simp [abandonCancel, abandoned, endUnconfirmed, endRead, ended, released, hw.pending, hcan,
        hpause, he]

/-- **Every transition of a waiting session is on the list.** -/
theorem answer_of_transition (h : s.Consistent) (hw : s.AwaitsCancel c reason)
    (ht : s.Transition i r) : s.Answer c reason i r := by
  have hp := hw.phase
  have hread : s.pendingRead = none := h.read_none_of_phase (by simp [hp])
  have hchannel {conn : ConnectionId} {o : Bool} (hc : s.channel = some ⟨conn, o⟩) : conn = c := by
    simpa using congrArg (Option.map Channel.id) (hc.symm.trans hw.channel)
  cases ht with
  | ignored hi => exact .ignored hi
  | cancelConfirmed _ hc =>
    obtain rfl := hchannel hc
    rw [hw.finishCancel_eq h]
    exact .confirmed
  | serverCancelled hc =>
    obtain rfl := hchannel hc
    rw [hw.onServerCancel_eq h]
    exact .givenUp
  | violated v hc hr =>
    obtain rfl := hchannel hc
    rw [hw.violate_eq h]
    exact .broken v (.inl ⟨_, rfl, hr⟩)
  | undecodable hc =>
    obtain rfl := hchannel hc
    rw [hw.violate_eq h]
    exact .broken _ (.inr ⟨_, rfl⟩)
  | @errorNoted conn code message _ hc =>
    obtain rfl := hchannel hc
    have ha : s.Accepts (.error code message) := trivial
    exact .crossed ha (by rintro ⟨⟩) (by rintro _ ⟨⟩)
  | configNoted _ hc hr | ackNoted _ hc hr =>
    obtain rfl := hchannel hc
    exact .crossed hr (by rintro ⟨⟩) (by rintro _ ⟨⟩)
  | cancelLost _ hc =>
    obtain rfl := hchannel hc
    rw [hw.abandonCancel_eq h]
    exact .lost
  -- the other transitions start in another phase
  | _ => simp_all [MayCancel, Phase.isLive]

/-- With chunks in flight the cancellation has interrupted a transfer. -/
theorem accepts_ack (h : s.Consistent) (hw : s.AwaitsCancel c reason) {size : UInt64}
    (hchunks : 0 < s.snapshot.chunksInFlight) (hbytes : size.toNat ≤ s.snapshot.bytesInFlight) :
    s.Accepts (.chunkAck size) := by
  refine ⟨?_, hchunks, hbytes⟩
  obtain ⟨-, -, -, hi | hi⟩ := h.cancelling hw.phase
  · have hh : s.handler = .handshaking := by simp [handler, hw.phase, hi]
    -- before the parameters are announced no chunk is in flight
    obtain ⟨-, hsent, hacked⟩ := h.unsent (.inr hh)
    have hflight : s.chunksSent = s.chunksAcked + s.snapshot.chunksInFlight :=
      h.balanced.chunksSent_eq
    omega
  · simp [handler, hw.phase, hi]

/-- News of the channel that break no rule are not ignored. -/
theorem not_ignores (hw : s.AwaitsCancel c reason) {record : ServerRecord} :
    ¬s.Ignores (.record c record) := by
  simp [Ignores, isOpen_iff.2 hw.channel]

/-- A record that can cross a cancellation is taken down if the session accepts it. -/
theorem step_of_accepts (h : s.Consistent) (hw : s.AwaitsCancel c reason) {record : ServerRecord}
    (ha : s.Accepts record) (hack : record ≠ .cancelAck) (hcancel : ∀ why, record ≠ .cancel why) :
    s.step (.record c record) = s.crossed record := by
  have ht := hw.answer_of_transition h (transition h (i := .record c record) (by rintro _ ⟨⟩))
  generalize s.step (.record c record) = r at ht
  cases ht with
  | ignored hi => exact absurd hi hw.not_ignores
  | crossed => rfl
  | confirmed => exact absurd rfl hack
  | givenUp => exact absurd rfl (hcancel _)
  | broken v hb =>
    rcases hb with ⟨_, ⟨⟩, hr⟩ | ⟨_, ⟨⟩⟩
    exact absurd ha hr

theorem step_answer (h : s.Consistent) (hw : s.AwaitsCancel c reason) (hi : s.Timely i) :
    s.Answer c reason i (s.step i) :=
  hw.answer_of_transition h (transition h hi)

theorem step_of_not_concerns (h : s.Consistent) (hw : s.AwaitsCancel c reason)
    (hi : ¬i.Concerns c) : s.step i = quiet s := by
  have htimely : s.Timely i := by
    rintro conn rfl ho
    exact hi ((holds_of_channel hw.channel).1 (by simp [holds, isOpen_iff.1 ho]))
  have ht := hw.step_answer h htimely
  generalize s.step i = r at ht
  cases ht with
  | ignored => rfl
  | crossed | confirmed | givenUp | lost => exact absurd rfl hi
  | broken v hb => rcases hb with ⟨_, rfl, -⟩ | ⟨_, rfl⟩ <;> exact absurd rfl hi

theorem step_cancelAck (h : s.Consistent) (hw : s.AwaitsCancel c reason) :
    s.step (.record c .cancelAck) = s.cancelledOn c reason := by
  have ht := hw.step_answer h (i := .record c .cancelAck) (by rintro _ ⟨⟩)
  generalize s.step (.record c .cancelAck) = r at ht
  cases ht with
  | ignored hi => exact absurd hi hw.not_ignores
  | crossed _ hack => exact absurd rfl hack
  | confirmed => rfl
  | broken v hb =>
    rcases hb with ⟨_, ⟨⟩, hr⟩ | ⟨_, ⟨⟩⟩
    exact absurd hw.phase hr

theorem step_cancel (h : s.Consistent) (hw : s.AwaitsCancel c reason) (why : String) :
    s.step (.record c (.cancel why)) = s.cancelledOn c why := by
  have ht := hw.step_answer h (i := .record c (.cancel why)) (by rintro _ ⟨⟩)
  generalize s.step (.record c (.cancel why)) = r at ht
  cases ht with
  | ignored hi => exact absurd hi hw.not_ignores
  | crossed _ _ hcancel => exact absurd rfl (hcancel why)
  | givenUp => rfl
  | broken v hb =>
    rcases hb with ⟨_, ⟨⟩, hr⟩ | ⟨_, ⟨⟩⟩
    exact absurd trivial hr

theorem step_channelClosed (h : s.Consistent) (hw : s.AwaitsCancel c reason) :
    s.step (.channelClosed c) = s.abandoned reason .unconfirmed := by
  have ht := hw.step_answer h (i := .channelClosed c) (by rintro _ ⟨⟩)
  generalize s.step (.channelClosed c) = r at ht
  cases ht with
  | ignored hi => simp [Ignores, holds, hw.channel] at hi
  | lost => rfl
  | broken v hb => rcases hb with ⟨_, ⟨⟩, -⟩ | ⟨_, ⟨⟩⟩

theorem step_of_breaks (h : s.Consistent) (hw : s.AwaitsCancel c reason) (hb : s.Breaks c i) :
    ∃ v, s.step i = s.failedOn c (.violation v) := by
  have htimely : s.Timely i := by
    rintro conn rfl
    rcases hb with ⟨_, ⟨⟩, -⟩ | ⟨_, ⟨⟩⟩
  have ht := hw.step_answer h htimely
  generalize s.step i = r at ht
  cases ht with
  | ignored hi =>
    rcases hb with ⟨_, rfl, -⟩ | ⟨_, rfl⟩ <;> simp [Ignores, isOpen_iff.2 hw.channel] at hi
  | broken v => exact ⟨v, rfl⟩
  | crossed ha => rcases hb with ⟨_, ⟨⟩, hr⟩ | ⟨_, ⟨⟩⟩; exact absurd ha hr
  | confirmed => rcases hb with ⟨_, ⟨⟩, hr⟩ | ⟨_, ⟨⟩⟩; exact absurd hw.phase hr
  | givenUp => rcases hb with ⟨_, ⟨⟩, hr⟩ | ⟨_, ⟨⟩⟩; exact absurd trivial hr
  | lost => rcases hb with ⟨_, ⟨⟩, -⟩ | ⟨_, ⟨⟩⟩

/-- An answer ends the wait, or only takes something down. -/
theorem of_answer (hw : s.AwaitsCancel c reason) (ha : s.Answer c reason i r) :
    (i = .record c .cancelAck ∨ (∃ why, i = .record c (.cancel why)) ∨ i = .channelClosed c ∨
        s.Breaks c i) ∧ r.session.phase.isTerminal = true ∨
      r = (s.taken i).elim (quiet s) s.crossed ∧ r.session.AwaitsCancel c reason := by
  cases ha with
  | ignored hi =>
    rw [taken_of_ignores hi]
    exact .inr ⟨rfl, hw⟩
  | @crossed record ha =>
    rw [taken_of_accepts hw.channel ha]
    refine .inr ⟨rfl, ?_⟩
    cases record <;> exact ⟨hw.phase, hw.channel, hw.pending⟩
  | confirmed => exact .inl ⟨.inl rfl, rfl⟩
  | givenUp => exact .inl ⟨.inr (.inl ⟨_, rfl⟩), rfl⟩
  | lost => exact .inl ⟨.inr (.inr (.inl rfl)), rfl⟩
  | broken v hb => exact .inl ⟨.inr (.inr (.inr hb)), rfl⟩

theorem ends (h : s.Consistent) (hw : s.AwaitsCancel c reason)
    (hend : (s.step i).session.phase.isTerminal = true) :
    i = .record c .cancelAck ∨ (∃ why, i = .record c (.cancel why)) ∨ i = .channelClosed c ∨
      s.Breaks c i := by
  by_cases hi : s.Timely i
  · rcases hw.of_answer (hw.step_answer h hi) with ⟨hends, -⟩ | ⟨-, hw'⟩
    · exact hends
    · simp [hw'.phase, Phase.isTerminal] at hend
  -- a second report of the open channel would end nothing either
  · obtain ⟨conn, rfl, ho⟩ : ∃ conn, i = .channelOpened conn ∧ s.isOpen conn = true := by
      simpa [Timely] using hi
    have hh : s.holds conn = true := by simp [holds, isOpen_iff.1 ho]
    simp [step, onChannelOpened, hh, Phase.isTerminal] at hend

/-- **A session that waits answers every input as `Waits` says.** -/
theorem waits (h : s.Consistent) (hw : s.AwaitsCancel c reason) : s.Waits c reason where
  toAwaitsCancel := hw
  deaf _ hi := hw.step_of_not_concerns h hi
  acks _ hchunks hbytes :=
    hw.step_of_accepts h (hw.accepts_ack h hchunks hbytes) (by rintro ⟨⟩) (by rintro _ ⟨⟩)
  params _ hi hle :=
    hw.step_of_accepts h ⟨by simp [handler, hw.phase, hi], hle⟩ (by rintro ⟨⟩) (by rintro _ ⟨⟩)
  errors code message :=
    hw.step_of_accepts h (show s.Accepts (.error code message) from trivial) (by rintro ⟨⟩)
      (by rintro _ ⟨⟩)
  confirmed := hw.step_cancelAck h
  givenUp := hw.step_cancel h
  lost := ⟨.unconfirmed, rfl, hw.step_channelClosed h⟩
  broken _ hb := by
    obtain ⟨v, hv⟩ := hw.step_of_breaks h hb
    exact ⟨.violation v, rfl, hv⟩
  ends _ hend := hw.ends h hend

end AwaitsCancel

/-! ### Runs -/

/-- Up to now the session has waited for the confirmation. -/
structure Waited (s : Session) (c : ConnectionId) (reason : String) (is : List Input) : Prop where
  /-- Nothing has changed but what the records say that were taken. -/
  counted : s.run is = s.crossings (s.takenRecords is)
  silent : (s.run is).effects = []
  waits : (s.run is).session.Waits c reason

/-- What can follow after a cancellation was sent. -/
inductive Course (s : Session) (c : ConnectionId) (reason : String) (is : List Input) : Prop
  | waiting (hw : s.Waited c reason is)
  /-- Some input has ended the wait, and with it the session. -/
  | ended (js : List Input) (j : Input) (ks : List Input) (his : is = js ++ j :: ks)
      (hw : s.Waited c reason js)
      (hend : ((s.run js).session.step j).session.phase.isTerminal = true)
      (hrest : s.run is = s.run (js ++ [j]))

/-- One more input continues the course of a cancellation. -/
theorem Course.concat {is : List Input} (h : (s.run is).session.Consistent)
    (ht : (s.run is).session.Transition i ((s.run is).session.step i))
    (h' : (s.run (is ++ [i])).session.Consistent) (hc : s.Course c reason is) :
    s.Course c reason (is ++ [i]) := by
  cases hc with
  | waiting hw =>
    have hwaits := hw.waits.toAwaitsCancel
    rcases hwaits.of_answer (hwaits.answer_of_transition h ht) with ⟨-, hend⟩ | ⟨hr, hw'⟩
    · exact .ended is i [] rfl hw hend rfl
    · have hcounted : s.run (is ++ [i]) = s.crossings (s.takenRecords (is ++ [i])) := by
        rw [run_concat, takenRecords_concat]
        cases htaken : (s.run is).session.taken i with
        | none =>
          rw [Option.toList_none, List.append_nil, ← hw.counted]
          refine Reaction.andThen_of_quiet ?_
          rw [hr, htaken]
          rfl
        | some record =>
          rw [Option.toList_some, crossings_concat, ← hw.counted]
          refine Reaction.andThen_congr ?_
          rw [hr, htaken]
          rfl
      refine .waiting ⟨hcounted, ?_, ?_⟩
      · rw [hcounted, crossings_effects]
      · rw [run_concat] at h' ⊢
        exact AwaitsCancel.waits h' hw'
  | ended js j ks his hw hend hrest =>
    refine .ended js j (ks ++ [i]) (by simp [his]) hw hend ?_
    have hterminal : (s.run is).session.phase.isTerminal = true := by
      rw [hrest, run_concat]
      exact hend
    have hquiet := (h.settled hterminal).step hterminal i
    rw [run_concat, ← hrest]
    exact Reaction.andThen_of_quiet hquiet

/-- **A cancellation ends as the server wants, or with the channel.** From the moment at which the
session has told the server that it cancels it asks for nothing and counts what crosses the
cancellation, until one of the endings that `Waits` lists. -/
theorem cancellation_run (id : String) (total : UInt64) (delay : Nat) {before is : List Input}
    {i : Input} {c : ConnectionId} {reason : String} (h : OpensOnce (before ++ i :: is))
    (hsent : .sendRecord c (.cancel reason) ∈
      (((new id total delay).run before).session.step i).effects) :
    (((new id total delay).run before).session.step i).session.Course c reason is := by
  -- the session is followed from its creation, as the induction over its inputs wants it
  have hrun (js : List Input) :
      ((((new id total delay).run before).session.step i).session.run js).session =
        ((new id total delay).run (before ++ i :: js)).session := by
    simp [run_append, run]
  have hcons {js : List Input} (hjs : OpensOnce (before ++ i :: js)) :
      ((((new id total delay).run before).session.step i).session.run js).session.Consistent := by
    rw [hrun]
    exact consistent_run id total delay hjs
  have hbefore : OpensOnce (before ++ [i]) := by
    have happ : before ++ i :: is = before ++ [i] ++ is := by simp
    rw [happ] at h
    exact h.of_append
  have hw : (((new id total delay).run before).session.step i).session.AwaitsCancel c reason := by
    have hspeech := speech_of_transition (consistent_run id total delay hbefore.init)
      (transition_run id total delay hbefore)
    obtain ⟨u, -, -, -, hu, -, -, -, hcancel⟩ := hspeech.of_mem hsent rfl
    exact hcancel reason (by simpa [Effect.saidOn?, eq_comm] using hu)
  induction is using List.reverseRecOn with
  | nil => exact .waiting ⟨rfl, rfl, hw.waits (hcons hbefore)⟩
  | append_singleton js j ih =>
    have happ : before ++ i :: (js ++ [j]) = before ++ i :: js ++ [j] := by simp
    rw [happ] at h
    refine (ih h.init).concat (hcons h.init) ?_ (hcons (by rwa [happ]))
    rw [hrun]
    exact transition_run id total delay h

/-- An acknowledgement and an error cross the cancellation, which the server then confirms. -/
theorem cancellation_run_of_crossing :
    OpensOnce ([.start, .channelOpened ⟨1⟩, .record ⟨1⟩ (.uploadConfig ⟨4, 2, 2⟩),
      .chunkRead ⟨1⟩ (.ok ⟨#[1, 2, 3, 4]⟩)] ++ .cancel "not wanted" ::
        [.record ⟨1⟩ (.chunkAck 4), .record ⟨1⟩ (.error 7 "full"), .pause .pause,
          .record ⟨1⟩ .cancelAck]) ∧
    Effect.sendRecord ⟨1⟩ (.cancel "not wanted") ∈
      (((new "upload" 10 500).run [.start, .channelOpened ⟨1⟩,
        .record ⟨1⟩ (.uploadConfig ⟨4, 2, 2⟩),
        .chunkRead ⟨1⟩ (.ok ⟨#[1, 2, 3, 4]⟩)]).session.step (.cancel "not wanted")).effects ∧
    (((new "upload" 10 500).run [.start, .channelOpened ⟨1⟩,
      .record ⟨1⟩ (.uploadConfig ⟨4, 2, 2⟩),
      .chunkRead ⟨1⟩ (.ok ⟨#[1, 2, 3, 4]⟩)]).session.step (.cancel "not wanted")).session.Course
        ⟨1⟩ "not wanted" [.record ⟨1⟩ (.chunkAck 4), .record ⟨1⟩ (.error 7 "full"), .pause .pause,
          .record ⟨1⟩ .cancelAck] := by
  have hsent : Effect.sendRecord ⟨1⟩ (.cancel "not wanted") ∈
      (((new "upload" 10 500).run [.start, .channelOpened ⟨1⟩,
        .record ⟨1⟩ (.uploadConfig ⟨4, 2, 2⟩),
        .chunkRead ⟨1⟩ (.ok ⟨#[1, 2, 3, 4]⟩)]).session.step (.cancel "not wanted")).effects :=
    .tail _ (.head _)
  exact ⟨by decide, hsent, cancellation_run "upload" 10 500 (by decide) hsent⟩

end Session

end ResumableUpload
