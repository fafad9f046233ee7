import ResumableUpload.Proofs.Resources

/-!
# What a session says on a connection

On every connection a session requests the upload, confirms the parameters that the server
announces, sends chunks, and may say goodbye, in this order, after which it is silent.

* `Spoken` : what may be said on a connection.
* `Stage.Says` : one more thing said, and the stage to which it leads. `Session.Speech` sorts the
  transitions by what they say.
* `Session.conversation_run` : what is said on a connection in a run, and when.
-/

namespace ResumableUpload

open Wire (ClientRecord UploadParams)

/-- What is said on a connection, one thing at a time. -/
inductive Utterance
  | record (r : ClientRecord)
  | chunk (data : ByteArray)

/-- What an effect says on this connection. -/
def Effect.saidOn? (c : ConnectionId) : Effect → Option Utterance
  | sendRecord conn r => if conn = c then some (.record r) else none
  | sendChunk conn data => if conn = c then some (.chunk data) else none
  | _ => none

/-- What effects say on a connection, in order. -/
def saidOn (c : ConnectionId) (es : List Effect) : List Utterance := es.filterMap (·.saidOn? c)

theorem saidOn_append (c : ConnectionId) (es fs : List Effect) :
    saidOn c (es ++ fs) = saidOn c es ++ saidOn c fs :=
  List.filterMap_append

/-- A record that ends a conversation. -/
inductive IsFarewell : Utterance → Prop
  | pause : IsFarewell (.record .pause)
  | cancel (reason : String) : IsFarewell (.record (.cancel reason))

/-- What may be said on a connection from its start. -/
inductive Spoken (id : String) (total : UInt64) : List Utterance → Prop
  | nothing : Spoken id total []
  | request (bye : Option Utterance) (hb : ∀ u ∈ bye, IsFarewell u) :
      Spoken id total (.record (.uploadRequest id total) :: bye.toList)
  | transfer (chunks : List ByteArray) (bye : Option Utterance) (hb : ∀ u ∈ bye, IsFarewell u) :
      Spoken id total
        (.record (.uploadRequest id total) :: .record .ack :: (chunks.map .chunk ++ bye.toList))

/-- How far the conversation on a connection is. -/
inductive Stage
  /-- The channel is not open yet. -/
  | silent
  | requested
  /-- The parameters are confirmed. -/
  | streaming
  | ended
  deriving DecidableEq, Repr

namespace Stage

variable {id : String} {total : UInt64}

/-- One more thing is said, and leads to another stage. -/
inductive Says (id : String) (total : UInt64) : Stage → Utterance → Stage → Prop
  | request : Says id total .silent (.record (.uploadRequest id total)) .requested
  | confirm : Says id total .requested (.record .ack) .streaming
  | chunk (data : ByteArray) : Says id total .streaming (.chunk data) .streaming
  | farewell {st : Stage} {u : Utterance} (hs : st = .requested ∨ st = .streaming)
      (hu : IsFarewell u) : Says id total st u .ended

/-- What was said up to a stage. -/
def Said (id : String) (total : UInt64) : Stage → List Utterance → Prop
  | .silent, us => us = []
  | .requested, us => us = [.record (.uploadRequest id total)]
  | .streaming, us => ∃ chunks : List ByteArray,
      us = .record (.uploadRequest id total) :: .record .ack :: chunks.map .chunk
  | .ended, us => Spoken id total us

theorem Said.spoken {st : Stage} {us : List Utterance} (h : st.Said id total us) :
    Spoken id total us := by
  cases st with
  | silent =>
    obtain rfl : us = [] := h
    exact .nothing
  | requested =>
    obtain rfl : us = [_] := h
    exact .request none (by simp)
  | streaming =>
    obtain ⟨chunks, rfl⟩ := h
    have hspoken : Spoken id total _ := .transfer chunks none (by simp)
    simpa using hspoken
  | ended => exact h

theorem Says.said {st st' : Stage} {u : Utterance} {us : List Utterance}
    (hu : Says id total st u st') (h : st.Said id total us) : st'.Said id total (us ++ [u]) := by
  cases hu with
  | request =>
    obtain rfl : us = [] := h
    rfl
  | confirm =>
    obtain rfl : us = [_] := h
    exact ⟨[], rfl⟩
  | chunk data =>
    obtain ⟨chunks, rfl⟩ := h
    exact ⟨chunks ++ [data], by simp⟩
  | farewell hs hu =>
    have hbye : ∀ v ∈ some u, IsFarewell v := by
      rintro v ⟨⟩
      exact hu
    rcases hs with rfl | rfl
    · obtain rfl : us = [_] := h
      exact .request (some u) hbye
    · obtain ⟨chunks, rfl⟩ := h
      exact .transfer chunks (some u) hbye

theorem Says.requested_of_ack {st st' : Stage} (h : Says id total st (.record .ack) st') :
    st = .requested := by
  cases h with
  | confirm => rfl
  | farewell _ hu => cases hu

end Stage

/-- What is said may be broken off anywhere. -/
theorem Spoken.of_prefix {id : String} {total : UInt64} {us vs : List Utterance}
    (h : Spoken id total us) (hv : vs <+: us) : Spoken id total vs := by
  cases h with
  | nothing =>
    rw [List.prefix_nil.1 hv]
    exact .nothing
  | request bye hb =>
    rcases List.prefix_cons_iff.1 hv with rfl | ⟨ws, rfl, hw⟩
    · exact .nothing
    -- of a goodbye there is nothing or all
    cases bye with
    | none =>
      rw [List.prefix_nil.1 hw]
      exact .request none (by simp)
    | some b =>
      rcases List.prefix_cons_iff.1 hw with rfl | ⟨xs, rfl, hx⟩
      · exact .request none (by simp)
      · rw [List.prefix_nil.1 hx]
        exact .request (some b) hb
  | transfer chunks bye hb =>
    rcases List.prefix_cons_iff.1 hv with rfl | ⟨ws, rfl, hw⟩
    · exact .nothing
    rcases List.prefix_cons_iff.1 hw with rfl | ⟨xs, rfl, hx⟩
    · exact .request none (by simp)
    have hchunks (hx : xs <+: chunks.map .chunk) :
        Spoken id total (.record (.uploadRequest id total) :: .record .ack :: xs) := by
      rw [List.prefix_iff_eq_take.1 hx, ← List.map_take]
      have hspoken : Spoken id total _ := .transfer (chunks.take xs.length) none (by simp)
      simpa using hspoken
    cases bye with
    | none => exact hchunks (by simpa using hx)
    | some b =>
      rcases List.prefix_concat_iff.1 hx with rfl | hx
      · exact .transfer chunks (some b) hb
      · exact hchunks hx

/-! ### Effects that say something -/

/-- The effects say nothing on any connection. -/
def Mute (es : List Effect) : Prop := ∀ e ∈ es, e.addressee? = none

section Saying

variable {c conn : ConnectionId} {e : Effect} {es fs : List Effect} {u : Utterance}

theorem Mute.nil : Mute [] := fun _ he => by cases he

theorem Mute.append (he : Mute es) (hf : Mute fs) : Mute (es ++ fs) := by
  intro e hmem
  rcases List.mem_append.1 hmem with hmem | hmem
  · exact he e hmem
  · exact hf e hmem

theorem Mute.singleton (h : e.addressee? = none) : Mute [e] := by
  intro f hf
  rwa [List.mem_singleton.1 hf]

theorem addressee_of_saidOn (h : e.saidOn? c = some u) : e.addressee? = some c := by
  cases e <;> simp_all [Effect.saidOn?, Effect.addressee?]

theorem Mute.saidOn_eq_nil (h : Mute es) (c : ConnectionId) : saidOn c es = [] := by
  refine List.filterMap_eq_nil_iff.2 fun e he => ?_
  by_contra hu
  obtain ⟨u, hu⟩ := Option.ne_none_iff_exists'.1 hu
  have := addressee_of_saidOn hu
  simp [h e he] at this

/-- Of effects that say one thing on a connection, that is what is said on it. -/
theorem saidOn_of_said (he : Mute es) (hu : e.saidOn? conn = some u) (hf : Mute fs)
    (c : ConnectionId) : saidOn c (es ++ e :: fs) = if conn = c then [u] else [] := by
  have hes := he.saidOn_eq_nil c
  have hfs := hf.saidOn_eq_nil c
  unfold saidOn at hes hfs ⊢
  rw [List.filterMap_append, List.filterMap_cons, hes, hfs]
  by_cases hc : conn = c
  · subst hc
    simp [hu]
  · have hnone : e.saidOn? c = none := by
      cases e <;> simp_all [Effect.saidOn?]
    simp [hnone, hc]

theorem eq_of_mem_said (he : Mute es) (hf : Mute fs) {e' : Effect} (hmem : e' ∈ es ++ e :: fs)
    (ha : e'.addressee? = some c) : e' = e := by
  rcases List.mem_append.1 hmem with hmem | hmem
  · simp [he e' hmem] at ha
  · rcases List.mem_cons.1 hmem with rfl | hmem
    · rfl
    · simp [hf e' hmem] at ha

end Saying

namespace Session

variable (s : Session)

theorem mute_timerRelease : Mute s.timerRelease := by
  cases h : s.retry.armed <;> simp [timerRelease, h, Mute, Effect.addressee?]

theorem mute_readRelease : Mute s.readRelease := by
  cases h : s.pendingRead <;> simp [readRelease, h, Mute, Effect.addressee?]

theorem mute_channelRelease : Mute s.channelRelease := by
  cases h : s.channel <;> simp [channelRelease, h, Mute, Effect.addressee?]

theorem mute_releases : Mute s.releases :=
  (s.mute_timerRelease.append s.mute_readRelease).append s.mute_channelRelease

theorem mute_requestNextChunk : Mute s.requestNextChunk.effects := by
  rcases s.requestNextChunk_cases with h | ⟨w, -, -, -, -, h⟩ <;> rw [h]
  · exact .nil
  · exact .singleton rfl

end Session

/-! ### What a transition says -/

/-- The stage of the conversation on the channel that is held in a phase. -/
def Phase.stage : Phase → Stage
  | connecting => .silent
  | handshaking => .requested
  | transferring | awaitingCompletion => .streaming
  | _ => .ended

theorem phase_of_stage_requested {p : Phase} (h : p.stage = .requested) : p = .handshaking := by
  cases p <;> first | rfl | cases h

namespace Session

/-- The session has told the server on `c` that it cancels for this reason, and waits for the
confirmation. -/
structure AwaitsCancel (s : Session) (c : ConnectionId) (reason : String) : Prop where
  phase : s.phase = .cancelling
  channel : s.channel = some ⟨c, true⟩
  pending : s.pendingReason = some reason

/-- What a transition says. -/
inductive Speech (s : Session) (i : Input) (r : Reaction) : Prop
  /-- Nothing is said, and no other channel is held. -/
  | kept (he : Mute r.effects) (hn : r.session.connections = s.connections)
      (hc : ∀ c, r.session.holds c = true →
        s.holds c = true ∧ r.session.phase.stage = s.phase.stage)
  | reconnected (he : Mute r.effects) (hr : r.session = s.reconnected)
  /-- One thing is said on the channel that is held. -/
  | said (conn : ConnectionId) (u : Utterance) (st : Stage) (e : Effect) (es fs : List Effect)
      (he : r.effects = es ++ e :: fs) (hu : e.saidOn? conn = some u) (hes : Mute es)
      (hfs : Mute fs) (hn : r.session.connections = s.connections) (hh : s.holds conn = true)
      (ho : i = .channelOpened conn ∨ s.isOpen conn = true)
      (hs : Stage.Says s.id s.total s.phase.stage u st)
      (hc : ∀ c, r.session.holds c = true → c = conn ∧ r.session.phase.stage = st)
      (hack : u = .record .ack → es = [] ∧
        ∃ params, i = .record conn (.uploadConfig params) ∧ s.Accepts (.uploadConfig params))
      (hpause : u = .record .pause → fs = [.closeChannel conn])
      (hcancel : ∀ reason, u = .record (.cancel reason) → r.session.AwaitsCancel conn reason)

variable {s : Session} {i : Input} {r : Reaction}

theorem holds_of_channel {conn : ConnectionId} {o : Bool} (hc : s.channel = some ⟨conn, o⟩)
    {c : ConnectionId} : s.holds c = true ↔ c = conn := by
  simp [holds, hc, eq_comm]

/-- A session that says nothing and holds no channel any more. -/
theorem Speech.of_released (he : Mute r.effects) (hn : r.session.connections = s.connections)
    (hc : r.session.channel = none) : s.Speech i r :=
  .kept he hn fun c hh => by simp [holds, hc] at hh

/-- A session that says nothing and stays at its stage. -/
theorem Speech.of_same (he : Mute r.effects) (hn : r.session.connections = s.connections)
    (hc : r.session.channel = s.channel) (hp : r.session.phase.stage = s.phase.stage) :
    s.Speech i r :=
  .kept he hn fun c hh => ⟨by simpa [holds, hc] using hh, hp⟩

/-- A session that says on its open channel that it cancels. -/
theorem Speech.of_cancel {conn : ConnectionId} {reason : String} {es : List Effect}
    (hc : s.channel = some ⟨conn, true⟩)
    (hs : s.phase.stage = .requested ∨ s.phase.stage = .streaming)
    (he : r.effects = es ++ [.sendRecord conn (.cancel reason)]) (hes : Mute es)
    (hn : r.session.connections = s.connections) (hw : r.session.AwaitsCancel conn reason) :
    s.Speech i r := by
  refine .said conn (.record (.cancel reason)) .ended _ es [] he (if_pos rfl) hes .nil hn
    ((holds_of_channel hc).2 rfl) (.inr (isOpen_iff.2 hc)) (.farewell hs (.cancel reason))
    ?_ ?_ ?_ ?_
  · intro c hh
    exact ⟨(holds_of_channel hw.channel).1 hh, by rw [hw.phase]; rfl⟩
  · rintro ⟨⟩
  · rintro ⟨⟩
  · rintro _ ⟨⟩
    exact hw

/-- A session that confirms the parameters on its open channel. -/
theorem Speech.of_ack {conn : ConnectionId} {params : UploadParams} {fs : List Effect}
    (hp : s.phase = .handshaking) (hc : s.channel = some ⟨conn, true⟩)
    (hr : s.Accepts (.uploadConfig params)) (he : r.effects = .sendRecord conn .ack :: fs)
    (hfs : Mute fs) (hn : r.session.connections = s.connections)
    (hch : r.session.channel = s.channel) (hst : r.session.phase.stage = .streaming) :
    s.Speech (.record conn (.uploadConfig params)) r := by
  refine .said conn (.record .ack) .streaming _ [] fs he (if_pos rfl) .nil hfs hn
    ((holds_of_channel hc).2 rfl) (.inr (isOpen_iff.2 hc)) ?_ ?_ ?_ ?_ ?_
  · rw [hp]
    exact .confirm
  · intro c hh
    exact ⟨(holds_of_channel (hch.trans hc)).1 hh, hst⟩
  · exact fun _ => ⟨rfl, params, rfl, hr⟩
  · rintro ⟨⟩
  · rintro _ ⟨⟩

theorem stage_of_open (h : s.Consistent) {conn : ConnectionId}
    (hc : s.channel = some ⟨conn, true⟩) (hp : s.phase ≠ .cancelling) :
    s.phase.stage = .requested ∨ s.phase.stage = .streaming := by
  rcases h.phase_of_open hc with hp' | hp' | hp' | hp'
  · exact .inl (by rw [hp']; rfl)
  · exact .inr (by rw [hp']; rfl)
  · exact .inr (by rw [hp']; rfl)
  · exact absurd hp' hp

theorem stage_of_mayCancel (hm : s.MayCancel) :
    s.phase.stage = .requested ∨ s.phase.stage = .streaming := by
  rcases hm with hp | ⟨hp, -⟩
  · exact .inl (by rw [hp]; rfl)
  · exact .inr (by rw [hp]; rfl)

/-- **Every transition says nothing, or one thing that the stage of the conversation allows.** -/
theorem speech_of_transition (h : s.Consistent) (ht : s.Transition i r) : s.Speech i r := by
  cases ht with
  | ignored | errorNoted | configNoted | ackNoted => exact .of_same .nil rfl rfl rfl
  | ackCompletes hp => exact .of_same .nil rfl rfl (by simp [hp, Phase.stage])
  | restarted =>
    exact .reconnected (s.mute_releases.append (.singleton rfl)) rfl
  | unpaused | retried => exact .reconnected (.singleton rfl) rfl
  | @opened conn hp hc =>
    refine .said conn _ .requested _ [] [] rfl (if_pos rfl) .nil .nil rfl
      ((holds_of_channel hc).2 rfl) (.inl rfl) ?_ ?_ ?_ ?_ ?_
    · rw [hp]
      exact .request
    · intro c hh
      exact ⟨(holds_of_channel rfl).1 hh, rfl⟩
    · rintro ⟨⟩
    · rintro ⟨⟩
    · rintro _ ⟨⟩
  | suspended _ hx =>
    -- goodbye is said on an open channel only
    cases ho : s.openConnection with
    | none =>
      have hgood : s.goodbye = [] := by simp [goodbye, ho]
      refine .of_released ?_ rfl rfl
      simp only [hgood, List.append_nil]
      exact (s.mute_readRelease.append s.mute_timerRelease).append s.mute_channelRelease
    | some conn =>
      have hc := openConnection_eq_some_iff.1 ho
      have hgood : s.goodbye = [.sendRecord conn .pause] := by simp [goodbye, ho]
      have hrel : s.channelRelease = [.closeChannel conn] := by simp [channelRelease, hc]
      refine .said conn (.record .pause) .ended (.sendRecord conn .pause)
        (s.readRelease ++ s.timerRelease) [.closeChannel conn] (by simp [hgood, hrel]) (if_pos rfl)
        (s.mute_readRelease.append s.mute_timerRelease) (.singleton rfl) rfl
        ((holds_of_channel hc).2 rfl) (.inr (isOpen_iff.2 hc)) (.farewell ?_ .pause) ?_ ?_ ?_ ?_
      · exact stage_of_open h hc hx
      · intro c hh
        cases hh
      · rintro ⟨⟩
      · intro _
        rfl
      · rintro _ ⟨⟩
  | cancelSent hc hm =>
    exact .of_cancel hc (stage_of_mayCancel hm) rfl s.mute_readRelease rfl ⟨rfl, hc, rfl⟩
  | serverFailed hm hc =>
    exact .of_cancel hc (stage_of_mayCancel hm) rfl s.mute_readRelease rfl ⟨rfl, hc, rfl⟩
  | readFailed failure hr hd hc hm =>
    exact .of_cancel hc (stage_of_mayCancel hm) (List.nil_append _).symm .nil rfl ⟨rfl, hc, rfl⟩
  | cancelledOffline | cancelConfirmed | serverCancelled | violated | undecodable | finished
  | failedCompleting | failedUncancelled =>
    refine .of_released ?_ ?_ ?_ <;>
      simp [finishCancel, onServerCancel, violate, endWith, released, mute_releases]
  | lost =>
    refine .of_released ?_ ?_ ?_
    · simp only [Reaction.andThen_effects, abortRead_effects, awaitRetry_eq]
      exact (mute_readRelease _).append ((mute_timerRelease _).append (.singleton rfl))
    · simp [awaitRetry_eq, endRead]
    · simp [awaitRetry_eq, endRead]
  | cancelLost =>
    refine .of_released ?_ ?_ ?_
    · simp only [Reaction.andThen_effects, abortRead_effects, abandonCancel, disarmRetry_effects,
        endUnconfirmed_effects, List.append_nil]
      exact (mute_readRelease _).append (mute_timerRelease _)
    · simp [abandonCancel, endRead]
    · simp [abandonCancel, endRead]
  | configCompletes hp hc hr => exact .of_ack hp hc hr rfl .nil rfl rfl rfl
  | configBegins hp hc hr =>
    refine .of_ack hp hc hr rfl ((mute_requestNextChunk _).append .nil) ?_ ?_ ?_ <;>
      simp [configured, Phase.stage]
  | ackContinues hp hc hr he =>
    refine .of_same ?_ ?_ ?_ ?_
    · simpa using mute_requestNextChunk _
    · simp [acknowledged]
    · simp [acknowledged]
    · simp [acknowledged]
  | @sent conn read range data hr hc hd =>
    rw [sendChunk_endRead]
    have hp := (h.read _ _ hr).1
    refine .said conn (.chunk data) .streaming (.sendChunk conn data) []
      (s.chunkSent data.size).requestNextChunk.effects rfl (if_pos rfl) .nil
      (mute_requestNextChunk _) ?_ ((holds_of_channel hc).2 rfl) (.inr (isOpen_iff.2 hc))
      ?_ ?_ ?_ ?_ ?_
    · simp [chunkSent]
    · rw [hp]
      exact .chunk data
    · intro c hh
      have hc' : s.holds c = true := by simpa [holds, chunkSent] using hh
      exact ⟨(holds_of_channel hc).1 hc', by simp [chunkSent, hp, Phase.stage]⟩
    · rintro ⟨⟩
    · rintro ⟨⟩
    · rintro _ ⟨⟩

/-- What a transition says, it says on an open channel, and with the effects around it that the
thing said calls for. -/
theorem Speech.of_mem (h : s.Speech i r) {e : Effect} (he : e ∈ r.effects) {c : ConnectionId}
    (ha : e.addressee? = some c) :
    ∃ u es fs, r.effects = es ++ e :: fs ∧ e.saidOn? c = some u ∧
      (i = .channelOpened c ∨ s.isOpen c = true) ∧
      (u = .record .ack → es = [] ∧ s.phase = .handshaking ∧
        ∃ params, i = .record c (.uploadConfig params) ∧ s.Accepts (.uploadConfig params)) ∧
      (u = .record .pause → fs = [.closeChannel c]) ∧
      ∀ reason, u = .record (.cancel reason) → r.session.AwaitsCancel c reason := by
  rcases h with ⟨hmute⟩ | ⟨hmute⟩ |
    ⟨conn, u, st, e', es, fs, hr, hu, hes, hfs, -, -, ho, hs, -, hack, hpause, hcancel⟩
  · simp [hmute e he] at ha
  · simp [hmute e he] at ha
  · rw [hr] at he
    obtain rfl : e = e' := eq_of_mem_said hes hfs he ha
    obtain rfl : conn = c := Option.some.inj ((addressee_of_saidOn hu).symm.trans ha)
    refine ⟨u, es, fs, hr, hu, ho, ?_, hpause, hcancel⟩
    rintro rfl
    obtain ⟨rfl, haccepts⟩ := hack rfl
    exact ⟨rfl, phase_of_stage_requested hs.requested_of_ack, haccepts⟩

/-! ### Runs -/

theorem id_of_transition (ht : s.Transition i r) : r.session.id = s.id :=
  (fixed_of_transition ht).1

/-- What a session has said on a connection agrees with how far it is. -/
structure HasSaid (s : Session) (c : ConnectionId) (us : List Utterance) : Prop where
  fresh : s.connections < c.number → us = []
  current : s.holds c = true → s.phase.stage.Said s.id s.total us
  spoken : Spoken s.id s.total us

/-- What a transition says goes on from what was said before. -/
theorem HasSaid.of_transition {c : ConnectionId} {us : List Utterance} (hu : s.HasSaid c us)
    (h : s.Consistent) (ht : s.Transition i r) :
    r.session.HasSaid c (us ++ saidOn c r.effects) := by
  have hid := id_of_transition ht
  have htotal := total_of_transition ht
  rcases speech_of_transition h ht with
    ⟨he, hn, hc⟩ | ⟨he, hr⟩ | ⟨conn, u, st, e, es, fs, he, hsaid, hes, hfs, hn, hh, -, hs, hc, -, -, -⟩
  · rw [he.saidOn_eq_nil, List.append_nil]
    constructor
    · rw [hn]
      exact hu.fresh
    · intro hh
      obtain ⟨hh, hst⟩ := hc c hh
      rw [hid, htotal, hst]
      exact hu.current hh
    · rw [hid, htotal]
      exact hu.spoken
  -- nothing was said yet on a connection with the next number
  · rw [he.saidOn_eq_nil, List.append_nil]
    have hn : r.session.connections = s.connections + 1 := by rw [hr]; rfl
    constructor
    · intro hlt
      exact hu.fresh (by omega)
    · intro hh
      rw [hr] at hh ⊢
      obtain rfl := (holds_of_channel rfl).1 hh
      exact hu.fresh (Nat.lt_succ_self _)
    · rw [hid, htotal]
      exact hu.spoken
  · rw [he, saidOn_of_said hes hsaid hfs]
    by_cases hconn : conn = c
    · subst hconn
      rw [if_pos rfl]
      have hsaid := hs.said (hu.current hh)
      obtain ⟨ch, hch, hnum⟩ := holds_iff.1 hh
      have hlatest := h.channel_latest ch hch
      rw [hnum] at hlatest
      constructor
      · intro hlt
        omega
      · intro hh'
        rw [hid, htotal, (hc conn hh').2]
        exact hsaid
      · rw [hid, htotal]
        exact hsaid.spoken
    · rw [if_neg hconn, List.append_nil]
      constructor
      · rw [hn]
        exact hu.fresh
      · intro hh'
        exact absurd (hc c hh').1.symm hconn
      · rw [hid, htotal]
        exact hu.spoken

theorem hasSaid_run (id : String) (total : UInt64) (delay : Nat) (c : ConnectionId)
    {is : List Input} (h : OpensOnce is) :
    ((new id total delay).run is).session.HasSaid c (saidOn c ((new id total delay).run is).effects) := by
  refine run_induction id total delay (P := fun _ r => r.session.HasSaid c (saidOn c r.effects))
    ⟨fun _ => rfl, fun hh => ?_, .nothing⟩ ?_ h
  · cases hh
  · rintro is i r - hcons htimely hu
    have hsaid := hu.of_transition hcons (transition hcons htimely)
    rwa [← saidOn_append] at hsaid

theorem id_run (id : String) (total : UInt64) (delay : Nat) {is : List Input}
    (h : OpensOnce is) : ((new id total delay).run is).session.id = id :=
  run_induction id total delay (P := fun _ r => r.session.id = id) rfl
    (fun _ _ _ _ hc ht hid => (id_of_transition (transition hc ht)).trans hid) h

/-- A channel is open only after it was reported open. -/
theorem opened_of_isOpen (id : String) (total : UInt64) (delay : Nat) {c : ConnectionId}
    {is : List Input} (h : OpensOnce is) :
    ((new id total delay).run is).session.isOpen c = true → .channelOpened c ∈ is := by
  refine run_induction id total delay
    (P := fun is r => r.session.isOpen c = true → .channelOpened c ∈ is) (fun ho => by cases ho) ?_ h
  intro is i r _ hcons htimely ih ho
  rw [isOpen_iff, Reaction.andThen_session] at ho
  rw [List.mem_append]
  rcases channel_of_transition (transition hcons htimely) with hc | hc | hc | ⟨conn, rfl, hc⟩
  · exact .inl (ih (isOpen_iff.2 (hc.symm.trans ho)))
  · simp [hc] at ho
  · simp [hc] at ho
  · obtain rfl : conn = c := by simpa [hc] using ho
    exact .inr (List.mem_singleton_self _)

/-- What a session says on a connection, and when. -/
structure Converses (s : Session) (is : List Input) (c : ConnectionId) : Prop where
  /-- Whatever was said up to some moment is in order. -/
  spoken : ∀ us, us <+: saidOn c (s.run is).effects → Spoken s.id s.total us
  /-- Something is said only after the channel was reported open, and while it has neither been
  closed nor closed by itself. -/
  within : ∀ os e rest, s.history is = os ++ .asked e :: rest → e.addressee? = some c →
    .given (.channelOpened c) ∈ os ∧ (⟨.connection, c.number⟩ : Resource) ∈ (custody os).outstanding
  /-- Parameters are confirmed at once when they arrive and are accepted, and only then. -/
  confirms : ∀ before i after, is = before ++ i :: after →
    .sendRecord c .ack ∈ ((s.run before).session.step i).effects →
    ∃ params es, i = .record c (.uploadConfig params) ∧
      (s.run before).session.phase = .handshaking ∧ (s.run before).session.isOpen c = true ∧
      params.resumeOffset ≤ s.total ∧
      ((s.run before).session.step i).effects = .sendRecord c .ack :: es
  /-- A pause is said just before the channel is closed. -/
  leaves : ∀ before i after, is = before ++ i :: after →
    .sendRecord c .pause ∈ ((s.run before).session.step i).effects →
    ∃ es, ((s.run before).session.step i).effects = es ++ [.sendRecord c .pause, .closeChannel c]

/-- **What a session says on a connection is in order and in time.** It requests the upload, may
confirm the parameters and send chunks, and may say goodbye, after which it is silent. -/
theorem conversation_run (id : String) (total : UInt64) (delay : Nat) (c : ConnectionId)
    {is : List Input} (h : OpensOnce is) : (new id total delay).Converses is c := by
  -- the input that makes the session say something meets a consistent session
  have hspeech {before : List Input} {i : Input} {after : List Input}
      (he : is = before ++ i :: after) :
      OpensOnce before ∧ ((new id total delay).run before).session.Speech i
        (((new id total delay).run before).session.step i) := by
    have hopens : OpensOnce (before ++ [i] ++ after) := by simpa [he] using h
    have hbefore := hopens.of_append
    exact ⟨hbefore.init, speech_of_transition (consistent_run id total delay hbefore.init)
      (transition_run id total delay hbefore)⟩
  constructor
  · intro us hus
    have hspoken := (hasSaid_run id total delay c h).spoken
    rw [id_run id total delay h, total_run id total delay h] at hspoken
    exact hspoken.of_prefix hus
  · intro os e rest he ha
    refine ⟨?_, outstanding_of_addressee id total delay h he ha⟩
    obtain ⟨before, i, after, es, fs, hsplit, heffects, rfl⟩ := history_split he
    obtain ⟨hbefore, hsp⟩ := hspeech hsplit
    obtain ⟨u, es, fs, -, -, hopen, -⟩ := hsp.of_mem (by simp [heffects]) ha
    rcases hopen with rfl | hopen
    · simp
    · have hmem := opened_of_isOpen id total delay hbefore hopen
      exact List.mem_append_left _ (given_mem_history hmem)
  · intro before i after he hmem
    obtain ⟨hbefore, hsp⟩ := hspeech he
    obtain ⟨u, es, fs, heffects, hu, hopen, hack, -⟩ := hsp.of_mem hmem rfl
    obtain rfl : .record .ack = u := by simpa [Effect.saidOn?] using hu
    obtain ⟨rfl, hp, params, rfl, -, hle⟩ := hack rfl
    rw [total_run id total delay hbefore] at hle
    exact ⟨params, fs, rfl, hp, hopen.resolve_left (by rintro ⟨⟩), hle, heffects⟩
  · intro before i after he hmem
    obtain ⟨u, es, fs, heffects, hu, -, -, hpause, -⟩ := (hspeech he).2.of_mem hmem rfl
    obtain rfl : .record .pause = u := by simpa [Effect.saidOn?] using hu
    obtain rfl := hpause rfl
    exact ⟨es, heffects⟩

/-- After a pause a new connection is spoken on, and a late acknowledgement on the first one is not
answered. -/
theorem conversation_run_of_pause :
    OpensOnce [.start, .channelOpened ⟨1⟩, .record ⟨1⟩ (.uploadConfig ⟨4, 2, 2⟩),
      .chunkRead ⟨1⟩ (.ok ⟨#[1, 2, 3, 4]⟩), .pause .pause, .record ⟨1⟩ (.chunkAck 4),
      .pause .unpause, .channelOpened ⟨2⟩] ∧
    (new "upload" 10 500).Converses [.start, .channelOpened ⟨1⟩,
      .record ⟨1⟩ (.uploadConfig ⟨4, 2, 2⟩), .chunkRead ⟨1⟩ (.ok ⟨#[1, 2, 3, 4]⟩), .pause .pause,
      .record ⟨1⟩ (.chunkAck 4), .pause .unpause, .channelOpened ⟨2⟩] ⟨1⟩ :=
  ⟨by decide, conversation_run "upload" 10 500 ⟨1⟩ (by decide)⟩

end Session

end ResumableUpload
