import ResumableUpload.Proofs.Custody
import ResumableUpload.Proofs.Reachable

/-!
# What a session takes up and gives back

The inputs that a session takes and the effects that it asks for make up its `Session.history`. A
history is a chain of changes of what the session holds (`Session.trail_run`), one for each
transition (`Session.trail_of_transition`), so that at every moment of it nothing was taken up or
released twice, and at most one resource of each kind is outstanding (`Session.custody_run`).
-/

namespace ResumableUpload

/-! ### Histories -/

namespace Session

/-- The inputs that a session takes and the effects that it asks for, in order. -/
def history (s : Session) : List Input → List Occurrence
  | [] => []
  | i :: is => .given i :: (s.step i).effects.map .asked ++ (s.step i).session.history is

theorem history_concat (s : Session) (is : List Input) (i : Input) :
    s.history (is ++ [i]) =
      s.history is ++ .given i :: ((s.run is).session.step i).effects.map .asked := by
  induction is generalizing s with
  | nil => simp [history, run]
  | cons j is ih => simp [history, run, ih]

/-- An effect in a history is asked for by one of the inputs. -/
theorem history_split {s : Session} {is : List Input} {os rest : List Occurrence} {e : Effect}
    (h : s.history is = os ++ .asked e :: rest) :
    ∃ before i after es fs, is = before ++ i :: after ∧
      ((s.run before).session.step i).effects = es ++ e :: fs ∧
      os = s.history before ++ .given i :: es.map .asked := by
  induction is generalizing s os with
  | nil => simp [history] at h
  | cons i is ih =>
    rw [history, List.cons_append, List.cons_eq_append_iff] at h
    rcases h with ⟨-, h⟩ | ⟨os, rfl, h⟩
    · cases h
    rcases List.append_eq_append_iff.1 h with ⟨ps, rfl, hrest⟩ | ⟨ps, hes, hrest⟩
    -- a later input asks for it
    · obtain ⟨before, j, after, es, fs, rfl, he, rfl⟩ := ih hrest
      exact ⟨i :: before, j, after, es, fs, rfl, he, by simp [history]⟩
    · cases ps with
      | nil =>
        obtain ⟨before, j, after, es, fs, rfl, he, hos⟩ :=
          ih (hrest.symm.trans (List.nil_append _).symm)
        simp at hos
      -- the first input asks for it
      | cons p ps =>
        obtain ⟨rfl, -⟩ := List.cons_eq_cons.1 hrest
        obtain ⟨es, fs', hes, rfl, hfs⟩ := List.map_eq_append_iff.1 hes
        obtain ⟨e', fs, rfl, he, -⟩ := List.map_eq_cons_iff.1 hfs
        cases he
        exact ⟨[], i, is, es, fs, rfl, hes, by simp [history]⟩

theorem given_mem_history {s : Session} {is : List Input} {i : Input} (h : i ∈ is) :
    .given i ∈ s.history is := by
  induction is generalizing s with
  | nil => cases h
  | cons j is ih =>
    rcases List.mem_cons.1 h with rfl | h
    · simp [history]
    · simp [history, ih h]

/-- What a run asks for is in its history. -/
theorem asked_mem_history {s : Session} {is : List Input} {e : Effect}
    (h : e ∈ (s.run is).effects) : .asked e ∈ s.history is := by
  induction is generalizing s with
  | nil => cases h
  | cons i is ih =>
    rcases List.mem_append.1 h with h | h
    · simp [history, h]
    · simp [history, ih h]

/-- What a session holds of each kind, and how many it has taken up. -/
def stock (s : Session) : Stock where
  connection := ⟨s.channel.map (·.id.number), s.connections⟩
  read := ⟨s.pendingRead.map (·.1.number), s.reads⟩
  timer := ⟨s.retry.armed.map (·.number), s.retry.count⟩

/-- The effect that gives back a resource. -/
def giveBack : Resource.Kind → Nat → Effect
  | .connection, n => .closeChannel ⟨n⟩
  | .read, n => .abortRead ⟨n⟩
  | .timer, n => .disarmRetry ⟨n⟩

end Session

/-! ### Every transition is a chain of changes -/

namespace Trail

open Session (giveBack)

variable {f g : Stock}

/-- What is held of a kind, if anything, is given back. -/
theorem giveBack (k : Resource.Kind) {es : List Effect}
    (he : es = ((f.get k).held.map (Session.giveBack k)).toList) :
    Trail f (es.map .asked) (f.set k (f.get k).freed) := by
  subst he
  cases hf : (f.get k).held with
  | none =>
    have hfreed : (f.get k).freed = f.get k := by rw [Tally.freed, ← hf]
    rw [hfreed, f.set_get]
    exact .nil f
  | some n => exact .single (.released (by cases k <;> rfl) (by cases k <;> rfl) hf)

/-- The next resource of a kind is taken up. -/
theorem take (k : Resource.Kind) {e : Effect} (he : e.acquires? = some ⟨k, (f.get k).taken + 1⟩)
    (hf : (f.get k).held = none) (hx : (f.set k (f.get k).advanced).Exclusive) :
    Trail f [.asked e] (f.set k (f.get k).advanced) :=
  .single (.taken he hf hx)

end Trail

namespace Session

variable (s : Session)

theorem trail_timerRelease (c r : Tally) :
    Trail ⟨c, r, s.stock.timer⟩ (s.timerRelease.map .asked) ⟨c, r, s.stock.timer.freed⟩ := by
  refine Trail.giveBack .timer ?_
  cases h : s.retry.armed <;> simp [timerRelease, Stock.get, stock, h, giveBack]

theorem trail_readRelease (c t : Tally) :
    Trail ⟨c, s.stock.read, t⟩ (s.readRelease.map .asked) ⟨c, s.stock.read.freed, t⟩ := by
  refine Trail.giveBack .read ?_
  cases h : s.pendingRead <;> simp [readRelease, Stock.get, stock, h, giveBack]

theorem trail_channelRelease (r t : Tally) :
    Trail ⟨s.stock.connection, r, t⟩ (s.channelRelease.map .asked)
      ⟨s.stock.connection.freed, r, t⟩ := by
  refine Trail.giveBack .connection ?_
  cases h : s.channel <;> simp [channelRelease, Stock.get, stock, h, giveBack]

theorem trail_releases : Trail s.stock (s.releases.map .asked) s.released.stock := by
  rw [releases, List.map_append, List.map_append]
  exact ((s.trail_timerRelease _ _).append (s.trail_readRelease _ _)).append
    (s.trail_channelRelease _ _)

theorem trail_goodbye (r t : Tally) :
    Trail ⟨s.stock.connection, r, t⟩ (s.goodbye.map .asked) ⟨s.stock.connection, r, t⟩ := by
  cases h : s.openConnection with
  | none =>
    simp only [goodbye, h, List.map_nil]
    exact .nil _
  | some conn =>
    have hc := openConnection_eq_some_iff.1 h
    simp only [goodbye, h, List.map_cons, List.map_nil]
    exact .single (.said rfl (by simp [stock, hc]))

variable {s}

theorem trail_requestNextChunk (h : s.Consistent) {conn : ConnectionId}
    (hp : s.phase = .transferring) (hc : s.channel = some ⟨conn, true⟩) :
    Trail s.stock (s.requestNextChunk.effects.map .asked) s.requestNextChunk.session.stock := by
  obtain ⟨w, hw⟩ := Option.isSome_iff_exists.1 (h.announced (by simp [handler, hp]))
  rw [requestNextChunk_of_transferring s hp (openConnection_eq_some_iff.2 hc) hw]
  split
  · rename_i hopen
    have hr := h.unread_of_isOpen hw hopen
    exact Trail.take .read rfl (by simp [Stock.get, stock, hr])
      (.inr (by simp [Stock.set, stock, h.armed_of_channel hc]))
  · exact .nil _

theorem change_of_ignores {i : Input} (hi : s.Ignores i) : Change s.stock (.given i) s.stock := by
  refine .noticed fun x hx => ?_
  cases i with
  | channelClosed conn =>
    cases hx
    have hh : s.holds conn = false := hi
    intro hc
    obtain ⟨⟨⟨n⟩, o⟩, hc, hn⟩ := Option.map_eq_some_iff.1 hc
    obtain rfl : n = conn.number := hn
    exact absurd (holds_iff.2 ⟨_, hc, rfl⟩) (by simp [hh])
  | chunkRead read result =>
    cases hx
    intro hr
    obtain ⟨⟨pending, range⟩, hr, hn⟩ := Option.map_eq_some_iff.1 hr
    obtain ⟨n⟩ := pending
    obtain rfl : n = read.number := hn
    exact hi range hr
  | retryElapsed token =>
    cases hx
    intro ht
    obtain ⟨⟨n⟩, ht, hn⟩ := Option.map_eq_some_iff.1 ht
    obtain rfl : n = token.number := hn
    exact hi ht
  | _ => cases hx

/-- Next to a channel no timer is armed, so that a cancellation has none to give back. -/
theorem trail_cancelling (h : s.Consistent) {conn : ConnectionId}
    (hc : s.channel = some ⟨conn, true⟩) (reason : String) :
    Trail s.stock ((s.readRelease ++ [Effect.sendRecord conn (.cancel reason)]).map .asked)
      (s.cancelling reason).stock := by
  have hstock : (s.cancelling reason).stock =
      ⟨s.stock.connection, s.stock.read.freed, s.stock.timer⟩ := by
    simp [stock, cancelling, Tally.freed, h.armed_of_channel hc]
  rw [hstock, List.map_append]
  exact (s.trail_readRelease _ _).append (.single (.said rfl (by simp [hc])))

/-- **A transition changes what a session holds by a chain of changes.** -/
theorem trail_of_transition (h : s.Consistent) {i : Input} {r : Reaction} (ht : s.Transition i r) :
    Trail s.stock (.given i :: r.effects.map .asked) r.session.stock := by
  have noticed {i : Input} (hi : i.ends? = none) : Change s.stock (.given i) s.stock :=
    .noticed fun x hx => by simp [hi] at hx
  have held {conn : ConnectionId} {o : Bool} (hc : s.channel = some ⟨conn, o⟩) :
      s.stock.connection.held = some conn.number := by simp [stock, hc]
  cases ht with
  | ignored hi => exact .single (change_of_ignores hi)
  | restarted =>
    rw [List.map_append]
    exact .cons (noticed rfl) (s.trail_releases.append (Trail.take .connection rfl rfl (.inr rfl)))
  | unpaused hp =>
    obtain ⟨hc, hr, ht⟩ := h.idle (by simp [hp, Phase.isIdle])
    have hstock : s.stock = s.released.stock := by simp [stock, released, hc, hr, ht]
    refine .cons (noticed rfl) ?_
    rw [hstock]
    exact Trail.take .connection rfl rfl (.inr rfl)
  | retried hl hc ht =>
    -- no read is pending without a channel
    have hr : s.pendingRead = none := by
      by_contra hr
      obtain ⟨⟨read, range⟩, hr⟩ := Option.ne_none_iff_exists'.1 hr
      obtain ⟨-, ⟨conn, hc'⟩, -⟩ := h.read _ _ hr
      simp [hc] at hc'
    have hstock : s.stock.set .timer (s.stock.get .timer).freed = s.released.stock := by
      simp [stock, released, Stock.set, Stock.get, Tally.freed, hc, hr]
    refine .cons (.ended (k := .timer) rfl (by simp [Stock.get, stock, ht])) ?_
    rw [hstock]
    exact Trail.take .connection rfl rfl (.inr rfl)
  | @opened conn hp hc =>
    have hstock : stock { s with channel := some ⟨conn, true⟩, phase := .handshaking } =
        s.stock := by simp [stock, hc]
    rw [Reaction.ask_session, hstock]
    exact .cons (noticed rfl) (.single (.said rfl (held hc)))
  | suspended =>
    simp only [List.map_append]
    exact .cons (noticed rfl) ((((s.trail_readRelease _ _).append (s.trail_timerRelease _ _)).append
      (s.trail_goodbye _ _)).append (s.trail_channelRelease _ _))
  | cancelSent hc | serverFailed _ hc => exact .cons (noticed rfl) (trail_cancelling h hc _)
  | readFailed failure hr hd hc =>
    have hstock : stock { s.cancelling "unexpected read error" with
        error := some (.unreadable failure) } = s.stock.set .read (s.stock.get .read).freed := by
      simp [stock, cancelling, Stock.set, Stock.get, Tally.freed, h.armed_of_channel hc]
    refine .cons (.ended (k := .read) rfl (by simp [Stock.get, stock, hr])) ?_
    rw [hstock]
    exact .single (.said rfl (held hc))
  | cancelledOffline =>
    refine .cons (noticed rfl) ?_
    simpa [stock] using s.trail_releases
  | cancelConfirmed | serverCancelled | violated | undecodable | finished | failedCompleting
  | failedUncancelled =>
    refine .cons (noticed rfl) ?_
    simpa [finishCancel, onServerCancel, violate, endWith, releases, timerRelease, readRelease,
      channelRelease, released, stock] using s.trail_releases
  | errorNoted | configNoted | ackNoted | ackCompletes => exact .single (noticed rfl)
  | configCompletes _ hc => exact .cons (noticed rfl) (.single (.said rfl (held hc)))
  | configBegins hp hc hr he =>
    have hcons := h.begun hp hc hr he
    refine .cons (noticed rfl) (.cons (.said rfl (held hc)) ?_)
    simp only [Reaction.andThen_effects, Reaction.tell_effects, List.append_nil]
    exact trail_requestNextChunk hcons rfl hc
  | ackContinues hp hc hr =>
    refine .cons (noticed rfl) ?_
    simp only [Reaction.andThen_effects, Reaction.tell_effects, List.append_nil]
    exact trail_requestNextChunk (h.acknowledged hr) hp hc
  | sent hr hc hd =>
    rw [sendChunk_endRead]
    refine .cons (.ended (k := .read) rfl (by simp [Stock.get, stock, hr])) ?_
    exact .cons (.said rfl (held hc)) (trail_requestNextChunk (h.chunkSent hr hd) (h.read _ _ hr).1 hc)
  | lost hl hc =>
    refine .cons (.ended (k := .connection) rfl (by simp [Stock.get, stock, hc])) ?_
    have htrail := ((s.trail_readRelease s.stock.connection.freed s.stock.timer).append
      (s.trail_timerRelease _ _)).append
        (Trail.take .timer (e := .armRetry ⟨s.retry.count + 1⟩ s.retryDelay) rfl rfl (.inl rfl))
    simpa [awaitRetry_eq, endRead, readRelease, timerRelease, stock, Stock.get, Stock.set,
      Tally.freed, Tally.advanced] using htrail
  | cancelLost hp hc =>
    refine .cons (.ended (k := .connection) rfl (by simp [Stock.get, stock, hc])) ?_
    have htrail := (s.trail_readRelease s.stock.connection.freed s.stock.timer).append
      (s.trail_timerRelease _ _)
    simpa [abandonCancel, endRead, readRelease, timerRelease, stock, Stock.get, Stock.set,
      Tally.freed] using htrail

/-! ### Runs -/

theorem trail_run (id : String) (total : UInt64) (delay : Nat) {is : List Input}
    (h : OpensOnce is) :
    Trail (new id total delay).stock ((new id total delay).history is)
      ((new id total delay).run is).session.stock := by
  refine run_induction id total delay
    (P := fun is r => Trail (new id total delay).stock ((new id total delay).history is)
      r.session.stock) (.nil _) ?_ h
  rintro is i _ rfl hcons htimely ih
  rw [history_concat]
  exact ih.append (trail_of_transition hcons (transition hcons htimely))

theorem shows_initial (id : String) (total : UInt64) (delay : Nat) :
    Custody.initial.Shows (new id total delay).stock where
  acquired kind := by cases kind <;> rfl
  outstanding kind := by cases kind <;> rfl
  balanced := .refl _
  exclusive := .inl rfl

/-- At every moment of a run the custody is that of some stock. -/
theorem shows_run (id : String) (total : UInt64) (delay : Nat) {is : List Input}
    (h : OpensOnce is) {os : List Occurrence} (hos : os <+: (new id total delay).history is) :
    ∃ f, Trail (new id total delay).stock os f ∧ (custody os).Shows f := by
  obtain ⟨ps, hps⟩ := hos
  have htrail := trail_run id total delay h
  rw [← hps] at htrail
  obtain ⟨f, hf, -⟩ := htrail.of_append
  exact ⟨f, hf, hf.shows (shows_initial id total delay)⟩

/-- The connection on which something is said is outstanding. -/
theorem outstanding_of_addressee (id : String) (total : UInt64) (delay : Nat) {is : List Input}
    (h : OpensOnce is) {os rest : List Occurrence} {e : Effect} {c : ConnectionId}
    (he : (new id total delay).history is = os ++ .asked e :: rest) (ha : e.addressee? = some c) :
    (⟨.connection, c.number⟩ : Resource) ∈ (custody os).outstanding := by
  have htrail := trail_run id total delay h
  rw [he] at htrail
  obtain ⟨f, hf, hrest⟩ := htrail.of_append
  cases hrest with
  | cons hc _ =>
    exact (hf.shows (shows_initial id total delay)).mem_iff.2 (hc.held_of_addressee ha)

/-- What a run does with the resources that its session takes up. -/
structure InCustody (s : Session) (is : List Input) : Prop where
  /-- At every moment, also between two effects of one input. -/
  sound : ∀ os, os <+: s.history is → (custody os).Sound
  /-- A resource is new when it is taken up, and none of its kind is outstanding. -/
  acquires : ∀ os e rest x, s.history is = os ++ .asked e :: rest → e.acquires? = some x →
    x ∉ (custody os).acquired ∧ ∀ y ∈ (custody os).outstanding, y.kind ≠ x.kind
  /-- A resource is outstanding when it is given back. -/
  releases : ∀ os e rest x, s.history is = os ++ .asked e :: rest → e.releases? = some x →
    x ∈ (custody os).outstanding
  /-- A session that has ended has nothing outstanding. -/
  ended : (s.run is).session.phase.isTerminal = true → (custody (s.history is)).outstanding = []

/-- **Every resource is taken up once and released once.** Connections, reads and timers are
numbered in the order in which they are taken up; each is given back by an effect or ends by itself,
and not both; at most one of each kind is outstanding, and no connection beside a timer. -/
theorem custody_run (id : String) (total : UInt64) (delay : Nat) {is : List Input}
    (h : OpensOnce is) : (new id total delay).InCustody is := by
  have hsound : ∀ os, os <+: (new id total delay).history is → (custody os).Sound := by
    intro os hos
    obtain ⟨f, -, hf⟩ := shows_run id total delay h hos
    exact hf.sound
  -- the custodies just before and just after an effect
  have hbetween {os : List Occurrence} {e : Effect} {rest : List Occurrence}
      (he : (new id total delay).history is = os ++ .asked e :: rest) :
      (custody os).Sound ∧ ((custody os).after (.asked e)).Sound := by
    constructor
    · exact hsound os ⟨_, he.symm⟩
    · rw [← custody_concat]
      exact hsound _ ⟨rest, by rw [he, List.append_assoc, List.singleton_append]⟩
  refine
    { sound := hsound
      acquires := fun os e rest x he ha => Custody.Sound.not_mem_of_acquires ha (hbetween he).2
      releases := ?_
      ended := ?_ }
  · intro os e rest x he hr
    have ha : e.acquires? = none := by cases e <;> first | rfl | cases hr
    exact (hbetween he).1.mem_of_releases ha hr (hbetween he).2
  · intro ht
    have hshows := (trail_run id total delay h).shows (shows_initial id total delay)
    have hidle : ((new id total delay).run is).session.phase.isIdle = true := by
      cases hp : ((new id total delay).run is).session.phase <;> simp_all [Phase.isTerminal,
        Phase.isIdle]
    obtain ⟨hc, hr, ht⟩ := (consistent_run id total delay h).idle hidle
    refine List.eq_nil_iff_forall_not_mem.2 fun x hx => ?_
    have hheld := hshows.mem_iff.1 hx
    obtain ⟨kind, n⟩ := x
    cases kind <;> simp [Stock.get, stock, hc, hr, ht] at hheld

/-- A retry and a pause leave nothing outstanding, and every number was used once. -/
theorem custody_run_of_pause :
    OpensOnce [.start, .channelOpened ⟨1⟩, .record ⟨1⟩ (.uploadConfig ⟨4, 2, 2⟩),
      .channelClosed ⟨1⟩, .retryElapsed ⟨1⟩, .channelOpened ⟨2⟩,
      .record ⟨2⟩ (.uploadConfig ⟨4, 2, 2⟩), .pause .pause, .channelClosed ⟨2⟩] ∧
    (new "upload" 10 500).InCustody [.start, .channelOpened ⟨1⟩,
      .record ⟨1⟩ (.uploadConfig ⟨4, 2, 2⟩), .channelClosed ⟨1⟩, .retryElapsed ⟨1⟩,
      .channelOpened ⟨2⟩, .record ⟨2⟩ (.uploadConfig ⟨4, 2, 2⟩), .pause .pause,
      .channelClosed ⟨2⟩] :=
  ⟨by decide, custody_run "upload" 10 500 (by decide)⟩

end Session

end ResumableUpload
