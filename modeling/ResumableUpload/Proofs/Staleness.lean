import ResumableUpload.Proofs.Resources

/-!
# News of what is over

News of a connection, a read or a timer can still be on its way when the session has given it up or
has learnt that it ended. No number is used twice, so that such news is told apart from all that
still counts, whatever else the session is told and in whatever order.

* `Session.retired` : what was given back or has ended by itself, read off the history of a run.
* `Custody.Fits` : nothing that is over is held, and no number that will still be used is over.
  Every reaction of every session keeps this (`Session.keeps_step`).
* `Session.Belated` : a list of inputs with late news slipped in between.
* `Session.undisturbed_run` : late news changes nothing.
-/

namespace ResumableUpload

/-- The resource that an input brings news of. -/
def Input.about? : Input → Option Resource
  | channelOpened conn | record conn _ | undecodable conn _ | channelClosed conn =>
    some ⟨.connection, conn.number⟩
  | chunkRead read _ => some ⟨.read, read.number⟩
  | retryElapsed token => some ⟨.timer, token.number⟩
  | start | pause _ | cancel _ => none

/-- An input that comes to a session: in its place, or slipped in late. -/
inductive Arrival
  | due (i : Input)
  | late (i : Input)

namespace Arrival

/-- The input, late or not. -/
def input : Arrival → Input
  | due i | late i => i

/-- The input unless it is late. -/
def due? : Arrival → Option Input
  | due i => some i
  | late _ => none

end Arrival

/-- All inputs, the late ones included. -/
def arrived (as : List Arrival) : List Input := as.map Arrival.input

/-- The inputs without the late ones. -/
def expected (as : List Arrival) : List Input := as.filterMap Arrival.due?

namespace Session

/-- The resources that were given back or have ended by themselves in a run. -/
def retired (s : Session) (is : List Input) : List Resource := (custody (s.history is)).released

/-- Whatever comes late brings news of a resource that was retired before it came. -/
def Belated (s : Session) (seen : List Input) : List Arrival → Prop
  | [] => True
  | .due i :: as => s.Belated (seen ++ [i]) as
  | .late i :: as => i.about?.any (· ∈ s.retired seen) = true ∧ s.Belated seen as

instance decidableBelated (s : Session) : ∀ seen as, Decidable (s.Belated seen as)
  | _, [] => isTrue trivial
  | seen, .due i :: as => decidableBelated s (seen ++ [i]) as
  | seen, .late _ :: as => @instDecidableAnd _ _ _ (decidableBelated s seen as)

end Session

/-! ### What is over stays over -/

namespace Custody

/-- What the custody says is over, is over for the stock: it was taken up before, and is neither
held nor outstanding. -/
structure Fits (k : Custody) (f : Stock) : Prop where
  held_le : ∀ kind n, (f.get kind).held = some n → n ≤ (f.get kind).taken
  outstanding_le : ∀ x ∈ k.outstanding, x.number ≤ (f.get x.kind).taken
  released_le : ∀ x ∈ k.released, x.number ≤ (f.get x.kind).taken
  not_held : ∀ x ∈ k.released, (f.get x.kind).held ≠ some x.number
  not_outstanding : ∀ x ∈ k.released, x ∉ k.outstanding
  nodup : k.outstanding.Nodup

namespace Fits

variable {k : Custody} {f : Stock}

theorem taken_le_set {kind : Resource.Kind} {n m : Nat} (l : Resource.Kind)
    (hm : (f.get kind).taken ≤ m) (hn : n ≤ (f.get l).taken) (held : Option Nat) :
    n ≤ ((f.set kind ⟨held, m⟩).get l).taken := by
  rw [Stock.get_set]
  split
  · subst l
    exact Nat.le_trans hn hm
  · exact hn

/-- The next number of a kind is beyond all that were used. -/
theorem take (h : k.Fits f) (kind : Resource.Kind) :
    (k.take ⟨kind, (f.get kind).taken + 1⟩).Fits (f.set kind (f.get kind).advanced) where
  held_le l n hn := by
    rw [Stock.get_set] at hn ⊢
    split at hn
    · rename_i hl
      simp only [hl, ↓reduceIte, Tally.advanced] at hn ⊢
      obtain rfl := Option.some.inj hn
      exact Nat.le_refl _
    · rename_i hl
      simpa only [hl, ↓reduceIte] using h.held_le l n hn
  outstanding_le x hx := by
    rcases List.mem_append.1 hx with hx | hx
    · exact taken_le_set x.kind (Nat.le_succ _) (h.outstanding_le x hx) _
    · obtain rfl := List.mem_singleton.1 hx
      simp [Stock.get_set, Tally.advanced]
  released_le x hx := taken_le_set x.kind (Nat.le_succ _) (h.released_le x hx) _
  not_held x hx := by
    have hle := h.released_le x hx
    rw [Stock.get_set]
    split
    · rename_i hkind
      rw [← hkind] at hle
      simp only [Tally.advanced, ne_eq, Option.some.injEq]
      omega
    · exact h.not_held x hx
  not_outstanding x hx hmem := by
    rcases List.mem_append.1 hmem with hmem | hmem
    · exact h.not_outstanding x hx hmem
    · obtain rfl := List.mem_singleton.1 hmem
      have := h.released_le _ hx
      simp only at this
      omega
  nodup := by
    refine List.nodup_append'.2 ⟨h.nodup, List.nodup_singleton _, fun x hx hmem => ?_⟩
    obtain rfl := List.mem_singleton.1 hmem
    have := h.outstanding_le _ hx
    simp only at this
    omega

theorem freed (h : k.Fits f) (kind : Resource.Kind) : k.Fits (f.set kind (f.get kind).freed) where
  held_le l n hn := by
    rw [Stock.get_set] at hn ⊢
    split at hn
    · cases hn
    · rename_i hl
      simpa only [hl, ↓reduceIte] using h.held_le l n hn
  outstanding_le x hx := taken_le_set x.kind (Nat.le_refl _) (h.outstanding_le x hx) _
  released_le x hx := taken_le_set x.kind (Nat.le_refl _) (h.released_le x hx) _
  not_held x hx := by
    rw [Stock.get_set]
    split
    · simp [Tally.freed]
    · exact h.not_held x hx
  not_outstanding := h.not_outstanding
  nodup := h.nodup

theorem release (h : k.Fits f) {x : Resource} (hle : x.number ≤ (f.get x.kind).taken)
    (hheld : (f.get x.kind).held ≠ some x.number) : (k.release x).Fits f where
  held_le := h.held_le
  outstanding_le y hy := h.outstanding_le y (List.mem_of_mem_erase hy)
  released_le y hy := by
    rcases List.mem_append.1 hy with hy | hy
    · exact h.released_le y hy
    · obtain rfl := List.mem_singleton.1 hy
      exact hle
  not_held y hy := by
    rcases List.mem_append.1 hy with hy | hy
    · exact h.not_held y hy
    · obtain rfl := List.mem_singleton.1 hy
      exact hheld
  not_outstanding y hy hmem := by
    rcases List.mem_append.1 hy with hy | hy
    · exact h.not_outstanding y hy (List.mem_of_mem_erase hmem)
    · obtain rfl := List.mem_singleton.1 hy
      exact h.nodup.not_mem_erase hmem
  nodup := h.nodup.erase x

/-- News of something that is not held, or is not held any more, may retire it. -/
theorem given (h : k.Fits f) {i : Input}
    (hi : ∀ x, i.ends? = some x → (f.get x.kind).held ≠ some x.number) :
    (k.after (.given i)).Fits f := by
  cases hx : i.ends? with
  | none =>
    simp only [Custody.after, hx]
    exact h
  | some x =>
    simp only [Custody.after, hx]
    split
    · rename_i hmem
      exact h.release (h.outstanding_le x hmem) (hi x hx)
    · exact h

end Fits

end Custody

/-- What happens leads from one stock to another in such a way that nothing which is over comes
back. -/
def Keeps (f : Stock) (os : List Occurrence) (g : Stock) : Prop :=
  ∀ k : Custody, k.Fits f → (os.foldl Custody.after k).Fits g

namespace Keeps

variable {f g h : Stock} {os ps : List Occurrence}

theorem nil (f : Stock) : Keeps f [] f := fun _ hk => hk

theorem append (ho : Keeps f os g) (hp : Keeps g ps h) : Keeps f (os ++ ps) h := by
  intro k hk
  rw [List.foldl_append]
  exact hp _ (ho k hk)

theorem cons {o : Occurrence} (ho : Keeps f [o] g) (hp : Keeps g ps h) : Keeps f (o :: ps) h :=
  ho.append hp

/-- The next resource of a kind is taken up, whether or not one is held. -/
theorem taken (kind : Resource.Kind) {e : Effect}
    (he : e.acquires? = some ⟨kind, (f.get kind).taken + 1⟩) :
    Keeps f [.asked e] (f.set kind (f.get kind).advanced) := by
  intro k hk
  simp only [List.foldl_cons, List.foldl_nil, Custody.after, he]
  exact hk.take kind

/-- Nothing that is held has ended. -/
theorem noticed {i : Input} (hi : ∀ x, i.ends? = some x → (f.get x.kind).held ≠ some x.number) :
    Keeps f [.given i] f := fun _ hk => hk.given hi

/-- The resource that is held has ended. -/
theorem ended (kind : Resource.Kind) {i : Input} {n : Nat} (hi : i.ends? = some ⟨kind, n⟩) :
    Keeps f [.given i] (f.set kind (f.get kind).freed) := by
  intro k hk
  refine (hk.freed kind).given fun x hx => ?_
  obtain rfl : _ = x := Option.some.inj (hi.symm.trans hx)
  simp [Stock.get_set, Tally.freed]

end Keeps

/-- A change that a consistent session makes is one of these. -/
theorem Change.keeps {f g : Stock} {o : Occurrence} (hc : Change f o g) : Keeps f [o] g := by
  cases hc with
  | taken he => exact .taken _ he
  | @released e kind n ha hr hf =>
    intro k hk
    simp only [List.foldl_cons, List.foldl_nil, Custody.after, ha, hr]
    refine (hk.freed kind).release ?_ (by simp [Stock.get_set, Tally.freed])
    simpa [Stock.get_set, Tally.freed] using hk.held_le kind n hf
  | @said e conn he =>
    intro k hk
    have hnone : e.acquires? = none ∧ e.releases? = none := by
      cases e <;> first | exact ⟨rfl, rfl⟩ | cases he
    simpa only [List.foldl_cons, List.foldl_nil, Custody.after, hnone.1, hnone.2] using hk
  | ended hi => exact .ended _ hi
  | noticed hi => exact .noticed hi

theorem Trail.keeps {f g : Stock} {os : List Occurrence} (ht : Trail f os g) : Keeps f os g := by
  induction ht with
  | nil f => exact .nil f
  | cons hc _ ih => exact hc.keeps.cons ih

/-! ### Every session keeps it

Nothing is assumed of the session here, consistent or not. -/

namespace Session

open Reaction (quiet ask tell)
open Wire (ServerRecord UploadParams)

/-- What the session asks for in this reaction leads from its stock to that of the session
afterwards. -/
def Follows (s : Session) (r : Reaction) : Prop :=
  Keeps s.stock (r.effects.map .asked) r.session.stock

namespace Follows

variable {s t : Session} {r : Reaction} {f : Session → Reaction}

/-- Only what is held counts, and how many were taken up. -/
theorem of_stock (ht : t.stock = s.stock) (hr : t.Follows r) : s.Follows r := by
  rw [Follows, ← ht]
  exact hr

theorem quiet : s.Follows (quiet s) := Keeps.nil _

theorem tell (h : Hook) : s.Follows (tell h s) := Keeps.nil _

theorem andThen (hr : s.Follows r) (hf : r.session.Follows (f r.session)) :
    s.Follows (r.andThen f) := by
  unfold Follows
  rw [Reaction.andThen_effects, List.map_append]
  exact hr.append hf

/-- Something is said on the channel that is held. -/
theorem said {e : Effect} {conn : ConnectionId} {o : Bool} (he : e.addressee? = some conn)
    (hc : s.channel = some ⟨conn, o⟩) : Keeps s.stock [.asked e] s.stock :=
  (Change.said he (by simp [stock, hc])).keeps

theorem shutDown : s.Follows s.shutDown := by
  unfold Follows
  rw [shutDown_effects, shutDown_session]
  exact s.trail_releases.keeps

/-- All that is held is given back, and the observer is told. -/
theorem ending (ht : t.stock = s.stock) (h : Hook) :
    s.Follows (t.shutDown.andThen (Reaction.tell h)) :=
  of_stock ht (shutDown.andThen (tell h))

end Follows

variable (s : Session)

theorem follows_start : s.Follows s.start := by
  by_cases hquiet : (s.phase.isTerminal || s.phase == .cancelling || s.paused) = true
  · rw [start, if_pos hquiet]
    exact .quiet
  · simp only [Bool.or_eq_true, beq_iff_eq, not_or, Bool.not_eq_true] at hquiet
    obtain ⟨⟨ht, hc⟩, hp⟩ := hquiet
    rw [start_eq s ht hc hp, Follows, List.map_append]
    exact (s.trail_releases.append (Trail.take .connection rfl rfl (.inr rfl))).keeps

theorem follows_suspend : s.Follows s.suspend := by
  rw [suspend_eq, Follows]
  simp only [List.map_append]
  exact ((((s.trail_readRelease _ _).append (s.trail_timerRelease _ _)).append
    (s.trail_goodbye _ _)).append (s.trail_channelRelease _ _)).keeps

theorem follows_pause (mode : PauseMode) : s.Follows (s.pause mode) := by
  unfold pause
  split
  · exact .quiet
  · simp only
    split
    · exact .quiet
    · split
      · exact s.follows_suspend
      · exact follows_start { s with paused := false }

theorem follows_endUnconfirmed (reason : Option String) (e : SessionError) :
    s.Follows (s.endUnconfirmed reason e) := by
  rw [Follows, endUnconfirmed_effects, endUnconfirmed_session]
  exact Keeps.nil _

theorem follows_beginCancel (reason : String) (p : Phase) : s.Follows (s.beginCancel reason p) := by
  cases ho : s.openConnection with
  | some conn =>
    have hc := openConnection_eq_some_iff.1 ho
    rw [beginCancel_of_open s ho, Follows]
    simp only [List.map_append]
    exact ((s.trail_timerRelease _ _).append (s.trail_readRelease _ _)).keeps.append
      (Change.said rfl (by simp [hc])).keeps
  | none =>
    rw [beginCancel_of_not_open s ho]
    exact Follows.shutDown.andThen (follows_endUnconfirmed _ _ _)

theorem follows_cancel (reason : String) : s.Follows (s.cancel reason) := by
  unfold cancel
  split
  · exact .quiet
  · exact s.follows_beginCancel reason s.phase

theorem follows_failWith (e : SessionError) (reason : String) :
    s.Follows (s.failWith e reason) := by
  unfold failWith
  split
  · exact .of_stock rfl (.tell .error)
  · refine .of_stock rfl (Follows.andThen (.tell .error) ?_)
    split
    · exact follows_beginCancel _ _ _
    · exact .shutDown

theorem follows_onReadFailure (failure : ReadFailure) : s.Follows (s.onReadFailure failure) := by
  unfold onReadFailure
  split
  · exact .quiet
  · exact s.follows_failWith _ _

theorem follows_violate (v : Violation) : s.Follows (s.violate v) := by
  unfold violate
  exact .ending (by rfl) _

theorem follows_onServerCancel (reason : String) : s.Follows (s.onServerCancel reason) := by
  unfold onServerCancel
  exact .ending (by rfl) _

theorem follows_finishCancel : s.Follows s.finishCancel := by
  unfold finishCancel
  exact .ending (by rfl) _

theorem follows_requestNextChunk : s.Follows s.requestNextChunk := by
  rcases s.requestNextChunk_cases with h | ⟨w, -, -, -, -, h⟩ <;> rw [h]
  · exact .quiet
  · exact Keeps.taken .read rfl

theorem follows_onUploadConfig (params : UploadParams) : s.Follows (s.onUploadConfig params) := by
  by_cases hlt : s.total < params.resumeOffset
  · rw [onUploadConfig, if_pos hlt]
    exact s.follows_violate _
  · rw [onUploadConfig_eq (UInt64.not_lt.1 hlt)]
    split
    · exact .of_stock rfl (.tell .progress)
    · split
      · exact .of_stock rfl .quiet
      · rename_i conn ho
        have hc := openConnection_eq_some_iff.1 ho
        refine Follows.andThen (s := s) ?_ (.tell _)
        by_cases he : params.resumeOffset = s.total
        · rw [beginTransfer_of_eq (s.configured params) he]
          exact Follows.said rfl hc
        · rw [beginTransfer_of_ne (s.configured params) he]
          exact Follows.andThen (s := s) (Follows.said rfl hc) (follows_requestNextChunk _)

theorem follows_afterAck : s.Follows s.afterAck := by
  unfold afterAck
  split
  · split
    · exact .of_stock rfl .quiet
    · exact .quiet
  · exact s.follows_requestNextChunk

theorem follows_onChunkAck (size : UInt64) : s.Follows (s.onChunkAck size) := by
  unfold onChunkAck
  split
  · exact s.follows_violate _
  · split
    · exact s.follows_violate _
    · exact .of_stock (by rfl)
        ((Follows.quiet.andThen (follows_afterAck _)).andThen (.tell .progress))

theorem follows_dispatch (handler : Phase) (r : ServerRecord) :
    s.Follows (s.dispatch handler r) := by
  cases handler with
  | handshaking =>
    cases r with
    | uploadConfig params => exact s.follows_onUploadConfig params
    | error code message => exact s.follows_failWith _ _
    | cancel reason => exact s.follows_onServerCancel reason
    | chunkAck _ | allDone | cancelAck => exact s.follows_violate _
  | transferring =>
    cases r with
    | chunkAck size => exact s.follows_onChunkAck size
    | error code message => exact s.follows_failWith _ _
    | cancel reason => exact s.follows_onServerCancel reason
    | uploadConfig _ | allDone | cancelAck => exact s.follows_violate _
  | awaitingCompletion =>
    cases r with
    | allDone | error _ _ => exact .ending (by rfl) _
    | cancel reason => exact s.follows_onServerCancel reason
    | uploadConfig _ | chunkAck _ | cancelAck => exact s.follows_violate _
  | _ => exact .quiet

theorem follows_onRecord (conn : ConnectionId) (r : ServerRecord) :
    s.Follows (s.onRecord conn r) := by
  unfold onRecord
  split
  · split
    · exact s.follows_finishCancel
    · exact s.follows_dispatch s.handler r
  · exact .quiet

theorem follows_onUndecodable (conn : ConnectionId) (detail : String) :
    s.Follows (s.onUndecodable conn detail) := by
  unfold onUndecodable
  split
  · exact s.follows_violate _
  · exact .quiet

theorem follows_onChannelOpened (conn : ConnectionId) : s.Follows (s.onChannelOpened conn) := by
  unfold onChannelOpened
  split
  · rename_i hh
    obtain ⟨⟨id, o⟩, hc, rfl⟩ := holds_iff.1 hh
    have hstock : stock { s with channel := some ⟨id, true⟩, phase := .handshaking } = s.stock := by
      simp [stock, hc]
    rw [Follows, Reaction.ask_session, hstock]
    exact Follows.said rfl hc
  · exact .quiet

/-- The answer to the pending read finds that read ended. -/
theorem follows_onRangeRead (range : ByteRange) (result : Except Source.ReadError ByteArray) :
    s.endRead.Follows (s.endRead.onRangeRead range result) := by
  unfold onRangeRead
  split
  · exact follows_onReadFailure _ _
  · split
    · split
      · split
        · rename_i conn ho
          rw [sendChunk_endRead, Follows, List.map_cons]
          exact (Follows.said (s := s.endRead) rfl (openConnection_eq_some_iff.1 ho)).cons
            (follows_requestNextChunk (s.chunkSent _))
        · exact .quiet
      · exact .quiet
    · exact follows_onReadFailure _ _

theorem follows_awaitRetry (hc : s.channel = none) : s.Follows s.awaitRetry := by
  rw [awaitRetry_eq, Follows, List.map_append]
  exact ((s.trail_timerRelease _ _).append
    (Trail.take .timer rfl rfl (.inl (by simp [Stock.set, stock, hc])))).keeps

theorem follows_abandonCancel : s.Follows s.abandonCancel := by
  refine .of_stock rfl (Follows.andThen ?_ (follows_endUnconfirmed _ _ _))
  rw [Follows, disarmRetry_effects, disarmRetry_session]
  exact (trail_timerRelease _ _ _).keeps

/-- The closing of the channel finds it gone. -/
theorem follows_onChannelClosed {conn : ConnectionId} (hh : s.holds conn = true) :
    Follows { s with channel := none } (s.onChannelClosed conn) := by
  rw [onChannelClosed, if_pos hh]
  refine Follows.andThen ?_ ?_
  · rw [Follows, abortRead_effects, abortRead_session]
    exact (trail_readRelease _ _ _).keeps
  · rw [abortRead_session]
    split
    · exact follows_abandonCancel _
    · exact follows_awaitRetry _ rfl
    · exact follows_awaitRetry _ rfl
    · exact follows_awaitRetry _ rfl
    · exact follows_awaitRetry _ rfl
    · exact .tell .progress

/-! ### Steps and runs -/

variable {s} {i : Input} {x : Resource}

/-- News of what is not held is ignored. -/
theorem ignores_of_not_held (hx : i.about? = some x)
    (hheld : (s.stock.get x.kind).held ≠ some x.number) : s.Ignores i := by
  cases i with
  | channelOpened conn | channelClosed conn =>
    obtain rfl := Option.some.inj hx
    refine Bool.eq_false_iff.2 fun hh => hheld ?_
    obtain ⟨c, hc, rfl⟩ := holds_iff.1 hh
    simp [Stock.get, stock, hc]
  | record conn _ | undecodable conn _ =>
    obtain rfl := Option.some.inj hx
    refine Bool.eq_false_iff.2 fun ho => hheld ?_
    simp [Stock.get, stock, isOpen_iff.1 ho]
  | chunkRead read result =>
    obtain rfl := Option.some.inj hx
    intro range hr
    exact hheld (by simp [Stock.get, stock, hr])
  | retryElapsed token =>
    obtain rfl := Option.some.inj hx
    intro ht
    exact hheld (by simp [Stock.get, stock, ht])
  | start | pause _ | cancel _ => cases hx

/-- News that is ignored has no effect, whatever the session. -/
theorem step_of_ignores (hx : i.about? = some x) (hi : s.Ignores i) : s.step i = quiet s := by
  cases i with
  | channelOpened conn => simp [step, onChannelOpened, show s.holds conn = false from hi]
  | record conn r => simp [step, onRecord, show s.isOpen conn = false from hi]
  | undecodable conn detail => simp [step, onUndecodable, show s.isOpen conn = false from hi]
  | channelClosed conn => simp [step, onChannelClosed, show s.holds conn = false from hi]
  | chunkRead read result =>
    cases hp : s.pendingRead with
    | none => simp [step, onChunkRead, hp]
    | some p =>
      obtain ⟨pending, range⟩ := p
      have hne : pending ≠ read := by
        rintro rfl
        exact hi range hp
      simp [step, onChunkRead, hp, hne]
  | retryElapsed token => simp [step, onRetryElapsed, Retry.fire?_eq_none_iff.2 hi]
  | start | pause _ | cancel _ => cases hx

variable (s)

/-- **Nothing that is over comes back**, whatever a session is told. -/
theorem keeps_step (i : Input) :
    Keeps s.stock (.given i :: (s.step i).effects.map .asked) (s.step i).session.stock := by
  -- an input that ends nothing leaves the stock to what is asked for
  have reacts {i : Input} {r : Reaction} (hi : i.ends? = none) (hr : s.Follows r) :
      Keeps s.stock (.given i :: r.effects.map .asked) r.session.stock :=
    (Keeps.noticed fun x hx => by simp [hi] at hx).cons hr
  -- and so does one that is ignored
  have ignored {i : Input} {x : Resource} (hx : i.about? = some x) (hi : s.Ignores i) :
      Keeps s.stock (.given i :: (s.step i).effects.map .asked) (s.step i).session.stock := by
    rw [step_of_ignores hx hi]
    exact (change_of_ignores hi).keeps
  cases i with
  | start => exact reacts rfl s.follows_start
  | pause mode => exact reacts rfl (s.follows_pause mode)
  | cancel reason => exact reacts rfl (s.follows_cancel reason)
  | channelOpened conn => exact reacts rfl (s.follows_onChannelOpened conn)
  | record conn r => exact reacts rfl (s.follows_onRecord conn r)
  | undecodable conn detail => exact reacts rfl (s.follows_onUndecodable conn detail)
  | channelClosed conn =>
    cases hh : s.holds conn with
    | true => exact (Keeps.ended .connection rfl).cons (s.follows_onChannelClosed hh)
    | false => exact ignored rfl hh
  | chunkRead read result =>
    by_cases hr : ∃ range, s.pendingRead = some (read, range)
    · obtain ⟨range, hr⟩ := hr
      rw [show s.step (.chunkRead read result) = s.endRead.onRangeRead range result by
        simp [step, onChunkRead, hr]]
      exact (Keeps.ended .read rfl).cons (s.follows_onRangeRead range result)
    · exact ignored rfl (not_exists.1 hr)
  | retryElapsed token =>
    by_cases ht : s.retry.armed = some token
    · rw [show s.step (.retryElapsed token) = start { s with retry := ⟨none, s.retry.count⟩ } by
        simp [step, onRetryElapsed, Retry.fire?, ht]]
      exact (Keeps.ended .timer rfl).cons
        (follows_start { s with retry := ⟨none, s.retry.count⟩ })
    · exact ignored rfl ht

theorem fits_new (id : String) (total : UInt64) (delay : Nat) :
    Custody.initial.Fits (new id total delay).stock where
  held_le kind n hn := by cases kind <;> cases hn
  outstanding_le _ hx := by cases hx
  released_le _ hx := by cases hx
  not_held _ hx := by cases hx
  not_outstanding _ hx := by cases hx
  nodup := .nil

/-- After every run the custody fits what the session holds. -/
theorem fits_run (id : String) (total : UInt64) (delay : Nat) (is : List Input) :
    (custody ((new id total delay).history is)).Fits
      ((new id total delay).run is).session.stock := by
  induction is using List.reverseRecOn with
  | nil => exact fits_new id total delay
  | append_singleton is i ih =>
    rw [history_concat, run_concat, custody, List.foldl_append]
    exact keeps_step _ i _ ih

/-- The number of what a run has taken up has been counted. -/
theorem number_le_of_acquires (id : String) (total : UInt64) (delay : Nat) {is : List Input}
    {e : Effect} {x : Resource} (he : e ∈ ((new id total delay).run is).effects)
    (hx : e.acquires? = some x) :
    x.number ≤ (((new id total delay).run is).session.stock.get x.kind).taken := by
  have hfits := fits_run id total delay is
  rcases Custody.released_or_outstanding (Custody.mem_acquired (asked_mem_history he) hx) with h | h
  · exact hfits.released_le x h
  · exact hfits.outstanding_le x h

end Session

/-! ### Late news -/

theorem arrived_concat (as : List Arrival) (a : Arrival) :
    arrived (as ++ [a]) = arrived as ++ [a.input] := by
  simp [arrived]

theorem expected_concat_due (as : List Arrival) (i : Input) :
    expected (as ++ [.due i]) = expected as ++ [i] := by
  simp [expected, Arrival.due?]

theorem expected_concat_late (as : List Arrival) (i : Input) :
    expected (as ++ [.late i]) = expected as := by
  simp [expected, Arrival.due?]

namespace Session

open Reaction (quiet)

variable {s : Session} {seen : List Input} {as bs : List Arrival}

theorem Belated.of_append (h : s.Belated seen (as ++ bs)) : s.Belated seen as := by
  induction as generalizing seen with
  | nil => trivial
  | cons a as ih =>
    cases a with
    | due i => exact ih h
    | late i => exact ⟨h.1, ih h.2⟩

/-- What comes late brings news of something that was retired by what came in its place before. -/
theorem Belated.retired {i : Input} (h : s.Belated seen (as ++ [.late i])) :
    ∃ x, i.about? = some x ∧ x ∈ s.retired (seen ++ expected as) := by
  induction as generalizing seen with
  | nil =>
    obtain ⟨x, hx, hmem⟩ := (Option.any_eq_true _ _).1 h.1
    exact ⟨x, hx, by simpa [expected] using hmem⟩
  | cons a as ih =>
    cases a with
    | due j => simpa [expected, Arrival.due?] using ih h
    | late j => exact ih h.2

/-- Late news of what is over is lost on the session. -/
theorem step_of_retired (id : String) (total : UInt64) (delay : Nat) {is : List Input} {i : Input}
    {x : Resource} (hx : i.about? = some x) (hmem : x ∈ (new id total delay).retired is) :
    ((new id total delay).run is).session.step i = quiet ((new id total delay).run is).session :=
  step_of_ignores hx (ignores_of_not_held hx ((fits_run id total delay is).not_held x hmem))

/-- Late news of what is over retires nothing. -/
theorem custody_of_retired (id : String) (total : UInt64) (delay : Nat) {is : List Input}
    {i : Input} {x : Resource} (hx : i.about? = some x)
    (hmem : x ∈ (new id total delay).retired is) :
    (custody ((new id total delay).history is)).after (.given i) =
      custody ((new id total delay).history is) := by
  have hout := (fits_run id total delay is).not_outstanding x hmem
  cases he : i.ends? with
  | none => simp only [Custody.after, he]
  | some y =>
    -- an input that ends something brings news of just that
    obtain rfl : y = x := by
      cases i <;> simp_all [Input.ends?, Input.about?]
    simp only [Custody.after, he, hout, ↓reduceIte]

/-- What late news does to a run: nothing. -/
structure Undisturbed (s : Session) (as : List Arrival) : Prop where
  /-- At every moment the session is what it would be without the late news, and has asked for and
  told the same. -/
  run_eq : ∀ before, before <+: as → s.run (arrived before) = s.run (expected before)
  /-- Whatever comes in its place is answered as without the late news. -/
  due : ∀ before i, before ++ [.due i] <+: as →
    (s.run (arrived before)).session.step i = (s.run (expected before)).session.step i
  /-- Whatever comes late is not answered. -/
  late : ∀ before i, before ++ [.late i] <+: as →
    (s.run (arrived before)).session.step i = quiet (s.run (arrived before)).session
  /-- Nothing is retired earlier or later than without the late news. -/
  retired_eq : ∀ before, before <+: as → s.retired (arrived before) = s.retired (expected before)

/-- The run and its custody are the same with and without the late news. -/
theorem run_arrived (id : String) (total : UInt64) (delay : Nat)
    (h : (new id total delay).Belated [] as) :
    (new id total delay).run (arrived as) = (new id total delay).run (expected as) ∧
      custody ((new id total delay).history (arrived as)) =
        custody ((new id total delay).history (expected as)) := by
  induction as using List.reverseRecOn with
  | nil => exact ⟨rfl, rfl⟩
  | append_singleton as a ih =>
    obtain ⟨hrun, hcustody⟩ := ih h.of_append
    rw [arrived_concat, run_concat, history_concat, hrun]
    cases a with
    | due i =>
      rw [expected_concat_due, run_concat, history_concat]
      refine ⟨rfl, ?_⟩
      rw [custody, custody, List.foldl_append, List.foldl_append]
      exact congrArg (List.foldl _ · _) hcustody
    | late i =>
      obtain ⟨x, hx, hmem⟩ := h.retired
      rw [List.nil_append] at hmem
      have hquiet := step_of_retired id total delay hx hmem
      rw [expected_concat_late]
      constructor
      · exact Reaction.andThen_of_quiet hquiet
      · change custody (_ ++ .given i :: List.map _ (step _ i).effects) = _
        rw [hquiet]
        change custody (_ ++ [.given i]) = _
        rw [custody_concat, hcustody]
        exact custody_of_retired id total delay hx hmem

/-- **Late news changes nothing.** However much news of connections, reads and timers that are over
is slipped into a run, in any order and at any time, the session goes on as without it: it asks for
the same, tells the same and shows the same. -/
theorem undisturbed_run (id : String) (total : UInt64) (delay : Nat) {as : List Arrival}
    (h : (new id total delay).Belated [] as) : (new id total delay).Undisturbed as := by
  have hbelated {before : List Arrival} (hpre : before <+: as) :
      (new id total delay).Belated [] before := by
    obtain ⟨rest, rfl⟩ := hpre
    exact h.of_append
  refine
    { run_eq := fun before hpre => (run_arrived id total delay (hbelated hpre)).1
      due := fun before i hpre => ?_
      late := fun before i hpre => ?_
      retired_eq := fun before hpre =>
        congrArg Custody.released (run_arrived id total delay (hbelated hpre)).2 }
  · rw [(run_arrived id total delay (hbelated hpre).of_append).1]
  · obtain ⟨x, hx, hmem⟩ := (hbelated hpre).retired
    rw [(run_arrived id total delay (hbelated hpre).of_append).1]
    exact step_of_retired id total delay hx hmem

/-- The first read is answered again and its channel reported open again while the second one is
pending; the channel is lost, and both bring news once more, before and after the timer that was
armed for a new attempt expires, and so does that timer. -/
theorem undisturbed_run_of_lost_channel :
    (new "upload" 10 500).Belated []
      [.due .start, .due (.channelOpened ⟨1⟩), .due (.record ⟨1⟩ (.uploadConfig ⟨4, 0, 2⟩)),
        .due (.chunkRead ⟨1⟩ (.ok ⟨#[0, 1, 2, 3]⟩)), .late (.chunkRead ⟨1⟩ (.ok ⟨#[4]⟩)),
        .due (.channelOpened ⟨1⟩), .due (.channelClosed ⟨1⟩),
        .late (.record ⟨1⟩ .allDone), .late (.chunkRead ⟨2⟩ (.error (.outOfBounds ⟨4, 4⟩ 2))),
        .due (.retryElapsed ⟨1⟩), .late (.retryElapsed ⟨1⟩), .late (.undecodable ⟨1⟩ "no record"),
        .due (.channelOpened ⟨2⟩)] ∧
    (new "upload" 10 500).Undisturbed
      [.due .start, .due (.channelOpened ⟨1⟩), .due (.record ⟨1⟩ (.uploadConfig ⟨4, 0, 2⟩)),
        .due (.chunkRead ⟨1⟩ (.ok ⟨#[0, 1, 2, 3]⟩)), .late (.chunkRead ⟨1⟩ (.ok ⟨#[4]⟩)),
        .due (.channelOpened ⟨1⟩), .due (.channelClosed ⟨1⟩),
        .late (.record ⟨1⟩ .allDone), .late (.chunkRead ⟨2⟩ (.error (.outOfBounds ⟨4, 4⟩ 2))),
        .due (.retryElapsed ⟨1⟩), .late (.retryElapsed ⟨1⟩), .late (.undecodable ⟨1⟩ "no record"),
        .due (.channelOpened ⟨2⟩)] :=
  ⟨by decide, undisturbed_run "upload" 10 500 (by decide)⟩

end Session

end ResumableUpload
