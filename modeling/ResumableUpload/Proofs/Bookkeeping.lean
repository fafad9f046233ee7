import ResumableUpload.Proofs.Absorption
import ResumableUpload.Proofs.Resources
import ResumableUpload.Uploader.Basic

/-!
# The tasks of an uploader are those of its session

An uploader knows the tasks that it has begun by the names that its session gave them. A task leaves
the books by one of two ways: it reports that it has ended, or the session gives it up, and the
report of a task that was given up may still be on its way. The books follow the session all the
same.

* `Session.orders` : what a session asks for, and whether there is a way back for results.
* `Uploader.history` : what an uploader is told and what it carries out.
* `Uploader.Mirrors` : the books show which tasks are at work, and of each kind that is the one
  which the session holds, if it could be begun. This is kept by every change of what the session
  holds (`Uploader.Mirrors.carryOut`, `Uploader.Mirrors.feed`).
* `Uploader.Treats` : what becomes of one effect. A task is begun and entered exactly if there is a
  way back for its results, and what is said on a channel is passed on exactly if that was so when
  the channel was asked for.
* `Uploader.keeps_books` : the books of an uploader follow its session along every run.
-/

namespace ResumableUpload

/-- What a session asks for, each with whether there is a way back for results by then. -/
def Session.orders (s : Session) : List (Bool × Input) → List (Bool × Effect)
  | [] => []
  | (wayBack, i) :: is => (s.step i).effects.map (wayBack, ·) ++ (s.step i).session.orders is

theorem Session.orders_concat (s : Session) (is : List (Bool × Input)) (wayBack : Bool)
    (i : Input) : s.orders (is ++ [(wayBack, i)]) =
      s.orders is ++ ((s.run (is.map (·.2))).session.step i).effects.map (wayBack, ·) := by
  induction is generalizing s with
  | nil => exact List.append_nil _
  | cons j is ih =>
    rw [List.cons_append, orders, orders, ih, List.append_assoc]
    rfl

/-- What is said on a channel changes no custody. -/
theorem Custody.after_of_addressee {k : Custody} {e : Effect} {conn : ConnectionId}
    (h : e.addressee? = some conn) : k.after (.asked e) = k := by
  cases e <;> first | rfl | cases h

namespace Uploader

variable {u : Uploader} {wayBack : Bool} {i : Input} {e : Effect} {x : Resource}

/-! ### The books, kind by kind -/

/-- Different things have different numbers, so that the number can be taken out in its place. -/
theorem map_filter_ne {α : Type} [DecidableEq α] {f : α → Nat} (hf : f.Injective) (xs : List α)
    (x : α) : (xs.filter (· ≠ x)).map f = (xs.map f).filter (· ≠ f x) := by
  rw [List.filter_map]
  refine congrArg (List.map f) (List.filter_congr fun y _ => ?_)
  simp [hf.eq_iff]

/-- The numbers of the tasks of one kind. -/
def numbers (u : Uploader) : Resource.Kind → List Nat
  | .connection => u.channels.map (·.number)
  | .read => u.reads.map (·.number)
  | .timer => u.timers.map (·.number)

theorem injective_number :
    (ConnectionId.number).Injective ∧ (ReadId.number).Injective ∧ (RetryToken.number).Injective :=
  ⟨fun ⟨_⟩ ⟨_⟩ => congrArg _, fun ⟨_⟩ ⟨_⟩ => congrArg _, fun ⟨_⟩ ⟨_⟩ => congrArg _⟩

/-- Takes the task of one kind and number out of a list of numbers of a kind. -/
def strike (x : Resource) (kind : Resource.Kind) (ns : List Nat) : List Nat :=
  if x.kind = kind then ns.filter (· ≠ x.number) else ns

theorem strike_of_not_mem {kind l : Resource.Kind} {n : Nat} (hn : n ∉ u.numbers kind) :
    strike ⟨kind, n⟩ l (u.numbers l) = u.numbers l := by
  rw [strike]
  split
  · rename_i hl
    obtain rfl : kind = l := hl
    refine List.filter_eq_self.2 fun m hm => decide_eq_true ?_
    rintro rfl
    exact hn hm
  · rfl

theorem numbers_forget_of_ends (h : i.ends? = some x) (kind : Resource.Kind) :
    (u.forget i).numbers kind = strike x kind (u.numbers kind) := by
  obtain ⟨hconn, hread, htimer⟩ := injective_number
  cases i <;> simp only [Input.ends?, Option.some.injEq, reduceCtorEq] at h <;> subst h <;>
    cases kind <;> first | rfl | exact map_filter_ne ‹_› _ _

theorem forget_of_ends (h : i.ends? = none) : u.forget i = u := by
  cases i <;> first | rfl | cases h

theorem numbers_enter_of_acquires (h : e.acquires? = some x) (kind : Resource.Kind) :
    (u.enter e).numbers kind =
      if x.kind = kind then x.number :: u.numbers kind else u.numbers kind := by
  cases e <;> simp only [Effect.acquires?, Option.some.injEq, reduceCtorEq] at h <;> subst h <;>
    cases kind <;> rfl

theorem numbers_enter_of_releases (h : e.releases? = some x) (kind : Resource.Kind) :
    (u.enter e).numbers kind = strike x kind (u.numbers kind) := by
  obtain ⟨hconn, hread, htimer⟩ := injective_number
  cases e <;> simp only [Effect.releases?, Option.some.injEq, reduceCtorEq] at h <;> subst h <;>
    cases kind <;> first | rfl | exact map_filter_ne ‹_› _ _

theorem enter_of_addressee {conn : ConnectionId} (h : e.addressee? = some conn) :
    u.enter e = u := by
  cases e <;> first | rfl | cases h

theorem canDo_of_releases (h : e.releases? = some x) :
    u.canDo wayBack e = true ↔ x.number ∈ u.numbers x.kind := by
  obtain ⟨hconn, hread, htimer⟩ := injective_number
  cases e <;> simp only [Effect.releases?, Option.some.injEq, reduceCtorEq] at h <;> subst h <;>
    simp only [canDo, numbers, List.contains_iff_mem] <;>
    exact (List.mem_map_of_injective ‹_›).symm

theorem eq_openChannel {conn : ConnectionId}
    (h : e.acquires? = some ⟨.connection, conn.number⟩) : e = .openChannel conn := by
  cases e with
  | openChannel c =>
    have hn : c.number = conn.number := congrArg Resource.number (Option.some.inj h)
    rw [injective_number.1 hn]
  | _ => cases h

theorem canDo_of_acquires (h : e.acquires? = some x) : u.canDo wayBack e = wayBack := by
  cases e <;> first | rfl | cases h

theorem canDo_of_addressee {conn : ConnectionId} (h : e.addressee? = some conn) :
    u.canDo wayBack e = true ↔ conn ∈ u.channels := by
  cases e <;> cases h <;> exact List.contains_iff_mem

theorem mem_channels_iff {conn : ConnectionId} :
    conn ∈ u.channels ↔ conn.number ∈ u.numbers .connection :=
  (List.mem_map_of_injective injective_number.1).symm

/-! ### Dealing with an input -/

theorem carryOut_cons_of_canDo {es : List Effect} (h : u.canDo wayBack e = true) :
    u.carryOut wayBack (e :: es) =
      (((u.enter e).carryOut wayBack es).1, e :: ((u.enter e).carryOut wayBack es).2) := by
  rw [carryOut, if_pos h]

theorem carryOut_cons_of_not_canDo {es : List Effect} (h : u.canDo wayBack e = false) :
    u.carryOut wayBack (e :: es) = u.carryOut wayBack es := by
  rw [carryOut, if_neg (by simp [h])]

/-- The last effect is carried out on the books as the others have left them. -/
theorem carryOut_concat (wayBack : Bool) (u : Uploader) (es : List Effect) (e : Effect) :
    u.carryOut wayBack (es ++ [e]) =
      if (u.carryOut wayBack es).1.canDo wayBack e then
        ((u.carryOut wayBack es).1.enter e, (u.carryOut wayBack es).2 ++ [e])
      else u.carryOut wayBack es := by
  induction es generalizing u with
  | nil => rfl
  | cons e' es ih =>
    rw [List.cons_append]
    cases hcan : u.canDo wayBack e' with
    | true =>
      rw [carryOut_cons_of_canDo hcan, carryOut_cons_of_canDo hcan, ih]
      split <;> rfl
    | false => rw [carryOut_cons_of_not_canDo hcan, carryOut_cons_of_not_canDo hcan, ih]

/-- A task is begun if there is a way back for its results, and only then. -/
theorem mem_carryOut_of_acquires {es : List Effect} (h : e.acquires? = some x) :
    e ∈ (u.carryOut wayBack es).2 ↔ (true, e) ∈ es.map (wayBack, ·) := by
  induction es generalizing u with
  | nil => simp [carryOut]
  | cons e' es ih =>
    have hhead : e = e' → u.canDo wayBack e' = wayBack := by
      rintro rfl
      exact canDo_of_acquires h
    cases hcan : u.canDo wayBack e' with
    | true =>
      rw [carryOut_cons_of_canDo hcan, List.map_cons, List.mem_cons, List.mem_cons, ih]
      refine or_congr_left ⟨fun he => ?_, fun he => (Prod.mk.inj he).2⟩
      rw [he, ← hhead he, hcan]
    | false =>
      rw [carryOut_cons_of_not_canDo hcan, List.map_cons, List.mem_cons, ih]
      refine (or_iff_right fun he => ?_).symm
      obtain ⟨htrue, he⟩ := Prod.mk.inj he
      rw [hhead he, ← htrue] at hcan
      cases hcan

theorem forget_frame (u : Uploader) (i : Input) :
    (u.forget i).session = u.session ∧ (u.forget i).stopped = u.stopped := by
  cases i <;> exact ⟨rfl, rfl⟩

theorem enter_frame (u : Uploader) (e : Effect) :
    (u.enter e).session = u.session ∧ (u.enter e).stopped = u.stopped := by
  cases e <;> exact ⟨rfl, rfl⟩

/-- Carrying out effects writes nothing but the books. -/
theorem carryOut_frame (wayBack : Bool) (u : Uploader) (es : List Effect) :
    (u.carryOut wayBack es).1.session = u.session ∧
      (u.carryOut wayBack es).1.stopped = u.stopped := by
  induction es generalizing u with
  | nil => exact ⟨rfl, rfl⟩
  | cons e es ih =>
    cases hcan : u.canDo wayBack e with
    | true =>
      rw [carryOut_cons_of_canDo hcan, ← (u.enter_frame e).1, ← (u.enter_frame e).2]
      exact ih (u.enter e)
    | false =>
      rw [carryOut_cons_of_not_canDo hcan]
      exact ih u

/-- The uploader when its session has reacted to an input, and nothing that the session asks for
has been carried out. -/
def reacted (u : Uploader) (i : Input) : Uploader :=
  { u.forget i with session := (u.session.step i).session }

/-- The uploader when all that the session asks for has been carried out, and what could be done
of it. -/
def attend (wayBack : Bool) (u : Uploader) (i : Input) : Uploader × List Effect :=
  (u.reacted i).carryOut wayBack (u.session.step i).effects

theorem attend_session : (u.attend wayBack i).1.session = (u.session.step i).session :=
  (carryOut_frame wayBack (u.reacted i) _).1

theorem attend_stopped : (u.attend wayBack i).1.stopped = u.stopped :=
  (carryOut_frame wayBack (u.reacted i) _).2.trans (u.forget_frame i).2

/-- An uploader stops when its session is done, and then ends what is left. -/
theorem feed_eq (hs : u.stopped = false) : u.feed wayBack i =
    if (u.session.step i).session.isDone then
      ⟨(u.attend wayBack i).1.shutDown.1,
        (u.attend wayBack i).2 ++ (u.attend wayBack i).1.shutDown.2, (u.session.step i).notices⟩
    else ⟨(u.attend wayBack i).1, (u.attend wayBack i).2, (u.session.step i).notices⟩ := by
  have hsession : (u.attend wayBack i).1.session = (u.session.step i).session := attend_session
  rw [← hsession, feed, hs, if_neg (by simp)]
  simp only [attend, reacted, (u.forget_frame i).1]
  rfl

/-- Nothing is left to end when the books are empty. -/
theorem feed_eq_attend (hs : u.stopped = false)
    (hempty : (u.session.step i).session.isDone = true →
      (u.attend wayBack i).1.channels = [] ∧ (u.attend wayBack i).1.reads = [] ∧
        (u.attend wayBack i).1.timers = []) :
    u.feed wayBack i =
      ⟨{ (u.attend wayBack i).1 with stopped := (u.session.step i).session.isDone },
        (u.attend wayBack i).2, (u.session.step i).notices⟩ := by
  rw [feed_eq hs]
  split
  · rename_i hdone
    obtain ⟨hc, hr, ht⟩ := hempty hdone
    simp [shutDown, hc, hr, ht, hdone]
  · rename_i hdone
    have hstopped : (u.attend wayBack i).1.stopped = (u.session.step i).session.isDone := by
      rw [attend_stopped, hs, Bool.eq_false_iff.2 hdone]
    rw [← hstopped]

/-! ### The books mirror the session -/

/-- The books of an uploader show which tasks are at work, as told by the custody of what was done.
Of each kind that is the one which the session holds; it is missing only if it was not begun. -/
structure Mirrors (u : Uploader) (k : Custody) (f : Stock) : Prop where
  live : ∀ kind, u.numbers kind = numbersOf kind k.outstanding
  held : ∀ kind, u.numbers kind = [] ∨ u.numbers kind = (f.get kind).held.toList
  begun : ∀ kind n, (f.get kind).held = some n → (⟨kind, n⟩ : Resource) ∈ k.acquired →
    n ∈ u.numbers kind
  acquired_le : ∀ y ∈ k.acquired, y.number ≤ (f.get y.kind).taken

namespace Mirrors

variable {k : Custody} {f g : Stock}

theorem numbers_eq_of_mem (h : u.Mirrors k f) {kind : Resource.Kind} {n : Nat}
    (hn : n ∈ u.numbers kind) : (f.get kind).held = some n ∧ u.numbers kind = [n] := by
  rcases h.held kind with hnil | hheld
  · simp [hnil] at hn
  · rw [hheld, Option.mem_toList] at hn
    exact ⟨hn, by rw [hheld, hn, Option.toList_some]⟩

theorem numbers_eq_nil (h : u.Mirrors k f) {kind : Resource.Kind}
    (hf : (f.get kind).held = none) : u.numbers kind = [] := by
  rcases h.held kind with hnil | hheld
  · exact hnil
  · rw [hheld, hf, Option.toList_none]

theorem mem_iff (h : u.Mirrors k f) {kind : Resource.Kind} {n : Nat} :
    n ∈ u.numbers kind ↔ (⟨kind, n⟩ : Resource) ∈ k.outstanding := by
  rw [h.live, mem_numbersOf]

/-- A resource that is held is the only one of its kind that may have a task. -/
theorem numbers_eq_nil_of_not_mem (h : u.Mirrors k f) {kind : Resource.Kind} {n : Nat}
    (hf : (f.get kind).held = some n) (hn : n ∉ u.numbers kind) : u.numbers kind = [] := by
  refine List.eq_nil_iff_forall_not_mem.2 fun m hm => ?_
  obtain ⟨hheld, -⟩ := h.numbers_eq_of_mem hm
  obtain rfl : n = m := Option.some.inj (hf.symm.trans hheld)
  exact hn hm

/-- Nothing but the books counts, and the session may hold what it likes otherwise. -/
theorem of_numbers {v : Uploader} (h : u.Mirrors k f)
    (hv : ∀ kind, v.numbers kind = u.numbers kind) : v.Mirrors k f where
  live kind := (hv kind).trans (h.live kind)
  held kind := by simpa only [hv] using h.held kind
  begun kind n hn hk := by simpa only [hv] using h.begun kind n hn hk
  acquired_le := h.acquired_le

/-- The next resource of a kind is taken up, and its task is begun. -/
theorem take {v : Uploader} (h : u.Mirrors k f) {kind : Resource.Kind}
    (hf : (f.get kind).held = none)
    (hv : ∀ l, v.numbers l =
      if kind = l then ((f.get kind).taken + 1) :: u.numbers l else u.numbers l) :
    v.Mirrors (k.take ⟨kind, (f.get kind).taken + 1⟩) (f.set kind (f.get kind).advanced) where
  live l := by
    rw [hv, Custody.take, numbersOf_concat, ← h.live]
    by_cases hl : kind = l
    · subst hl
      simp [h.numbers_eq_nil hf]
    · simp [hl]
  held l := by
    rw [hv, Stock.get_set]
    by_cases hl : kind = l
    · subst hl
      simp [h.numbers_eq_nil hf, Tally.advanced]
    · simpa [hl] using h.held l
  begun l n hn hk := by
    rw [hv]
    rw [Stock.get_set] at hn
    by_cases hl : kind = l
    · subst hl
      obtain rfl : (f.get kind).taken + 1 = n := by simpa [Tally.advanced] using hn
      simp
    · have hne : (⟨l, n⟩ : Resource) ≠ ⟨kind, (f.get kind).taken + 1⟩ :=
        fun he => hl (congrArg Resource.kind he).symm
      simp only [hl, ↓reduceIte] at hn ⊢
      refine h.begun l n hn ?_
      simpa [Custody.take, hne] using hk
  acquired_le y hy := by
    rw [Stock.get_set]
    rcases List.mem_append.1 hy with hy | hy
    · have hle := h.acquired_le y hy
      by_cases hl : kind = y.kind
      · subst hl
        simpa [Tally.advanced] using Nat.le_succ_of_le hle
      · simpa [hl] using hle
    · obtain rfl := List.mem_singleton.1 hy
      simp [Tally.advanced]

/-- The next resource of a kind is taken up, and its task cannot be begun. -/
theorem miss (h : u.Mirrors k f) {kind : Resource.Kind} (hf : (f.get kind).held = none) :
    u.Mirrors k (f.set kind (f.get kind).advanced) where
  live := h.live
  held l := by
    by_cases hl : kind = l
    · subst hl
      exact .inl (h.numbers_eq_nil hf)
    · simpa [Stock.get_set, hl] using h.held l
  begun l n hn hk := by
    rw [Stock.get_set] at hn
    by_cases hl : kind = l
    · subst hl
      -- what was begun earlier has an earlier number
      have hle := h.acquired_le _ hk
      obtain rfl : (f.get kind).taken + 1 = n := by simpa [Tally.advanced] using hn
      exact absurd hle (Nat.not_succ_le_self _)
    · exact h.begun l n (by simpa [hl] using hn) hk
  acquired_le y hy := by
    have hle := h.acquired_le y hy
    rw [Stock.get_set]
    split
    · rename_i hl
      subst hl
      exact Nat.le_succ_of_le hle
    · exact hle

/-- What is held of a kind is released, with its task if that is at work. -/
theorem release {v : Uploader} (h : u.Mirrors k f) {kind : Resource.Kind} {n : Nat}
    (hf : (f.get kind).held = some n)
    (hv : ∀ l, v.numbers l = strike ⟨kind, n⟩ l (u.numbers l)) :
    v.Mirrors (if ⟨kind, n⟩ ∈ k.outstanding then k.release ⟨kind, n⟩ else k)
      (f.set kind (f.get kind).freed) := by
  have hnil : v.numbers kind = [] := by
    rw [hv, strike, if_pos rfl]
    rcases h.held kind with hnil | hheld
    · simp [hnil]
    · simp [hheld, hf]
  have hother {l : Resource.Kind} (hl : kind ≠ l) : v.numbers l = u.numbers l := by
    rw [hv, strike, if_neg hl]
  refine
    { live := fun l => ?_
      held := fun l => ?_
      begun := fun l m hm hk => ?_
      acquired_le := fun y hy => ?_ }
  · by_cases hmem : (⟨kind, n⟩ : Resource) ∈ k.outstanding
    · rw [if_pos hmem, Custody.release, numbersOf_erase, ← h.live]
      by_cases hl : kind = l
      · subst hl
        obtain ⟨-, hone⟩ := h.numbers_eq_of_mem (h.mem_iff.2 hmem)
        simp [hnil, hone]
      · simp [hl, hother hl]
    · rw [if_neg hmem, ← h.live]
      by_cases hl : kind = l
      · subst hl
        rw [hnil, h.numbers_eq_nil_of_not_mem hf (mt h.mem_iff.1 hmem)]
      · exact hother hl
  · by_cases hl : kind = l
    · subst hl
      exact .inl hnil
    · simpa [Stock.get_set, hl, hother hl] using h.held l
  · rw [Stock.get_set] at hm
    by_cases hl : kind = l
    · subst hl
      simp [Tally.freed] at hm
    · rw [hother hl]
      refine h.begun l m (by simpa [hl] using hm) ?_
      split at hk <;> exact hk
  · have hle : y.number ≤ (f.get y.kind).taken := by
      refine h.acquired_le y ?_
      split at hy <;> exact hy
    rw [Stock.get_set]
    split
    · rename_i hl
      subst hl
      exact hle
    · exact hle

/-- An input comes. -/
theorem given (h : u.Mirrors k f) (hc : Change f (.given i) g) :
    (u.forget i).Mirrors (k.after (.given i)) g := by
  cases hc with
  | ended hi hf =>
    simp only [Custody.after, hi]
    exact h.release hf (numbers_forget_of_ends hi)
  | noticed hi =>
    cases hx : i.ends? with
    | none =>
      simp only [Custody.after, hx, forget_of_ends hx]
      exact h
    | some x =>
      have hn : x.number ∉ u.numbers x.kind := fun hn => hi x hx (h.numbers_eq_of_mem hn).1
      have hmem : x ∉ k.outstanding := mt h.mem_iff.2 hn
      simp only [Custody.after, hx, hmem, ↓reduceIte]
      exact h.of_numbers fun kind =>
        (numbers_forget_of_ends hx kind).trans (strike_of_not_mem hn)

/-- An effect is carried out. -/
theorem enter (h : u.Mirrors k f) (hc : Change f (.asked e) g)
    (hcan : u.canDo wayBack e = true) : (u.enter e).Mirrors (k.after (.asked e)) g := by
  cases hc with
  | taken he hf hx =>
    simp only [Custody.after, he]
    exact h.take hf (numbers_enter_of_acquires he)
  | released ha hr hf =>
    have hmem := h.mem_iff.1 ((canDo_of_releases hr).1 hcan)
    simp only [Custody.after, ha, hr]
    simpa only [if_pos hmem] using h.release hf (numbers_enter_of_releases hr)
  | said he hf =>
    rw [enter_of_addressee he, Custody.after_of_addressee he]
    exact h

/-- Nothing can be done about an effect. -/
theorem skip (h : u.Mirrors k f) (hc : Change f (.asked e) g)
    (hcan : u.canDo wayBack e = false) : u.Mirrors k g := by
  cases hc with
  | taken he hf hx => exact h.miss hf
  | @released e kind n ha hr hf =>
    have hn : n ∉ u.numbers kind := fun hn => by
      simp [(canDo_of_releases hr).2 hn] at hcan
    have hmem : (⟨kind, n⟩ : Resource) ∉ k.outstanding := mt h.mem_iff.2 hn
    simpa only [if_neg hmem] using h.release hf (v := u) fun l => (strike_of_not_mem hn).symm
  | said he hf => exact h

/-- The effects of a reaction are carried out, one after the other. -/
theorem carryOut {es : List Effect} (h : u.Mirrors k f) (ht : Trail f (es.map .asked) g)
    (wayBack : Bool) :
    (u.carryOut wayBack es).1.Mirrors
      (((u.carryOut wayBack es).2.map Occurrence.asked).foldl Custody.after k) g := by
  induction es generalizing u k f with
  | nil =>
    cases ht
    exact h
  | cons e es ih =>
    cases ht with
    | cons hc ht =>
      cases hcan : u.canDo wayBack e with
      | true =>
        rw [carryOut_cons_of_canDo hcan]
        exact ih (h.enter hc hcan) ht
      | false =>
        rw [carryOut_cons_of_not_canDo hcan]
        exact ih (h.skip hc hcan) ht

/-- A session that holds nothing has no tasks. -/
theorem empty (h : u.Mirrors k f) (hf : ∀ kind, (f.get kind).held = none) :
    u.channels = [] ∧ u.reads = [] ∧ u.timers = [] :=
  ⟨List.map_eq_nil_iff.1 (h.numbers_eq_nil (hf .connection)),
    List.map_eq_nil_iff.1 (h.numbers_eq_nil (hf .read)),
    List.map_eq_nil_iff.1 (h.numbers_eq_nil (hf .timer))⟩

end Mirrors

/-! ### Runs -/

/-- What an uploader is told and what it carries out, in order, until it stops. -/
def history (u : Uploader) : List (Bool × Input) → List Occurrence
  | [] => []
  | (wayBack, i) :: is =>
    (if u.stopped then [] else .given i :: (u.feed wayBack i).done.map .asked) ++
      (u.feed wayBack i).uploader.history is

theorem run_concat (u : Uploader) (is : List (Bool × Input)) (wayBack : Bool) (i : Input) :
    (u.run (is ++ [(wayBack, i)])).uploader =
      ((u.run is).uploader.feed wayBack i).uploader := by
  induction is generalizing u with
  | nil => rfl
  | cons j is ih => exact ih (u.feed j.1 j.2).uploader

theorem history_concat (u : Uploader) (is : List (Bool × Input)) (wayBack : Bool) (i : Input) :
    u.history (is ++ [(wayBack, i)]) = u.history is ++
      if (u.run is).uploader.stopped then []
      else .given i :: ((u.run is).uploader.feed wayBack i).done.map .asked := by
  induction is generalizing u with
  | nil => exact List.append_nil _
  | cons j is ih =>
    rw [List.cons_append, history, history, ih, run, List.append_assoc]

theorem feed_of_stopped (h : u.stopped = true) : u.feed wayBack i = ⟨u, [], []⟩ := by
  rw [feed, if_pos h]

theorem done_concat (u : Uploader) (is : List (Bool × Input)) (wayBack : Bool) (i : Input) :
    (u.run (is ++ [(wayBack, i)])).done =
      (u.run is).done ++ ((u.run is).uploader.feed wayBack i).done := by
  induction is generalizing u with
  | nil => exact List.append_nil _
  | cons j is ih =>
    rw [List.cons_append, run, run, ih, List.append_assoc]

/-- What was done is in the history, and nothing else was asked for there. -/
theorem asked_mem_history {is : List (Bool × Input)} :
    .asked e ∈ u.history is ↔ e ∈ (u.run is).done := by
  induction is generalizing u with
  | nil => simp [history, run]
  | cons j is ih =>
    obtain ⟨wayBack, i⟩ := j
    rw [history, run, List.mem_append, List.mem_append, ih]
    refine or_congr_left ?_
    cases hs : u.stopped with
    | true => simp [feed_of_stopped hs]
    | false => simp

/-- In the middle of what a consistent session asks for, the books mirror what it holds by then. -/
theorem Mirrors.partway {k : Custody} (h : u.Mirrors k u.session.stock)
    (hcons : u.session.Consistent) (ht : u.session.Transition i (u.session.step i))
    {es fs : List Effect} (hes : (u.session.step i).effects = es ++ fs) (wayBack : Bool) :
    ∃ f, ((u.reacted i).carryOut wayBack es).1.Mirrors
        ((.given i :: ((u.reacted i).carryOut wayBack es).2.map Occurrence.asked).foldl
          Custody.after k) f ∧
      Trail f (fs.map .asked) (u.session.step i).session.stock := by
  have htrail := Session.trail_of_transition hcons ht
  rw [hes, List.map_append] at htrail
  cases htrail with
  | cons hc htrail =>
    obtain ⟨f, hdone, hrest⟩ := htrail.of_append
    have hreacted : (u.reacted i).Mirrors (k.after (.given i)) _ :=
      (h.given hc).of_numbers fun kind => by cases kind <;> rfl
    exact ⟨f, hreacted.carryOut hdone wayBack, hrest⟩

/-- When all that a consistent session asks for has been carried out, the books mirror it again. -/
theorem Mirrors.attend {k : Custody} (h : u.Mirrors k u.session.stock)
    (hcons : u.session.Consistent) (ht : u.session.Transition i (u.session.step i))
    (wayBack : Bool) :
    (u.attend wayBack i).1.Mirrors
      ((.given i :: (u.attend wayBack i).2.map Occurrence.asked).foldl Custody.after k)
      (u.session.step i).session.stock := by
  obtain ⟨f, hall, hrest⟩ := h.partway hcons ht (List.append_nil _).symm wayBack
  cases hrest
  exact hall

/-- A session that is done leaves the books empty. -/
theorem Mirrors.emptied {k : Custody} (h : u.Mirrors k u.session.stock)
    (hcons : u.session.Consistent) (ht : u.session.Transition i (u.session.step i))
    (wayBack : Bool) (hdone : (u.session.step i).session.isDone = true) :
    (u.attend wayBack i).1.channels = [] ∧ (u.attend wayBack i).1.reads = [] ∧
      (u.attend wayBack i).1.timers = [] := by
  obtain ⟨hend, -⟩ := Bool.and_eq_true_iff.1 hdone
  have hsettled := (hcons.of_transition ht).settled hend
  refine (h.attend hcons ht wayBack).empty fun kind => ?_
  cases kind <;> simp [Session.stock, Stock.get, hsettled.channel, hsettled.read, hsettled.timer]

/-- The session of an uploader is that of a run of its inputs, its books mirror that session, and
the tasks that were begun are those for whose results there was a way back. -/
structure Attuned (s : Session) (is : List (Bool × Input)) : Prop where
  session : ((new s).run is).uploader.session = (s.run (is.map (·.2))).session
  stopped : ((new s).run is).uploader.stopped = ((new s).run is).uploader.session.isDone
  mirrors : ((new s).run is).uploader.Mirrors (custody ((new s).history is))
    ((new s).run is).uploader.session.stock
  begun : ∀ e x, e.acquires? = some x → (e ∈ ((new s).run is).done ↔ (true, e) ∈ s.orders is)

section

variable (id : String) (total : UInt64) (delay : Nat)

theorem attuned_nil : Attuned (Session.new id total delay) [] where
  session := rfl
  stopped := rfl
  mirrors :=
    { live := fun kind => by cases kind <;> rfl
      held := fun kind => .inl (by cases kind <;> rfl)
      begun := fun _ _ _ hk => by cases hk
      acquired_le := fun _ hk => by cases hk }
  begun _ _ _ := by simp [run, Session.orders]

variable {id total delay} {is : List (Bool × Input)}

theorem Attuned.concat (h : Attuned (Session.new id total delay) is)
    (hopens : OpensOnce (is.map (·.2) ++ [i])) :
    Attuned (Session.new id total delay) (is ++ [(wayBack, i)]) := by
  obtain ⟨hsession, hstopped, hmirrors, hbegun⟩ := h
  have hcons := Session.consistent_run id total delay hopens.init
  have ht := Session.transition_run id total delay hopens
  rw [← hsession] at hcons ht
  have hrun : ((Session.new id total delay).run ((is ++ [(wayBack, i)]).map (·.2))).session =
      (((new (Session.new id total delay)).run is).uploader.session.step i).session := by
    rw [List.map_append, List.map_singleton, Session.run_concat, Reaction.andThen_session,
      ← hsession]
  have horders := (Session.new id total delay).orders_concat is wayBack i
  rw [← hsession] at horders
  cases hs : ((new (Session.new id total delay)).run is).uploader.stopped with
  | true =>
    -- the session has ended, and answers nothing any more
    obtain ⟨hend, -⟩ := Bool.and_eq_true_iff.1 (hstopped.symm.trans hs)
    rw [(hcons.settled hend).step hend] at hrun horders
    constructor
    · rw [run_concat, feed_of_stopped hs, hrun]
      rfl
    · rw [run_concat, feed_of_stopped hs, hstopped]
    · rw [run_concat, feed_of_stopped hs, history_concat, if_pos hs, List.append_nil]
      exact hmirrors
    · intro e x he
      rw [done_concat, feed_of_stopped hs, horders, List.append_nil, hbegun e x he]
      exact (List.append_nil _).symm ▸ Iff.rfl
  | false =>
    have hfeed := feed_eq_attend hs (hmirrors.emptied hcons ht wayBack)
    constructor
    · rw [run_concat, hfeed, hrun]
      exact attend_session
    · rw [run_concat, hfeed]
      exact congrArg Session.isDone attend_session.symm
    · rw [run_concat, history_concat, if_neg (by simp [hs]), hfeed, custody, List.foldl_append]
      rw [attend_session]
      exact (hmirrors.attend hcons ht wayBack).of_numbers fun kind => by cases kind <;> rfl
    · intro e x he
      rw [done_concat, hfeed, horders, List.mem_append, List.mem_append, hbegun e x he]
      exact or_congr_right (mem_carryOut_of_acquires he)

theorem attuned_run (h : OpensOnce (is.map (·.2))) : Attuned (Session.new id total delay) is := by
  induction is using List.reverseRecOn with
  | nil => exact attuned_nil id total delay
  | append_singleton is x ih =>
    rw [List.map_append, List.map_singleton] at h
    exact (ih h.init).concat h

/-- What the books of an uploader say after a history. -/
structure Orderly (u : Uploader) (os : List Occurrence) : Prop where
  channels : ∀ conn ∈ u.channels, u.session.channel.map (·.id) = some conn
  reads : ∀ read ∈ u.reads, u.session.pendingRead.map (·.1) = some read
  timers : ∀ token ∈ u.timers, u.session.retry.armed = some token
  single : u.channels.length ≤ 1 ∧ u.reads.length ≤ 1 ∧ u.timers.length ≤ 1
  /-- The tasks that were begun, were not given up and have not ended are those in the books. -/
  live : ∀ kind, u.numbers kind = numbersOf kind (custody os).outstanding

/-- What becomes of one effect, from the books and what has been done just before it and just
after. -/
structure Treats (wayBack : Bool) (orders : List (Bool × Effect)) (e : Effect)
    (before after : Uploader × List Effect) : Prop where
  /-- A task is begun and entered if there is a way back for its results, and only then. -/
  begun : ∀ x, e.acquires? = some x → (x.number ∈ after.1.numbers x.kind ↔ wayBack = true) ∧
    after.2 = before.2 ++ if wayBack then [e] else []
  /-- A task that is given up is ended if it is at work, and is not in the books any more. -/
  ended : ∀ x, e.releases? = some x → x.number ∉ after.1.numbers x.kind ∧
    after.2 = before.2 ++ if x.number ∈ before.1.numbers x.kind then [e] else []
  /-- What is said on a channel finds it, and is passed on, if there was a way back when the channel
  was asked for, and only then. -/
  heard : ∀ conn, e.addressee? = some conn →
    (conn ∈ before.1.channels ↔ (true, .openChannel conn) ∈ orders) ∧
    after.2 = before.2 ++ if conn ∈ before.1.channels then [e] else []

/-- What an uploader does about an input, when its session has given it these orders before. -/
structure Serves (wayBack : Bool) (u : Uploader) (i : Input) (orders : List (Bool × Effect)) :
    Prop where
  /-- Each effect is dealt with in its turn. -/
  treats : ∀ es e fs, (u.session.step i).effects = es ++ e :: fs →
    Treats wayBack (orders ++ es.map (wayBack, ·)) e ((u.reacted i).carryOut wayBack es)
      ((u.reacted i).carryOut wayBack (es ++ [e]))
  /-- A session that is done has left nothing to shut down. -/
  emptied : (u.attend wayBack i).1.session.isDone = true →
    (u.attend wayBack i).1.channels = [] ∧ (u.attend wayBack i).1.reads = [] ∧
      (u.attend wayBack i).1.timers = []
  /-- Nothing is done but what the session asks for, and nothing else is entered. -/
  fed : u.stopped = false → (u.feed wayBack i).done = (u.attend wayBack i).2 ∧
    ∀ kind, (u.feed wayBack i).uploader.numbers kind = (u.attend wayBack i).1.numbers kind

/-- How the books of an uploader follow its session along a run. -/
structure KeepsBooks (s : Session) (is : List (Bool × Input)) : Prop where
  /-- The session goes on as it would by itself, and the uploader stops when that is done. -/
  follows : ∀ before, before <+: is →
    ((new s).run before).uploader.session = (s.run (before.map (·.2))).session ∧
      ((new s).run before).uploader.stopped = (s.run (before.map (·.2))).session.isDone
  orderly : ∀ before, before <+: is →
    ((new s).run before).uploader.Orderly ((new s).history before)
  serves : ∀ before wayBack i, before ++ [(wayBack, i)] <+: is →
    Serves wayBack ((new s).run before).uploader i (s.orders before)

theorem Attuned.orderly {s : Session} (h : Attuned s is) :
    ((new s).run is).uploader.Orderly ((new s).history is) where
  channels conn hconn := by
    have hmem : conn.number ∈ ((new s).run is).uploader.numbers .connection :=
      List.mem_map_of_mem hconn
    obtain ⟨hheld, -⟩ := h.mirrors.numbers_eq_of_mem hmem
    obtain ⟨c, hc, hn⟩ := Option.map_eq_some_iff.1 hheld
    rw [hc, Option.map_some, injective_number.1 hn]
  reads read hread := by
    have hmem : read.number ∈ ((new s).run is).uploader.numbers .read :=
      List.mem_map_of_mem hread
    obtain ⟨hheld, -⟩ := h.mirrors.numbers_eq_of_mem hmem
    obtain ⟨r, hr, hn⟩ := Option.map_eq_some_iff.1 hheld
    rw [hr, Option.map_some, injective_number.2.1 hn]
  timers token htoken := by
    have hmem : token.number ∈ ((new s).run is).uploader.numbers .timer :=
      List.mem_map_of_mem htoken
    obtain ⟨hheld, -⟩ := h.mirrors.numbers_eq_of_mem hmem
    obtain ⟨t, ht, hn⟩ := Option.map_eq_some_iff.1 hheld
    rw [ht, injective_number.2.2 hn]
  single := by
    have hle (kind : Resource.Kind) :
        (((new s).run is).uploader.numbers kind).length ≤ 1 := by
      rcases h.mirrors.held kind with hnil | hheld
      · simp [hnil]
      · rw [hheld]
        exact Option.length_toList_le
    exact ⟨List.length_map _ ▸ hle .connection, List.length_map _ ▸ hle .read,
      List.length_map _ ▸ hle .timer⟩
  live := h.mirrors.live

/-- Whatever the session asks for is treated as it should be if the books mirror what it holds by
then. -/
theorem Mirrors.treats {k : Custody} {f g : Stock} (h : u.Mirrors k f) (hc : Change f (.asked e) g)
    {orders : List (Bool × Effect)} (hheard : ∀ conn, e.addressee? = some conn →
      (conn ∈ u.channels ↔ (true, .openChannel conn) ∈ orders)) (did : List Effect) :
    Treats wayBack orders e (u, did)
      (if u.canDo wayBack e then (u.enter e, did ++ [e]) else (u, did)) where
  begun x hx := by
    rw [canDo_of_acquires hx]
    cases wayBack with
    | true =>
      have hmem : x.number ∈ (u.enter e).numbers x.kind := by
        rw [numbers_enter_of_acquires hx, if_pos rfl]
        exact List.mem_cons_self
      exact ⟨iff_of_true hmem rfl, rfl⟩
    | false =>
      have hnil : u.numbers x.kind = [] := h.numbers_eq_nil (hc.held_of_acquires hx)
      exact ⟨by simp [hnil], (List.append_nil did).symm⟩
  ended x hx := by
    have hcan : u.canDo wayBack e = true ↔ x.number ∈ u.numbers x.kind := canDo_of_releases hx
    split
    · rename_i hdo
      refine ⟨?_, by rw [if_pos (hcan.1 hdo)]⟩
      rw [numbers_enter_of_releases hx, strike, if_pos rfl]
      simp
    · rename_i hdo
      have hn : x.number ∉ u.numbers x.kind := mt hcan.2 hdo
      exact ⟨hn, by rw [if_neg hn, List.append_nil]⟩
  heard conn ha := by
    have hcan : u.canDo wayBack e = true ↔ conn ∈ u.channels := canDo_of_addressee ha
    refine ⟨hheard conn ha, ?_⟩
    split
    · rename_i hdo
      rw [if_pos (hcan.1 hdo)]
    · rename_i hdo
      rw [if_neg (mt hcan.2 hdo), List.append_nil]

/-- What begins a task was done by some moment exactly if it was asked for with a way back. -/
theorem Attuned.asked_iff (h : Attuned (Session.new id total delay) is) {es : List Effect}
    (hx : e.acquires? = some x) :
    .asked e ∈ (new (Session.new id total delay)).history is ++ .given i ::
        ((((new (Session.new id total delay)).run is).uploader.reacted i).carryOut
          wayBack es).2.map .asked ↔
      (true, e) ∈ (Session.new id total delay).orders is ++ es.map (wayBack, ·) := by
  rw [List.mem_append, List.mem_append, asked_mem_history, h.begun e x hx,
    ← mem_carryOut_of_acquires hx]
  refine or_congr_right ⟨fun hmem => ?_, fun hmem => ?_⟩
  · obtain ⟨e', he', heq⟩ := List.mem_map.1 (List.mem_of_ne_of_mem (by simp) hmem)
    cases heq
    exact he'
  · exact List.mem_cons_of_mem _ (List.mem_map_of_mem hmem)

theorem Attuned.serves (h : Attuned (Session.new id total delay) is)
    (hopens : OpensOnce (is.map (·.2) ++ [i])) :
    Serves wayBack ((new (Session.new id total delay)).run is).uploader i
      ((Session.new id total delay).orders is) := by
  have hcons := Session.consistent_run id total delay hopens.init
  have ht := Session.transition_run id total delay hopens
  rw [← h.session] at hcons ht
  constructor
  · intro es e fs hes
    obtain ⟨f, hmirrors, hrest⟩ := h.mirrors.partway hcons ht hes wayBack
    rw [custody, ← List.foldl_append] at hmirrors
    cases hrest with
    | cons hc _ =>
      rw [carryOut_concat]
      refine hmirrors.treats hc (fun conn ha => ?_) _
      have hopen : (Effect.openChannel conn).acquires? = some ⟨.connection, conn.number⟩ := rfl
      rw [← h.asked_iff hopen, mem_channels_iff]
      constructor
      · intro hconn
        obtain ⟨e', he', hopen⟩ := Custody.asked_of_outstanding (hmirrors.mem_iff.1 hconn)
        rwa [eq_openChannel hopen] at he'
      · intro hmem
        exact hmirrors.begun .connection _ (hc.held_of_addressee ha) (Custody.mem_acquired hmem rfl)
  · intro hdone
    rw [attend_session] at hdone
    exact h.mirrors.emptied hcons ht wayBack hdone
  · intro hs
    rw [feed_eq_attend hs (h.mirrors.emptied hcons ht wayBack)]
    exact ⟨rfl, fun kind => by cases kind <;> rfl⟩

variable (id total delay)

/-- **An uploader keeps its books as its session keeps its own.** After every input the tasks in the
books are those at work, of each kind one at most and that is the one which the session holds. All
that the session asks for is done if there is a way back for the results, or was one when the task
was begun that it is about; and a session that is done has left nothing to shut down. -/
theorem keeps_books (h : OpensOnce (is.map (·.2))) :
    KeepsBooks (Session.new id total delay) is where
  follows before hpre := by
    have hbefore : Attuned (Session.new id total delay) before :=
      attuned_run (h.of_prefix (hpre.map _))
    exact ⟨hbefore.session, by rw [hbefore.stopped, hbefore.session]⟩
  orderly before hpre := (attuned_run (h.of_prefix (hpre.map _))).orderly
  serves before wayBack i hpre := by
    have hopens : OpensOnce (before.map (·.2) ++ [i]) := by
      simpa using h.of_prefix (hpre.map (·.2))
    exact (attuned_run hopens.init).serves hopens

/-- A chunk is sent; then the connection is lost with a read at work, which answers late, and no
second one can be opened any more. -/
def lostWayBack : List (Bool × Input) :=
  [(true, .start), (true, .channelOpened ⟨1⟩), (true, .record ⟨1⟩ (.uploadConfig ⟨4, 2, 2⟩)),
    (true, .chunkRead ⟨1⟩ (.ok ⟨#[2, 3, 4, 5]⟩)), (true, .channelClosed ⟨1⟩),
    (true, .chunkRead ⟨2⟩ (.ok ⟨#[6, 7, 8, 9]⟩)), (false, .retryElapsed ⟨1⟩),
    (false, .cancel "given up")]

theorem keeps_books_of_lost_way_back :
    OpensOnce (lostWayBack.map (·.2)) ∧
    ((new (Session.new "upload" 10 500)).run lostWayBack).done =
      [.openChannel ⟨1⟩, .sendRecord ⟨1⟩ (.uploadRequest "upload" 10), .sendRecord ⟨1⟩ .ack,
        .readChunk ⟨1⟩ ⟨2, 4⟩, .sendChunk ⟨1⟩ ⟨#[2, 3, 4, 5]⟩, .readChunk ⟨2⟩ ⟨6, 4⟩,
        .abortRead ⟨2⟩, .armRetry ⟨1⟩ 500] ∧
    (Session.new "upload" 10 500).orders lostWayBack =
      [(true, .openChannel ⟨1⟩), (true, .sendRecord ⟨1⟩ (.uploadRequest "upload" 10)),
        (true, .sendRecord ⟨1⟩ .ack), (true, .readChunk ⟨1⟩ ⟨2, 4⟩),
        (true, .sendChunk ⟨1⟩ ⟨#[2, 3, 4, 5]⟩), (true, .readChunk ⟨2⟩ ⟨6, 4⟩),
        (true, .abortRead ⟨2⟩), (true, .armRetry ⟨1⟩ 500), (false, .openChannel ⟨2⟩),
        (false, .closeChannel ⟨2⟩)] ∧
    KeepsBooks (Session.new "upload" 10 500) lostWayBack :=
  ⟨by decide, rfl, rfl, keeps_books "upload" 10 500 (by decide)⟩

end

end Uploader

end ResumableUpload
