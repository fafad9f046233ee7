import Mathlib.Data.List.Induction
import Mathlib.Data.List.Nodup
import Mathlib.Data.List.Perm.Basic
import Mathlib.Tactic.ByContra
import ResumableUpload.Session.Basic

/-!
# Who holds what

Connections, reads and timers are taken up by an effect that asks for them. Each is given back by an
effect that ends it, or ends by itself: the channel closes, the read is answered, the timer expires.
Somebody who sees nothing but the inputs and effects of a session can tell from them what it holds.

* `custody` : which resources were taken up, which were released, and which are outstanding.
* `Custody.Sound` : nothing was taken up or released twice, and at most one resource of each kind is
  outstanding.
* `Change` : the ways in which what is held may change. A chain of changes (`Trail`) keeps the
  custody sound at every moment (`Trail.shows`, `Custody.Shows.sound`).
-/

namespace ResumableUpload

/-- What kind of thing a session holds for a time. -/
inductive Resource.Kind
  | connection
  | read
  | timer
  deriving DecidableEq, Repr

/-- A connection, a read or a timer. -/
structure Resource where
  kind : Resource.Kind
  number : Nat
  deriving DecidableEq, Repr

/-- The resource that an effect takes up. -/
def Effect.acquires? : Effect → Option Resource
  | openChannel conn => some ⟨.connection, conn.number⟩
  | readChunk read _ => some ⟨.read, read.number⟩
  | armRetry token _ => some ⟨.timer, token.number⟩
  | _ => none

/-- The resource that an effect gives back. -/
def Effect.releases? : Effect → Option Resource
  | closeChannel conn => some ⟨.connection, conn.number⟩
  | abortRead read => some ⟨.read, read.number⟩
  | disarmRetry token => some ⟨.timer, token.number⟩
  | _ => none

/-- The connection on which an effect says something. -/
def Effect.addressee? : Effect → Option ConnectionId
  | sendRecord conn _ | sendChunk conn _ => some conn
  | _ => none

/-- The resource of which an input says that it has ended by itself. -/
def Input.ends? : Input → Option Resource
  | channelClosed conn => some ⟨.connection, conn.number⟩
  | chunkRead read _ => some ⟨.read, read.number⟩
  | retryElapsed token => some ⟨.timer, token.number⟩
  | _ => none

/-- What happens in a run: an input comes, or an effect is asked for. -/
inductive Occurrence
  | given (i : Input)
  | asked (e : Effect)

/-! ### Custody -/

/-- The resources that were taken up, those that were released since, and those that were not. -/
structure Custody where
  acquired : List Resource
  released : List Resource
  outstanding : List Resource
  deriving DecidableEq, Repr

namespace Custody

/-- Nothing has happened. -/
def initial : Custody := ⟨[], [], []⟩

/-- A resource is taken up. -/
def take (k : Custody) (x : Resource) : Custody :=
  { k with acquired := k.acquired ++ [x], outstanding := k.outstanding ++ [x] }

/-- A resource is released. -/
def release (k : Custody) (x : Resource) : Custody :=
  { k with released := k.released ++ [x], outstanding := k.outstanding.erase x }

/-- The custody after one more occurrence. A resource that is not outstanding does not end by
itself; an effect counts in any case. -/
def after (k : Custody) : Occurrence → Custody
  | .given i =>
    match i.ends? with
    | some x => if x ∈ k.outstanding then k.release x else k
    | none => k
  | .asked e =>
    match e.acquires?, e.releases? with
    | some x, _ => k.take x
    | none, some x => k.release x
    | none, none => k

end Custody

/-- The custody after a history. -/
def custody (os : List Occurrence) : Custody := os.foldl Custody.after .initial

/-- The numbers of the resources of one kind. -/
def numbersOf (k : Resource.Kind) (xs : List Resource) : List Nat :=
  (xs.filter (·.kind = k)).map (·.number)

theorem custody_concat (os : List Occurrence) (o : Occurrence) :
    custody (os ++ [o]) = (custody os).after o := by
  simp [custody]

section Numbers

variable {k : Resource.Kind} {xs ys : List Resource} {x : Resource}

theorem numbersOf_cons :
    numbersOf k (x :: xs) = (if x.kind = k then [x.number] else []) ++ numbersOf k xs := by
  by_cases h : x.kind = k <;> simp [numbersOf, h]

theorem numbersOf_concat :
    numbersOf k (xs ++ [x]) = numbersOf k xs ++ if x.kind = k then [x.number] else [] := by
  by_cases h : x.kind = k <;> simp [numbersOf, h]

theorem mem_numbersOf {n : Nat} : n ∈ numbersOf k xs ↔ (⟨k, n⟩ : Resource) ∈ xs := by
  constructor
  · intro h
    obtain ⟨y, hy, rfl⟩ := List.mem_map.1 h
    obtain ⟨hmem, hk⟩ := List.mem_filter.1 hy
    obtain rfl : y.kind = k := of_decide_eq_true hk
    exact hmem
  · intro h
    exact List.mem_map.2 ⟨_, List.mem_filter.2 ⟨h, decide_eq_true rfl⟩, rfl⟩

theorem numbersOf_erase :
    numbersOf k (xs.erase x) =
      if x.kind = k then (numbersOf k xs).erase x.number else numbersOf k xs := by
  induction xs with
  | nil => simp [numbersOf]
  | cons y ys ih =>
    by_cases hxy : y = x
    · subst hxy
      rw [List.erase_cons_head, numbersOf_cons]
      by_cases hk : y.kind = k <;> simp [hk]
    · rw [List.erase_cons_tail (by simpa using hxy), numbersOf_cons, numbersOf_cons, ih]
      by_cases hk : x.kind = k
      · by_cases hky : y.kind = k
        -- of one kind, different resources have different numbers
        · have hn : y.number ≠ x.number := by
            intro hn
            obtain ⟨ky, ny⟩ := y
            obtain ⟨kx, nx⟩ := x
            simp_all
          simp [hk, hky, List.erase_cons_tail, hn]
        · simp [hk, hky]
      · simp [hk]

end Numbers

namespace Custody

/-- An occurrence takes a resource up, releases one, or leaves all as it is. -/
theorem after_cases (k : Custody) (o : Occurrence) :
    k.after o = k ∨ (∃ x, k.after o = k.take x) ∨ ∃ x, k.after o = k.release x := by
  cases o with
  | given i =>
    simp only [after]
    split
    · split
      · exact .inr (.inr ⟨_, rfl⟩)
      · exact .inl rfl
    · exact .inl rfl
  | asked e =>
    simp only [after]
    split
    · exact .inr (.inl ⟨_, rfl⟩)
    · exact .inr (.inr ⟨_, rfl⟩)
    · exact .inl rfl

theorem acquired_subset (k : Custody) (o : Occurrence) : k.acquired ⊆ (k.after o).acquired := by
  intro x hx
  rcases k.after_cases o with h | ⟨y, h⟩ | ⟨y, h⟩ <;> rw [h]
  · exact hx
  · exact List.mem_append_left _ hx
  · exact hx

/-- What was asked for was taken up. -/
theorem mem_acquired {os : List Occurrence} {e : Effect} {x : Resource}
    (he : .asked e ∈ os) (hx : e.acquires? = some x) : x ∈ (custody os).acquired := by
  induction os using List.reverseRecOn with
  | nil => cases he
  | append_singleton os o ih =>
    rw [custody_concat]
    rcases List.mem_append.1 he with he | he
    · exact (custody os).acquired_subset o (ih he)
    · obtain rfl := List.mem_singleton.1 he
      simp [after, hx, take]

/-- What is outstanding was so before, or has just been taken up. -/
theorem mem_outstanding_after {k : Custody} {o : Occurrence} {x : Resource}
    (hx : x ∈ (k.after o).outstanding) :
    x ∈ k.outstanding ∨ ∃ e, o = .asked e ∧ e.acquires? = some x := by
  cases o with
  | given i =>
    left
    simp only [after] at hx
    split at hx
    · split at hx
      · exact List.mem_of_mem_erase hx
      · exact hx
    · exact hx
  | asked e =>
    cases ha : e.acquires? with
    | some y =>
      simp only [after, ha] at hx
      rcases List.mem_append.1 hx with hx | hx
      · exact .inl hx
      · obtain rfl := List.mem_singleton.1 hx
        exact .inr ⟨e, rfl, ha⟩
    | none =>
      left
      simp only [after, ha] at hx
      split at hx
      · cases ‹none = some _›
      · exact List.mem_of_mem_erase hx
      · exact hx

/-- What is outstanding was asked for. -/
theorem asked_of_outstanding {os : List Occurrence} {x : Resource}
    (hx : x ∈ (custody os).outstanding) : ∃ e, .asked e ∈ os ∧ e.acquires? = some x := by
  induction os using List.reverseRecOn with
  | nil => cases hx
  | append_singleton os o ih =>
    rw [custody_concat] at hx
    rcases mem_outstanding_after hx with hx | ⟨e, rfl, ha⟩
    · obtain ⟨e, he, ha⟩ := ih hx
      exact ⟨e, List.mem_append_left _ he, ha⟩
    · exact ⟨e, by simp, ha⟩

/-- What was taken up was released or is outstanding. -/
theorem released_or_outstanding {os : List Occurrence} {x : Resource}
    (hx : x ∈ (custody os).acquired) :
    x ∈ (custody os).released ∨ x ∈ (custody os).outstanding := by
  induction os using List.reverseRecOn with
  | nil => cases hx
  | append_singleton os o ih =>
    rw [custody_concat] at hx ⊢
    rcases (custody os).after_cases o with h | ⟨y, h⟩ | ⟨y, h⟩ <;> rw [h] at hx ⊢
    · exact ih hx
    · rcases List.mem_append.1 hx with hx | hx
      · exact (ih hx).imp_right (List.mem_append_left _)
      · exact .inr (List.mem_append_right _ hx)
    · rcases ih hx with hx | hx
      · exact .inl (List.mem_append_left _ hx)
      · by_cases hxy : x = y
        · exact .inl (List.mem_append_right _ (List.mem_singleton.2 hxy))
        · exact .inr ((List.mem_erase_of_ne hxy).2 hx)

/-- Nothing is wrong with a custody. -/
structure Sound (k : Custody) : Prop where
  /-- The resources of each kind are numbered from one in the order in which they were taken up. -/
  numbered : ∀ kind, ∃ n, numbersOf kind k.acquired = List.range' 1 n
  /-- None was taken up twice. -/
  fresh : k.acquired.Nodup
  /-- None that was released is outstanding, and none was released twice. -/
  once : (k.released ++ k.outstanding).Nodup
  /-- What was taken up was released or is outstanding, and nothing else was or is. -/
  balanced : k.acquired.Perm (k.released ++ k.outstanding)
  single : ∀ kind, (numbersOf kind k.outstanding).length ≤ 1
  exclusive : numbersOf .connection k.outstanding = [] ∨ numbersOf .timer k.outstanding = []

/-- An effect that gives a resource back finds it outstanding. -/
theorem Sound.mem_of_releases {k : Custody} (h : k.Sound) {e : Effect} {x : Resource}
    (ha : e.acquires? = none) (hr : e.releases? = some x) (hs : (k.after (.asked e)).Sound) :
    x ∈ k.outstanding := by
  by_contra hx
  have hafter : k.after (.asked e) = k.release x := by simp only [after, ha, hr]
  rw [hafter] at hs
  -- otherwise more would have been released than was taken up
  have hlen := hs.balanced.length_eq
  have hlen' := h.balanced.length_eq
  simp only [release, List.erase_of_not_mem hx, List.length_append, List.length_singleton] at hlen
  simp only [List.length_append] at hlen'
  omega

/-- An effect that takes a resource up finds no other of its kind, and never had that one. -/
theorem Sound.not_mem_of_acquires {k : Custody} {e : Effect} {x : Resource}
    (ha : e.acquires? = some x) (hs : (k.after (.asked e)).Sound) :
    x ∉ k.acquired ∧ ∀ y ∈ k.outstanding, y.kind ≠ x.kind := by
  have hafter : k.after (.asked e) = k.take x := by simp only [after, ha]
  rw [hafter] at hs
  constructor
  · intro hx
    exact (List.nodup_append'.1 hs.fresh).2.2 hx (List.mem_singleton_self x)
  · intro y hy hk
    have hlen := hs.single x.kind
    rw [take, numbersOf_concat, if_pos rfl, List.length_append, List.length_singleton] at hlen
    have hmem : y.number ∈ numbersOf x.kind k.outstanding := mem_numbersOf.2 (by rwa [← hk])
    have := List.length_pos_of_mem hmem
    omega

end Custody

/-! ### Stocks and how they may change -/

/-- Of one kind of resource: which one is held, and how many were taken up so far. -/
structure Tally where
  held : Option Nat
  taken : Nat
  deriving DecidableEq, Repr

/-- The tally when nothing is held any more. -/
def Tally.freed (t : Tally) : Tally := { t with held := none }

/-- The tally when the next one was taken up. -/
def Tally.advanced (t : Tally) : Tally := ⟨some (t.taken + 1), t.taken + 1⟩

/-- The tallies of a session. -/
structure Stock where
  connection : Tally
  read : Tally
  timer : Tally
  deriving DecidableEq, Repr

namespace Stock

/-- The tally of one kind. -/
def get (f : Stock) : Resource.Kind → Tally
  | .connection => f.connection
  | .read => f.read
  | .timer => f.timer

/-- The stock with another tally of one kind. -/
def set (f : Stock) (k : Resource.Kind) (t : Tally) : Stock :=
  match k with
  | .connection => { f with connection := t }
  | .read => { f with read := t }
  | .timer => { f with timer := t }

/-- No connection and timer are held at once. -/
def Exclusive (f : Stock) : Prop := f.connection.held = none ∨ f.timer.held = none

theorem get_set (f : Stock) (k l : Resource.Kind) (t : Tally) :
    (f.set k t).get l = if k = l then t else f.get l := by
  cases k <;> cases l <;> rfl

theorem set_get (f : Stock) (k : Resource.Kind) : f.set k (f.get k) = f := by
  cases k <;> rfl

theorem Exclusive.freed {f : Stock} (h : f.Exclusive) (k : Resource.Kind) :
    (f.set k (f.get k).freed).Exclusive := by
  cases k with
  | connection => exact .inl rfl
  | read => exact h
  | timer => exact .inr rfl

end Stock

/-- How a stock may change, and when a connection may be spoken on. -/
inductive Change (f : Stock) : Occurrence → Stock → Prop
  /-- The next resource of a kind is taken up when none of the kind is held. -/
  | taken {e : Effect} {k : Resource.Kind} (he : e.acquires? = some ⟨k, (f.get k).taken + 1⟩)
      (hf : (f.get k).held = none) (hx : (f.set k (f.get k).advanced).Exclusive) :
      Change f (.asked e) (f.set k (f.get k).advanced)
  /-- The resource that is held is given back. -/
  | released {e : Effect} {k : Resource.Kind} {n : Nat} (ha : e.acquires? = none)
      (hr : e.releases? = some ⟨k, n⟩) (hf : (f.get k).held = some n) :
      Change f (.asked e) (f.set k (f.get k).freed)
  /-- Something is said, on the connection that is held. -/
  | said {e : Effect} {conn : ConnectionId} (he : e.addressee? = some conn)
      (hf : f.connection.held = some conn.number) : Change f (.asked e) f
  /-- The resource that is held has ended. -/
  | ended {i : Input} {k : Resource.Kind} {n : Nat} (hi : i.ends? = some ⟨k, n⟩)
      (hf : (f.get k).held = some n) : Change f (.given i) (f.set k (f.get k).freed)
  /-- Nothing that is held has ended. -/
  | noticed {i : Input} (hi : ∀ x, i.ends? = some x → (f.get x.kind).held ≠ some x.number) :
      Change f (.given i) f

/-- Nothing of a kind is held when the next one is taken up. -/
theorem Change.held_of_acquires {f g : Stock} {e : Effect} {x : Resource}
    (hc : Change f (.asked e) g) (hx : e.acquires? = some x) : (f.get x.kind).held = none := by
  cases hc with
  | taken he hf =>
    obtain rfl := Option.some.inj (he.symm.trans hx)
    exact hf
  | released ha => simp [ha] at hx
  | said he => cases e <;> simp_all [Effect.acquires?, Effect.addressee?]

/-- Only the connection that is held is spoken on. -/
theorem Change.held_of_addressee {f g : Stock} {e : Effect} {conn : ConnectionId}
    (hc : Change f (.asked e) g) (he : e.addressee? = some conn) :
    f.connection.held = some conn.number := by
  cases hc with
  | taken ha => cases e <;> simp_all [Effect.acquires?, Effect.addressee?]
  | released ha hr => cases e <;> simp_all [Effect.releases?, Effect.addressee?]
  | said he' hf =>
    obtain rfl : _ = conn := Option.some.inj (he'.symm.trans he)
    exact hf

/-- A chain of changes. -/
inductive Trail : Stock → List Occurrence → Stock → Prop
  | nil (f : Stock) : Trail f [] f
  | cons {f g h : Stock} {o : Occurrence} {os : List Occurrence} (hc : Change f o g)
      (ht : Trail g os h) : Trail f (o :: os) h

namespace Trail

variable {f g h : Stock} {o : Occurrence} {os ps : List Occurrence}

theorem single (hc : Change f o g) : Trail f [o] g := .cons hc (.nil g)

theorem append (ht : Trail f os g) (hu : Trail g ps h) : Trail f (os ++ ps) h := by
  induction ht with
  | nil => exact hu
  | cons hc _ ih => exact .cons hc (ih hu)

/-- A chain can be cut anywhere. -/
theorem of_append (ht : Trail f (os ++ ps) h) : ∃ g, Trail f os g ∧ Trail g ps h := by
  induction os generalizing f with
  | nil => exact ⟨f, .nil f, ht⟩
  | cons o os ih =>
    cases ht with
    | cons hc ht =>
      obtain ⟨g, hg, hrest⟩ := ih ht
      exact ⟨g, .cons hc hg, hrest⟩

end Trail

namespace Custody

variable {k : Custody} {f g : Stock} {o : Occurrence}

/-- A custody tells that a session has this stock, and it is in order. -/
structure Shows (k : Custody) (f : Stock) : Prop where
  acquired : ∀ kind, numbersOf kind k.acquired = List.range' 1 (f.get kind).taken
  outstanding : ∀ kind, numbersOf kind k.outstanding = (f.get kind).held.toList
  balanced : k.acquired.Perm (k.released ++ k.outstanding)
  exclusive : f.Exclusive

namespace Shows

theorem mem_iff (h : k.Shows f) {kind : Resource.Kind} {n : Nat} :
    (⟨kind, n⟩ : Resource) ∈ k.outstanding ↔ (f.get kind).held = some n := by
  rw [← mem_numbersOf, h.outstanding, Option.mem_toList]

theorem fresh (h : k.Shows f) : k.acquired.Nodup := by
  -- resources that are the same have the same number within their kind
  refine List.nodup_iff_count_le_one.2 fun x => ?_
  have hcount : k.acquired.count x ≤ (numbersOf x.kind k.acquired).count x.number := by
    rw [numbersOf, List.count_eq_countP, List.count_eq_countP, List.countP_map, List.countP_filter]
    refine List.countP_mono_left fun y _ hy => ?_
    obtain rfl : y = x := by simpa using hy
    simp
  rw [h.acquired] at hcount
  exact Nat.le_trans hcount (List.nodup_iff_count_le_one.1 List.nodup_range' x.number)

theorem sound (h : k.Shows f) : k.Sound where
  numbered kind := ⟨_, h.acquired kind⟩
  fresh := h.fresh
  once := h.balanced.nodup_iff.1 h.fresh
  balanced := h.balanced
  single kind := by
    rw [h.outstanding]
    cases (f.get kind).held <;> simp
  exclusive := by
    rw [h.outstanding, h.outstanding]
    rcases h.exclusive with hx | hx
    · exact .inl (by simp [Stock.get, hx])
    · exact .inr (by simp [Stock.get, hx])

theorem take (h : k.Shows f) {kind : Resource.Kind} (hf : (f.get kind).held = none)
    (hx : (f.set kind (f.get kind).advanced).Exclusive) :
    (k.take ⟨kind, (f.get kind).taken + 1⟩).Shows (f.set kind (f.get kind).advanced) where
  acquired l := by
    rw [Custody.take, numbersOf_concat, h.acquired, Stock.get_set]
    by_cases hl : kind = l
    · subst hl
      simp only [↓reduceIte, Tally.advanced]
      rw [List.range'_1_concat, Nat.add_comm 1]
    · simp [hl]
  outstanding l := by
    rw [Custody.take, numbersOf_concat, h.outstanding, Stock.get_set]
    by_cases hl : kind = l
    · subst hl
      simp [Tally.advanced, hf]
    · simp [hl]
  balanced := by
    rw [Custody.take, ← List.append_assoc]
    exact h.balanced.append_right _
  exclusive := hx

theorem release (h : k.Shows f) {kind : Resource.Kind} {n : Nat}
    (hf : (f.get kind).held = some n) :
    (k.release ⟨kind, n⟩).Shows (f.set kind (f.get kind).freed) where
  acquired l := by
    rw [Custody.release, h.acquired, Stock.get_set]
    by_cases hl : kind = l
    · subst hl
      simp [Tally.freed]
    · simp [hl]
  outstanding l := by
    rw [Custody.release, numbersOf_erase, h.outstanding, Stock.get_set]
    by_cases hl : kind = l
    · subst hl
      simp [Tally.freed, hf]
    · simp [hl]
  balanced := by
    have hmem : (⟨kind, n⟩ : Resource) ∈ k.outstanding := h.mem_iff.2 hf
    rw [Custody.release, List.append_assoc]
    exact h.balanced.trans ((List.perm_cons_erase hmem).append_left _)
  exclusive := h.exclusive.freed kind

theorem after (h : k.Shows f) (hc : Change f o g) : (k.after o).Shows g := by
  cases hc with
  | taken he hf hx =>
    simp only [Custody.after, he]
    exact h.take hf hx
  | released ha hr hf =>
    simp only [Custody.after, ha, hr]
    exact h.release hf
  | @said e conn he hf =>
    have hnone : e.acquires? = none ∧ e.releases? = none := by
      cases e <;> first | exact ⟨rfl, rfl⟩ | cases he
    simp only [Custody.after, hnone.1, hnone.2]
    exact h
  | ended hi hf =>
    simp only [Custody.after, hi, h.mem_iff.2 hf, ↓reduceIte]
    exact h.release hf
  | @noticed i hi =>
    cases hx : i.ends? with
    | none =>
      simp only [Custody.after, hx]
      exact h
    | some x =>
      have hmem : x ∉ k.outstanding := fun hmem => hi x hx (h.mem_iff.1 hmem)
      simp only [Custody.after, hx, hmem, ↓reduceIte]
      exact h

end Shows

end Custody

theorem Trail.shows {f : Stock} {os : List Occurrence} {g : Stock} (ht : Trail f os g) {k : Custody}
    (hk : k.Shows f) : (os.foldl Custody.after k).Shows g := by
  induction ht generalizing k with
  | nil => exact hk
  | cons hc _ ih => exact ih (hk.after hc)

end ResumableUpload
