import Mathlib.Data.List.Induction
import Mathlib.Data.List.Nodup
import ResumableUpload.Retry

/-!
# What becomes of a timer

Timers are armed, disarmed and reported as expired in any order, and the reports may name any token,
also one that no timer ever had. What was asked and answered is kept in a diary, and the diary alone
tells which timer is armed and what became of the others.

* `Retry.Transition` : all that an operation can do, with its answer.
* `Retry.Pending` : the last timer that was armed, if nothing has settled its fate since.
* `Retry.Told` : what the diary tells of the timers. The tokens that were handed out are those of
  the timers whose fate is settled, in order, and that of the armed one. Every operation keeps this
  (`Retry.Told.of_transition`, `Retry.told_diary`).
* `Retry.tokens_run` : the tokens of all timers, their fates, and which expiries count.
-/

namespace ResumableUpload.Retry

/-- Something that is asked of the timers. -/
inductive Operation
  | arm
  | disarm
  /-- A timer is reported as expired. -/
  | fire (token : RetryToken)
  deriving DecidableEq, Repr

/-- An operation and its answer. -/
inductive Entry
  | armed (token : RetryToken) (replaced : Option RetryToken)
  | disarmed (token : Option RetryToken)
  | fired (token : RetryToken) (counts : Bool)
  deriving DecidableEq, Repr

/-- What becomes of a timer that is no longer armed. -/
inductive Fate
  | fired
  | disarmed
  | replaced
  deriving DecidableEq, Repr

namespace Entry

/-- The token of a timer that was armed. -/
def issues? : Entry → Option RetryToken
  | armed token _ => some token
  | _ => none

/-- The timer whose fate is settled. -/
def settles? : Entry → Option (RetryToken × Fate)
  | armed _ replaced => replaced.map (·, .replaced)
  | disarmed token => token.map (·, .disarmed)
  | fired token counts => if counts then some (token, .fired) else none

end Entry

/-- One operation: its entry, and the timers afterwards. -/
def answer (r : Retry) : Operation → Entry × Retry
  | .arm =>
    let (token, replaced, next) := r.arm
    (.armed token replaced, next)
  | .disarm =>
    let (token, next) := r.disarm
    (.disarmed token, next)
  | .fire token =>
    match r.fire? token with
    | some next => (.fired token true, next)
    | none => (.fired token false, r)

/-- The entries of all operations so far, and the timers after them. -/
structure Diary where
  entries : List Entry
  timers : Retry
  deriving DecidableEq, Repr

/-- The diary with the entry of one more operation. -/
def Diary.add (d : Diary) (op : Operation) : Diary :=
  let (entry, next) := d.timers.answer op
  ⟨d.entries ++ [entry], next⟩

/-- The diary of operations on timers of which none has ever been armed. -/
def diary (ops : List Operation) : Diary := ops.foldl Diary.add ⟨[], idle⟩

/-- The tokens that were handed out, in order. -/
def issued (es : List Entry) : List RetryToken := es.filterMap Entry.issues?

/-- The timers whose fate is settled, in order. -/
def settled (es : List Entry) : List (RetryToken × Fate) := es.filterMap Entry.settles?

/-- The fates of the timer with this token. -/
def fates (token : RetryToken) (es : List Entry) : List Fate :=
  ((settled es).filter (·.1 = token)).map Prod.snd

/-- The last timer that was armed has this token, and since then no timer was disarmed and no expiry
counted. -/
def Pending (es : List Entry) (token : RetryToken) : Prop :=
  ∃ before replaced since, es = before ++ .armed token replaced :: since ∧
    ∀ e ∈ since, (∀ t r, e ≠ .armed t r) ∧ (∀ t, e ≠ .disarmed t) ∧ ∀ t, e ≠ .fired t true

/-! ### One operation -/

/-- What an operation does to the timers. -/
inductive Transition (r : Retry) : Entry → Retry → Prop
  | armed : Transition r (.armed ⟨r.count + 1⟩ r.armed) ⟨some ⟨r.count + 1⟩, r.count + 1⟩
  | disarmed : Transition r (.disarmed r.armed) ⟨none, r.count⟩
  | fired {token : RetryToken} (ha : r.armed = some token) :
      Transition r (.fired token true) ⟨none, r.count⟩
  | ignored {token : RetryToken} (ha : r.armed ≠ some token) : Transition r (.fired token false) r

/-- Every operation does one of these things. -/
theorem transition (r : Retry) (op : Operation) : Transition r (r.answer op).1 (r.answer op).2 := by
  cases op with
  | arm => exact .armed
  | disarm => exact .disarmed
  | fire token =>
    cases hf : r.fire? token with
    | some next =>
      obtain ⟨ha, rfl⟩ := fire?_eq_some_iff.1 hf
      simp only [answer, hf]
      exact .fired ha
    | none =>
      simp only [answer, hf]
      exact .ignored (fire?_eq_none_iff.1 hf)

variable {r r' : Retry} {e : Entry} {es : List Entry} {token : RetryToken}

/-- An expiry counts exactly if it is that of the armed timer. -/
theorem answer_fire_iff :
    (r.answer (.fire token)).1 = .fired token true ↔ r.armed = some token := by
  have ht := transition r (.fire token)
  generalize (r.answer (.fire token)).2 = next at ht
  constructor
  · intro h
    rw [h] at ht
    cases ht
    assumption
  · intro h
    simp [answer, fire?, h]

/-! ### The timer that is pending -/

theorem not_pending_nil (token : RetryToken) : ¬Pending [] token := by
  rintro ⟨before, replaced, since, h, -⟩
  simp at h

/-- After one more entry a timer is pending that was armed by it, or one that was pending before, if
the entry is an expiry that does not count. -/
theorem pending_concat_iff :
    Pending (es ++ [e]) token ↔
      (∃ replaced, e = .armed token replaced) ∨
        Pending es token ∧ ∃ other, e = .fired other false := by
  constructor
  · rintro ⟨before, replaced, since, h, hsince⟩
    rcases List.eq_nil_or_concat' since with rfl | ⟨since, last, rfl⟩
    · obtain ⟨-, hlast⟩ := List.append_inj' h rfl
      exact .inl ⟨replaced, List.singleton_inj.1 hlast⟩
    · have hsplit : es ++ [e] = (before ++ .armed token replaced :: since) ++ [last] := by
        simpa using h
      obtain ⟨rfl, hlast⟩ := List.append_inj' hsplit rfl
      obtain rfl := List.singleton_inj.1 hlast
      obtain ⟨hsince, hlast⟩ := List.forall_mem_append.1 hsince
      obtain ⟨harmed, hdisarmed, hfired⟩ := hlast e (by simp)
      refine .inr ⟨⟨before, replaced, since, rfl, hsince⟩, ?_⟩
      cases e with
      | armed t r => exact absurd rfl (harmed t r)
      | disarmed t => exact absurd rfl (hdisarmed t)
      | fired t counts =>
        cases counts with
        | true => exact absurd rfl (hfired t)
        | false => exact ⟨t, rfl⟩
  · rintro (⟨replaced, rfl⟩ | ⟨⟨before, replaced, since, rfl, hsince⟩, other, rfl⟩)
    · exact ⟨es, replaced, [], rfl, by simp⟩
    · refine ⟨before, replaced, since ++ [.fired other false], by simp, fun e he => ?_⟩
      rcases List.mem_append.1 he with he | he
      · exact hsince e he
      · obtain rfl := List.mem_singleton.1 he
        simp

theorem pending_of_transition (ht : Transition r e r')
    (h : ∀ token, Pending es token ↔ r.armed = some token) :
    ∀ token, Pending (es ++ [e]) token ↔ r'.armed = some token := by
  intro token
  rw [pending_concat_iff, h token]
  cases ht with
  | armed => simp
  | disarmed => simp
  | fired ha => simp
  | ignored ha => simp

/-! ### What the diary tells -/

theorem issued_concat (es : List Entry) (e : Entry) :
    issued (es ++ [e]) = issued es ++ e.issues?.toList := by
  cases h : e.issues? <;> simp [issued, h]

theorem settled_concat (es : List Entry) (e : Entry) :
    settled (es ++ [e]) = settled es ++ e.settles?.toList := by
  cases h : e.settles? <;> simp [settled, h]

/-- What the entries tell about the timers. -/
structure Told (es : List Entry) (r : Retry) : Prop where
  numbered : issued es = (List.range r.count).map fun n => ⟨n + 1⟩
  /-- A timer is armed until its fate is settled, and only one is armed at a time. -/
  issued_eq : issued es = (settled es).map Prod.fst ++ r.armed.toList
  pending_iff : ∀ token, Pending es token ↔ r.armed = some token

namespace Told

theorem nothing : Told [] idle :=
  ⟨rfl, rfl, fun token => by simp [not_pending_nil, idle]⟩

theorem of_transition (h : Told es r) (ht : Transition r e r') : Told (es ++ [e]) r' where
  numbered := by
    rw [issued_concat, h.numbered]
    cases ht with
    | armed => simp [Entry.issues?, List.range_succ]
    | disarmed | fired | ignored => simp [Entry.issues?]
  issued_eq := by
    rw [issued_concat, settled_concat, h.issued_eq]
    cases ht with
    -- the timer that was armed before, if there was one, is settled now
    | armed | disarmed => cases r.armed <;> simp [Entry.issues?, Entry.settles?]
    | fired ha => simp [Entry.issues?, Entry.settles?, ha]
    | ignored => simp [Entry.issues?, Entry.settles?]
  pending_iff := pending_of_transition ht h.pending_iff

/-- No token is handed out twice. -/
theorem nodup (h : Told es r) : (issued es).Nodup := by
  rw [h.numbered]
  exact List.nodup_range.map fun m n hmn => by simpa using hmn

end Told

theorem diary_concat (ops : List Operation) (op : Operation) :
    diary (ops ++ [op]) = (diary ops).add op := by
  simp [diary]

theorem told_diary (ops : List Operation) : Told (diary ops).entries (diary ops).timers := by
  induction ops using List.reverseRecOn with
  | nil => exact .nothing
  | append_singleton ops op ih =>
    rw [diary_concat]
    exact ih.of_transition (transition (diary ops).timers op)

/-! ### Fates -/

theorem length_fates (token : RetryToken) (es : List Entry) :
    (fates token es).length = ((settled es).map Prod.fst).count token := by
  rw [fates, List.length_map, ← List.countP_eq_length_filter, List.count, List.countP_map]
  rfl

theorem fates_eq_nil_iff : fates token es = [] ↔ token ∉ (settled es).map Prod.fst := by
  rw [← List.length_eq_zero_iff, length_fates, List.count_eq_zero]

/-- The tokens of the timers on which some operations were carried out, what became of them, and
what one more operation does. -/
structure Accounted (es : List Entry) (r : Retry) : Prop where
  /-- The tokens are 1, 2, 3 and so on. -/
  numbered : issued es = (List.range (issued es).length).map fun n => ⟨n + 1⟩
  fires_iff : ∀ token, (r.answer (.fire token)).1 = .fired token true ↔ Pending es token
  fates_le : ∀ token, (fates token es).length ≤ 1
  fates_eq_nil_iff : ∀ token ∈ issued es, fates token es = [] ↔ r.armed = some token
  unfired : ∀ token, (r.answer (.fire token)).1 = .fired token false →
    (r.answer (.fire token)).2 = r
  undisarmed : (r.answer .disarm).1 = .disarmed none → (r.answer .disarm).2 = r

/-- An expiry that does not count changes nothing. -/
theorem answer_fire_of_uncounted (h : (r.answer (.fire token)).1 = .fired token false) :
    (r.answer (.fire token)).2 = r := by
  have ht := transition r (.fire token)
  rw [h] at ht
  generalize (r.answer (.fire token)).2 = next at ht
  cases ht
  rfl

/-- Where there is nothing to disarm nothing changes. -/
theorem answer_disarm_of_none (h : (r.answer .disarm).1 = .disarmed none) :
    (r.answer .disarm).2 = r := by
  obtain ⟨armed, count⟩ := r
  obtain rfl : armed = none := Entry.disarmed.inj h
  rfl

theorem Told.accounted (h : Told es r) : Accounted es r where
  numbered := by
    have hlength : (issued es).length = r.count := by rw [h.numbered]; simp
    rw [hlength]
    exact h.numbered
  fires_iff token := answer_fire_iff.trans (h.pending_iff token).symm
  fates_le token := by
    have hnodup := h.nodup
    rw [h.issued_eq] at hnodup
    rw [length_fates]
    exact List.nodup_iff_count_le_one.1 (List.nodup_append.1 hnodup).1 token
  fates_eq_nil_iff token hmem := by
    have hnodup := h.nodup
    rw [h.issued_eq] at hnodup hmem
    rw [Retry.fates_eq_nil_iff, ← Option.mem_toList]
    constructor
    · exact (List.mem_append.1 hmem).resolve_left
    · exact fun harmed hsettled => (List.nodup_append.1 hnodup).2.2 _ hsettled _ harmed rfl
  unfired _ := answer_fire_of_uncounted
  undisarmed := answer_disarm_of_none

/-- **Every timer has one fate.** However timers are armed, disarmed and reported as expired, their
tokens are numbered from one, and an expiry counts exactly if its timer is the last that was armed
and nothing has settled its fate since. Every timer has at most one fate, and none exactly if it is
armed now. An expiry that does not count, and a request to disarm where no timer is armed, change
nothing. -/
theorem tokens_run (ops : List Operation) : Accounted (diary ops).entries (diary ops).timers :=
  (told_diary ops).accounted

/-- A timer that was replaced does not fire, and one that has fired does not fire again. -/
example : (diary [.arm, .arm, .fire ⟨1⟩, .fire ⟨2⟩, .fire ⟨2⟩, .disarm]).entries =
    [.armed ⟨1⟩ none, .armed ⟨2⟩ (some ⟨1⟩), .fired ⟨1⟩ false, .fired ⟨2⟩ true, .fired ⟨2⟩ false,
      .disarmed none] := by
  decide

end ResumableUpload.Retry
