import Mathlib.Data.List.DropRight
import ResumableUpload.Proofs.Reachable

/-!
# The accounts of a run

The counters of a session follow from the records that it has taken, and they agree with each
other at every moment at which somebody can look at them.

* `Session.takenRecords` : the records that a run takes, in order; every other one is stale or ends
  the session (`Session.errored_iff_taken_eq_none`).
* `Wire.credited` : the bytes that such records acknowledge.
* `Session.books_of_transition` : whatever the observer is shown while an input is handled has the
  counters of the session afterwards.
* `Session.Ledger` : what links the counters to the records taken and the inputs handled.
* `Session.accounts_run` : the accounts of every run.
-/

namespace ResumableUpload

namespace Wire

/-- The parameters that a record announces. -/
def ServerRecord.params? : ServerRecord → Option UploadParams
  | uploadConfig params => some params
  | _ => none

/-- The bytes that a record acknowledges. -/
def ServerRecord.ackSize? : ServerRecord → Option Nat
  | chunkAck size => some size.toNat
  | _ => none

/-- The parameters announced last. -/
def lastParams (rs : List ServerRecord) : Option UploadParams :=
  (rs.filterMap (·.params?)).getLast?

/-- The sizes acknowledged since the last announcement. -/
def sizesSince (rs : List ServerRecord) : List Nat :=
  (rs.rtakeWhile (·.params?.isNone)).filterMap (·.ackSize?)

/-- The offset announced last, zero before any announcement, and all that was acknowledged
since. -/
def credited (rs : List ServerRecord) : Nat :=
  ((lastParams rs).map (·.resumeOffset.toNat)).getD 0 + (sizesSince rs).sum

/-- What the records of a server determine. -/
structure Terms where
  acked : Nat
  /-- The most chunks in flight. -/
  limit : Option Nat
  deriving DecidableEq, Repr

/-- The terms that a list of records leaves. -/
def termsOf (rs : List ServerRecord) : Terms :=
  ⟨credited rs, (lastParams rs).map (·.sendAhead.toNat)⟩

/-- The terms after one more record. -/
def Terms.after (t : Terms) : ServerRecord → Terms
  | .uploadConfig params => ⟨params.resumeOffset.toNat, some params.sendAhead.toNat⟩
  | .chunkAck size => { t with acked := t.acked + size.toNat }
  | _ => t

theorem termsOf_concat (rs : List ServerRecord) (r : ServerRecord) :
    termsOf (rs ++ [r]) = (termsOf rs).after r := by
  cases r <;>
    simp [termsOf, credited, lastParams, sizesSince, ServerRecord.params?, ServerRecord.ackSize?,
      Terms.after, Nat.add_assoc]

end Wire

/-- All that somebody gets to see while an input is handled, and the snapshot after it. -/
def Reaction.shown (r : Reaction) : List Snapshot :=
  r.notices.map (·.snapshot) ++ [r.session.snapshot]

namespace Session

open Reaction (quiet)
open Wire (ServerRecord lastParams credited)

/-- The record that an input brings, if the session takes it. -/
def taken (s : Session) : Input → Option ServerRecord
  | .record conn r => if s.isOpen conn ∧ s.Accepts r then some r else none
  | _ => none

/-- What the records taken so far have determined. -/
def terms (s : Session) : Wire.Terms := ⟨s.acked, s.window.map Window.limit⟩

/-- The records that a session takes out of a list of inputs. -/
def takenRecords (s : Session) : List Input → List ServerRecord
  | [] => []
  | i :: is => (s.taken i).toList ++ (s.step i).session.takenRecords is

theorem takenRecords_concat (s : Session) (is : List Input) (i : Input) :
    s.takenRecords (is ++ [i]) =
      s.takenRecords is ++ ((s.run is).session.taken i).toList := by
  induction is generalizing s with
  | nil => simp [takenRecords, run]
  | cons j is ih => simp [takenRecords, ih, run]

variable {s : Session} {i : Input} {r : Reaction}

theorem taken_of_accepts {conn : ConnectionId} {r : ServerRecord}
    (hc : s.channel = some ⟨conn, true⟩) (hr : s.Accepts r) :
    s.taken (.record conn r) = some r :=
  if_pos ⟨isOpen_iff.2 hc, hr⟩

theorem taken_of_not_accepts {conn : ConnectionId} {r : ServerRecord} (hr : ¬s.Accepts r) :
    s.taken (.record conn r) = none :=
  if_neg fun h => hr h.2

theorem taken_of_ignores (hi : s.Ignores i) : s.taken i = none := by
  cases i with
  | record conn r => simp [taken, show s.isOpen conn = false from hi]
  | _ => rfl

/-- An announcement or an acknowledgement on the open channel ends the session exactly if it is
not taken. -/
theorem errored_iff_taken_eq_none (h : s.Consistent) {conn : ConnectionId} {r : ServerRecord}
    (hc : s.channel = some ⟨conn, true⟩) (hr : r.params?.isSome ∨ r.ackSize?.isSome) :
    (s.step (.record conn r)).session.phase = .errored ↔ s.taken (.record conn r) = none := by
  have ht := transition h (i := .record conn r) (by rintro _ ⟨⟩)
  generalize s.step (.record conn r) = reaction at ht
  cases ht with
  | ignored hi => simp [Ignores, isOpen_iff.2 hc] at hi
  | violated v _ hn => simp [taken_of_not_accepts hn, violate, released]
  | configNoted hp _ ha | ackNoted hp _ ha =>
    simp [taken_of_accepts hc ha, configured, acknowledged, hp]
  | configCompletes _ _ ha | ackCompletes _ _ ha => simp [taken_of_accepts hc ha]
  | configBegins _ _ ha => simp [taken_of_accepts hc ha, configured]
  | ackContinues hp _ ha => simp [taken_of_accepts hc ha, acknowledged, hp]
  -- no other reaction is one to an announcement or an acknowledgement
  | _ => simp [ServerRecord.params?, ServerRecord.ackSize?] at hr

/-! ### What one input adds -/

theorem endUnconfirmed_books (reason : Option String) (e : SessionError) :
    ∀ n ∈ (s.endUnconfirmed reason e).notices,
      n.snapshot.books = (s.endUnconfirmed reason e).session.snapshot.books := by
  cases h : s.error with
  | none =>
    simp [endUnconfirmed, h]
    rfl
  | some _ => simp [endUnconfirmed, h]

/-- Whatever the observer is told has the counters of the session afterwards. -/
theorem books_of_notice (ht : s.Transition i r) :
    ∀ n ∈ r.notices, n.snapshot.books = r.session.snapshot.books := by
  cases ht with
  | ignored | restarted | unpaused | retried | opened | cancelSent => simp
  | suspended | ackNoted | ackCompletes | errorNoted | configNoted | configCompletes => simp
  | cancelConfirmed | serverCancelled | violated | undecodable | finished | failedCompleting =>
    simp [finishCancel, onServerCancel, violate, endWith]
  | configBegins | ackContinues | sent => simp [sendChunk_endRead]
  -- the observer is told before the session lets go of what it holds
  | failedUncancelled =>
    rintro n hn
    obtain rfl : n = _ := by simpa using hn
    simp only [Reaction.andThen_session, shutDown_session]
    rw [released_books]
    rfl
  | serverFailed | readFailed =>
    rintro n hn
    obtain rfl : n = _ := by simpa using hn
    exact (s.cancelling_books "").symm
  | cancelledOffline => simpa using endUnconfirmed_books (s := s.released) _ _
  | lost =>
    simp only [awaitRetry_eq, Reaction.andThen_notices, abortRead_notices, List.nil_append,
      List.mem_singleton, forall_eq]
    rfl
  | cancelLost =>
    simpa [abandonCancel] using endUnconfirmed_books _ _

theorem requestNextChunk_terms : s.requestNextChunk.session.terms = s.terms := by
  have hlimit := congrArg Snapshot.limit s.requestNextChunk_snapshot
  rw [terms, requestNextChunk_acked]
  exact congrArg (Wire.Terms.mk s.acked) hlimit

/-- A record that is neither an announcement nor an acknowledgement changes nothing, taken or
not. -/
theorem after_taken_of_neutral {conn : ConnectionId} {r : ServerRecord}
    (hr : ∀ t : Wire.Terms, t.after r = t) :
    (s.taken (.record conn r)).elim s.terms s.terms.after = s.terms := by
  by_cases h : s.isOpen conn ∧ s.Accepts r
  · rw [show s.taken (.record conn r) = some r from if_pos h]
    exact hr s.terms
  · rw [show s.taken (.record conn r) = none from if_neg h]
    rfl

/-- Only the records that are taken change what counts as acknowledged, and only announcements
change how many chunks are allowed. -/
theorem terms_of_transition (ht : s.Transition i r) :
    r.session.terms = (s.taken i).elim s.terms s.terms.after := by
  cases ht with
  | ignored hi => rw [taken_of_ignores hi]; rfl
  | opened => rfl
  | restarted | unpaused | retried | suspended | cancelSent | cancelledOffline | undecodable
  | readFailed | lost | cancelLost =>
    simp [taken, terms, reconnected, suspended, cancelling, violate, released, awaitRetry_eq,
      abandonCancel, endRead]
  | sent =>
    simp only [sendChunk_endRead, requestNextChunk_terms]
    simp [taken, terms, chunkSent, Function.comp_def]
  | violated v hc hr =>
    rw [taken_of_not_accepts hr]
    simp [terms, violate, released]
  | cancelConfirmed | serverCancelled | finished | failedCompleting | failedUncancelled
  | serverFailed | errorNoted =>
    rw [after_taken_of_neutral fun _ => rfl]
    simp [terms, cancelling, finishCancel, onServerCancel, endWith, released]
  | configNoted hp hc hr | configCompletes hp hc hr =>
    rw [taken_of_accepts hc hr]
    rfl
  -- the request for a chunk leaves the terms alone
  | configBegins hp hc hr =>
    rw [taken_of_accepts hc hr]
    simp only [Reaction.andThen_session, Reaction.tell_session, requestNextChunk_terms]
    rfl
  | ackNoted hp hc hr | ackCompletes hp hc hr =>
    rw [taken_of_accepts hc hr]
    simp [terms, acknowledged, Wire.Terms.after, Function.comp_def]
  | ackContinues hp hc hr =>
    rw [taken_of_accepts hc hr]
    simp only [Reaction.andThen_session, Reaction.tell_session, requestNextChunk_terms]
    simp [terms, acknowledged, Wire.Terms.after, Function.comp_def]

theorem counts_of_transition (ht : s.Transition i r) :
    r.session.chunksSent ≤ s.chunksSent + 1 ∧ r.session.connections ≤ s.connections + 1 ∧
      r.session.reads ≤ s.reads + 1 ∧ r.session.retry.count ≤ s.retry.count + 1 := by
  cases ht with
  | sent =>
    simp only [sendChunk_endRead, requestNextChunk_chunksSent, requestNextChunk_connections,
      requestNextChunk_retry]
    refine ⟨?_, ?_, requestNextChunk_reads_le _, ?_⟩ <;> simp [chunkSent]
  | configBegins | ackContinues =>
    refine ⟨?_, ?_, requestNextChunk_reads_le _, ?_⟩ <;> simp [configured, acknowledged]
  | cancelledOffline | cancelConfirmed | serverCancelled | violated | undecodable
  | finished | failedCompleting | failedUncancelled | lost | cancelLost =>
    simp [finishCancel, onServerCancel, violate, endWith, released, awaitRetry_eq,
      abandonCancel, endRead]
  | _ => simp [reconnected, suspended, cancelling, configured, acknowledged]

/-! ### What a run adds up to -/

/-- The terms come from the records taken, and no count is larger than the number of inputs. -/
structure Ledger (rs : List ServerRecord) (inputs : Nat) (s : Session) : Prop where
  terms_eq : s.terms = Wire.termsOf rs
  chunksSent_le : s.chunksSent ≤ inputs
  connections_le : s.connections ≤ inputs
  reads_le : s.reads ≤ inputs
  timers_le : s.retry.count ≤ inputs

theorem Ledger.of_transition {rs : List ServerRecord} {n : Nat} (h : s.Ledger rs n)
    (ht : s.Transition i r) :
    r.session.Ledger (rs ++ (s.taken i).toList) (n + 1) := by
  obtain ⟨hchunks, hconn, hreads, htimers⟩ := counts_of_transition ht
  exact
    { terms_eq := by
        rw [terms_of_transition ht, h.terms_eq]
        cases s.taken i with
        | none => simp
        | some r => exact (Wire.termsOf_concat rs r).symm
      chunksSent_le := hchunks.trans (Nat.succ_le_succ h.chunksSent_le)
      connections_le := hconn.trans (Nat.succ_le_succ h.connections_le)
      reads_le := hreads.trans (Nat.succ_le_succ h.reads_le)
      timers_le := htimers.trans (Nat.succ_le_succ h.timers_le) }

theorem ledger_run (id : String) (total : UInt64) (delay : Nat) {is : List Input}
    (h : OpensOnce is) :
    ((new id total delay).run is).session.Ledger ((new id total delay).takenRecords is)
      is.length := by
  refine run_induction id total delay
    (P := fun is r => r.session.Ledger ((new id total delay).takenRecords is) is.length)
    ⟨rfl, Nat.le_refl _, Nat.le_refl _, Nat.le_refl _, Nat.le_refl _⟩ ?_ h
  rintro is i _ rfl hcons htimely hP
  rw [takenRecords_concat, List.length_append, List.length_singleton]
  have hstep := hP.of_transition (transition hcons htimely)
  exact hstep

/-- What a snapshot shows after so many inputs, out of which these records were taken. -/
structure Accounted (total : UInt64) (rs : List ServerRecord) (inputs : Nat) (p : Snapshot) :
    Prop where
  total_eq : p.total = total.toNat
  acked_le_sent : p.acked ≤ p.sent
  sent_le_total : p.sent ≤ p.total
  sent_eq : p.sent = p.acked + p.bytesInFlight
  chunksAcked_le : p.chunksAcked ≤ p.chunksSent
  chunksInFlight_eq : p.chunksInFlight = p.chunksSent - p.chunksAcked
  unannounced : lastParams rs = none → p.chunksInFlight = 0
  /-- The window is the one announced last, and it is kept to. -/
  limited : ∀ params, lastParams rs = some params →
    p.limit = some params.sendAhead.toNat ∧ p.chunksInFlight ≤ params.sendAhead.toNat
  acked_eq : p.acked = credited rs
  chunksInFlight_lt : p.chunksInFlight < 2 ^ 32
  chunksSent_le : p.chunksSent ≤ inputs

theorem Ledger.accounted {total : UInt64} {rs : List ServerRecord} {n : Nat}
    (h : s.Ledger rs n) (ht : s.total = total) (hb : s.snapshot.books.Balanced) {p : Snapshot}
    (hp : p.books = s.snapshot.books) : Accounted total rs n p := by
  have hlimit : p.limit = (lastParams rs).map (·.sendAhead.toNat) :=
    (congrArg Books.limit hp).trans (congrArg Wire.Terms.limit h.terms_eq)
  have htotal : p.total = total.toNat :=
    (congrArg Books.total hp).trans (congrArg UInt64.toNat ht)
  have hacked : p.acked = credited rs :=
    (congrArg Books.acked hp).trans (congrArg Wire.Terms.acked h.terms_eq)
  have hchunks : p.chunksSent = s.chunksSent := congrArg Books.chunksSent hp
  rw [← hp] at hb
  -- the balance of the books, now read off the snapshot that is shown
  obtain ⟨hle, hsent, hcs, hlim⟩ := hb
  simp only [Snapshot.books] at hle hsent hcs hlim
  have hlimited : ∀ params, lastParams rs = some params →
      p.limit = some params.sendAhead.toNat ∧ p.chunksInFlight ≤ params.sendAhead.toNat := by
    intro params hparams
    rw [hparams] at hlimit
    exact ⟨hlimit, hlim _ hlimit⟩
  have hunannounced : lastParams rs = none → p.chunksInFlight = 0 := by
    intro hparams
    -- without an announcement there is no window
    have hw : s.window = none := by
      have := congrArg Wire.Terms.limit h.terms_eq
      simpa [terms, Wire.termsOf, hparams] using this
    exact (congrArg Books.chunksInFlight hp).trans (by simp [Snapshot.books, snapshot, hw])
  exact
    { total_eq := htotal
      acked_le_sent := by omega
      sent_le_total := hle
      sent_eq := hsent
      chunksAcked_le := by omega
      chunksInFlight_eq := by omega
      unannounced := hunannounced
      limited := hlimited
      acked_eq := hacked
      chunksInFlight_lt := by
        cases hparams : lastParams rs with
        | some params =>
          exact Nat.lt_of_le_of_lt (hlimited _ hparams).2 params.sendAhead.toNat_lt
        | none => simp [hunannounced hparams]
      chunksSent_le := hchunks.trans_le h.chunksSent_le }

/-- The accounts of a session after some inputs, for one more. -/
structure Accounts (s : Session) (is : List Input) (i : Input) : Prop where
  shown : ∀ p ∈ ((s.run is).session.step i).shown,
    Accounted s.total (s.takenRecords (is ++ [i])) (is.length + 1) p
  connections_le : ((s.run is).session.step i).session.connections ≤ is.length + 1
  reads_le : ((s.run is).session.step i).session.reads ≤ is.length + 1
  timers_le : ((s.run is).session.step i).session.retry.count ≤ is.length + 1
  /-- An announcement or an acknowledgement that the open channel brings is taken unless it ends
  the session. -/
  refused : ∀ conn r, i = .record conn r → (s.run is).session.isOpen conn = true →
    r.params?.isSome ∨ r.ackSize?.isSome →
      (((s.run is).session.step i).session.phase = .errored ↔ (s.run is).session.taken i = none)

/-- **The accounts of every run are balanced.** Whatever is shown while an input is handled, and
after it, has counters that agree with each other and with the records taken so far. No count
outgrows the total, the window or the number of inputs, so that no sum formed on the way exceeds
the word that holds it. -/
theorem accounts_run (id : String) (total : UInt64) (delay : Nat) (is : List Input) (i : Input)
    (h : OpensOnce (is ++ [i])) : (new id total delay).Accounts is i := by
  have hledger := ledger_run id total delay h
  have hcons := consistent_run id total delay h
  have htotal := total_run id total delay h
  rw [run_concat, Reaction.andThen_session] at hledger hcons htotal
  rw [List.length_append, List.length_singleton] at hledger
  have hnotices := books_of_notice (transition_run id total delay h)
  refine
    { shown := fun p hp => hledger.accounted htotal hcons.balanced ?_
      connections_le := hledger.connections_le
      reads_le := hledger.reads_le
      timers_le := hledger.timers_le
      refused := ?_ }
  · rcases List.mem_append.1 hp with hp | hp
    · obtain ⟨n, hn, rfl⟩ := List.mem_map.1 hp
      exact hnotices n hn
    · rw [List.mem_singleton.1 hp]
  · rintro conn r rfl ho hr
    exact errored_iff_taken_eq_none (consistent_run id total delay h.init) (isOpen_iff.1 ho) hr

theorem accounts_run_of_ack :
    OpensOnce [.start, .channelOpened ⟨1⟩, .record ⟨1⟩ (.uploadConfig ⟨4, 2, 2⟩),
      .chunkRead ⟨1⟩ (.ok ⟨#[1, 2, 3, 4]⟩), .record ⟨1⟩ (.chunkAck 4)] ∧
    ∀ p ∈ (((new "upload" 10 500).run [.start, .channelOpened ⟨1⟩,
        .record ⟨1⟩ (.uploadConfig ⟨4, 2, 2⟩), .chunkRead ⟨1⟩ (.ok ⟨#[1, 2, 3, 4]⟩)]).session.step
          (.record ⟨1⟩ (.chunkAck 4))).shown, p.acked = 6 :=
  ⟨by decide, fun p hp =>
    ((accounts_run "upload" 10 500 [.start, .channelOpened ⟨1⟩,
      .record ⟨1⟩ (.uploadConfig ⟨4, 2, 2⟩), .chunkRead ⟨1⟩ (.ok ⟨#[1, 2, 3, 4]⟩)]
      (.record ⟨1⟩ (.chunkAck 4)) (by decide)).shown p hp).acked_eq⟩

end Session

end ResumableUpload
