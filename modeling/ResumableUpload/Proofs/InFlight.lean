import Mathlib.Algebra.BigOperators.Group.List.Basic
import ResumableUpload.Proofs.Accounting
import ResumableUpload.Proofs.ChunkStream
import ResumableUpload.Proofs.Completion

/-!
# What is in flight

The window counts the chunks in flight and their bytes apart, and it refuses an acknowledgement
that one of the two counts does not allow for. Both counts agree with what was acknowledged on the
connection. They agree with each other if the acknowledgements name the sizes of the chunks; one of
fewer bytes is taken as well, and may leave a session with bytes in flight and no chunk that
could be acknowledged.

* `Wire.UploadParams.Admissible` : parameters as `Wire.ServerRecord.decode` lets them through.
* `Session.acksOn` : the acknowledgements that a run takes on a connection.
* `Session.Flight` : how these and the chunks handed to the channel determine the counts.
* `Session.inFlight_run` : when the counts agree, and when a transfer comes to a standstill.
-/

namespace ResumableUpload

namespace Wire

/-- Parameters with which an upload can make progress. -/
structure UploadParams.Admissible (params : UploadParams) : Prop where
  chunkSize : 1024 ≤ params.chunkSize.toNat
  sendAhead : 1 ≤ params.sendAhead.toNat

instance : DecidablePred UploadParams.Admissible := fun params =>
  decidable_of_iff (1024 ≤ params.chunkSize.toNat ∧ 1 ≤ params.sendAhead.toNat)
    ⟨fun h => ⟨h.1, h.2⟩, fun h => ⟨h.1, h.2⟩⟩

/-- Nothing else is let through. -/
theorem ServerRecord.admissible_of_params {kb : UInt64} {pos : Int64} {ahead : UInt32}
    {p : UploadParams} (h : ServerRecord.params kb pos ahead = .ok p) : p.Admissible := by
  unfold ServerRecord.params at h
  split at h
  · cases h
  · split at h
    · cases h
    · split at h
      · cases h
      · split at h
        · rename_i hkb hahead _ _ _ hfit
          obtain rfl := Except.ok.inj h
          have hkb' : kb.toNat ≠ 0 := fun he => hkb (UInt64.toNat_inj.1 he)
          have hahead' : ahead.toNat ≠ 0 := fun he => hahead (UInt32.toNat_inj.1 he)
          have hmul : (kb * chunkUnit).toNat = kb.toNat * 1024 := by
            rw [UInt64.toNat_mul, Nat.mod_eq_of_lt hfit]
            rfl
          exact ⟨by simp only [hmul]; omega, by simp only; omega⟩
        · cases h

theorem ServerRecord.admissible_of_ofPayload {payload : Payload} {p : UploadParams}
    (h : ServerRecord.ofPayload payload = .ok (.uploadConfig p)) : p.Admissible := by
  cases payload with
  | uploadConf kb pos ahead =>
    cases hp : ServerRecord.params kb pos ahead with
    | error e => simp [ServerRecord.ofPayload, hp, Except.map] at h
    | ok q =>
      obtain rfl : q = p := by simpa [ServerRecord.ofPayload, hp, Except.map] using h
      exact admissible_of_params hp
  | chunkAck n =>
    cases hn : toCount "ChunkSize" n <;> simp [ServerRecord.ofPayload, hn, Except.map] at h
  | ack ok => cases ok <;> simp [ServerRecord.ofPayload] at h
  | _ => simp [ServerRecord.ofPayload] at h

theorem ServerRecord.admissible_of_decode {text : String} {p : UploadParams}
    (h : ServerRecord.decode text = .ok (.uploadConfig p)) : p.Admissible := by
  unfold ServerRecord.decode at h
  cases he : openEnvelope text with
  | error e => simp [he, bind, Except.bind] at h
  | ok envelope =>
    simp only [he, bind, Except.bind] at h
    split at h
    · cases hp : openPayload envelope with
      | error e => simp [hp] at h
      | ok payload =>
        simp only [hp] at h
        exact admissible_of_ofPayload h
    · cases h

end Wire

/-- The parameters that an input announces. -/
def Input.params? : Input → Option Wire.UploadParams
  | record _ r => r.params?
  | _ => none

/-- Every announcement is one that `Wire.ServerRecord.decode` lets through. -/
def Admissible (is : List Input) : Prop :=
  ∀ params ∈ is.filterMap Input.params?, params.Admissible

instance (is : List Input) : Decidable (Admissible is) :=
  inferInstanceAs (Decidable (∀ params ∈ is.filterMap Input.params?, params.Admissible))

theorem Tiles.pos {chunkSize total offset : Nat} {ranges : List ByteRange}
    (h : Tiles chunkSize total offset ranges) (hsize : 0 < chunkSize) :
    ∀ range ∈ ranges, 0 < range.length := by
  induction ranges generalizing offset with
  | nil => simp
  | cons first ranges ih =>
    obtain ⟨-, hlt, hlength, htail⟩ := h
    intro range hmem
    rcases List.mem_cons.1 hmem with rfl | hmem
    · omega
    · exact ih htail range hmem

namespace Session

open Reaction (quiet ask tell)
open Wire (ServerRecord UploadParams)

/-- The bytes that an input acknowledges on a connection, if the session takes it. -/
def ackedOn (s : Session) (c : ConnectionId) : Input → Option Nat
  | .record conn (.chunkAck size) =>
    if conn = c ∧ s.isOpen c ∧ s.Accepts (.chunkAck size) then some size.toNat else none
  | _ => none

/-- The sizes that a run takes as acknowledged on a connection, in order. -/
def acksOn (s : Session) (c : ConnectionId) : List Input → List Nat
  | [] => []
  | i :: is => (s.ackedOn c i).toList ++ (s.step i).session.acksOn c is

theorem acksOn_concat (s : Session) (c : ConnectionId) (is : List Input) (i : Input) :
    s.acksOn c (is ++ [i]) = s.acksOn c is ++ ((s.run is).session.ackedOn c i).toList := by
  induction is generalizing s with
  | nil => simp [acksOn, run]
  | cons j is ih => simp [acksOn, ih, run]

/-- The counts that an acknowledgement or a chunk changes. -/
structure Counts where
  connections : Nat
  chunksSent : Nat
  chunksAcked : Nat
  sent : Nat
  acked : Nat
  deriving DecidableEq, Repr

/-- The counts of a session. -/
def counts (s : Session) : Counts := ⟨s.connections, s.chunksSent, s.chunksAcked, s.sent, s.acked⟩

/-- The sizes of the chunks handed to a channel, and those acknowledged on it, determine the counts
while the channel is the latest. -/
structure Flight (c : ConnectionId) (sizes acks : List Nat) (s : Session) : Prop where
  fresh : s.connections < c.number → sizes = [] ∧ acks = []
  chunksSent_eq : c.number = s.connections → s.chunksSent = sizes.length
  chunksAcked_eq : c.number = s.connections → s.chunksAcked = acks.length
  sent_eq : c.number = s.connections → s.sent + acks.sum = s.acked + sizes.sum

variable {s s' : Session} {c conn : ConnectionId} {i : Input} {r : Reaction} {sizes acks : List Nat}

/-! ### What an input acknowledges -/

theorem ackedOn_of_accepts {size : UInt64} (hc : s.channel = some ⟨conn, true⟩)
    (hr : s.Accepts (.chunkAck size)) :
    s.ackedOn c (.record conn (.chunkAck size)) = if conn = c then some size.toNat else none := by
  by_cases hcc : conn = c
  · subst hcc
    simp [ackedOn, isOpen_iff.2 hc, hr]
  · simp [ackedOn, hcc]

theorem ackedOn_of_not_accepts {r : ServerRecord} (hr : ¬s.Accepts r) :
    s.ackedOn c (.record conn r) = none := by
  cases r with
  | chunkAck size => exact if_neg fun h => hr h.2.2
  | _ => rfl

theorem ackedOn_of_ignores (hi : s.Ignores i) : s.ackedOn c i = none := by
  cases i with
  | record conn r =>
    have hclosed : s.isOpen conn = false := hi
    cases r with
    | chunkAck size =>
      refine if_neg ?_
      rintro ⟨rfl, ho, -⟩
      simp [hclosed] at ho
    | _ => rfl
  | _ => rfl

/-! ### What a transition does to the counts -/

theorem requestNextChunk_counts : s.requestNextChunk.session.counts = s.counts := by
  rw [requestNextChunk_session]
  rfl

namespace Flight

theorem kept (h : s.Flight c sizes acks) (ht : s'.counts = s.counts) : s'.Flight c sizes acks := by
  obtain ⟨hconn, hsent, hacked, hs, ha⟩ := Counts.mk.injEq .. ▸ ht
  exact
    { fresh := by rw [hconn]; exact h.fresh
      chunksSent_eq := by rw [hconn, hsent]; exact h.chunksSent_eq
      chunksAcked_eq := by rw [hconn, hacked]; exact h.chunksAcked_eq
      sent_eq := by rw [hconn, hs, ha]; exact h.sent_eq }

theorem of_kept (h : s.Flight c sizes acks) (ht : r.session.counts = s.counts)
    (he : chunksOn c r.effects = []) (ha : s.ackedOn c i = none) :
    r.session.Flight c (sizes ++ sizesOn c r.effects) (acks ++ (s.ackedOn c i).toList) := by
  rw [sizesOn, he, ha, List.map_nil, Option.toList_none, List.append_nil, List.append_nil]
  exact h.kept ht

theorem reconnected (h : s.Flight c sizes acks) : s.reconnected.Flight c sizes acks := by
  have hnil (hc : c.number = s.reconnected.connections) : sizes = [] ∧ acks = [] :=
    h.fresh (by rw [hc]; exact Nat.lt_succ_self _)
  exact
    { fresh := fun hc => h.fresh (Nat.lt_of_succ_lt hc)
      chunksSent_eq := fun hc => by rw [(hnil hc).1]; rfl
      chunksAcked_eq := fun hc => by rw [(hnil hc).2]; rfl
      sent_eq := fun hc => by rw [(hnil hc).1, (hnil hc).2]; rfl }

/-- Before the parameters are announced nothing is counted on the connection. -/
theorem announced (h : s.Flight c sizes acks) (hs : s.Consistent) (ha : s.AwaitsParams)
    {offset : Nat} (ht : s'.counts = { s.counts with sent := offset, acked := offset }) :
    s'.Flight c sizes acks := by
  obtain ⟨hconn, hsent, hacked, hs', ha'⟩ := Counts.mk.injEq .. ▸ ht
  obtain ⟨-, hnone, hnone'⟩ := hs.unsent ha
  exact
    { fresh := by rw [hconn]; exact h.fresh
      chunksSent_eq := by rw [hconn, hsent]; exact h.chunksSent_eq
      chunksAcked_eq := by rw [hconn, hacked]; exact h.chunksAcked_eq
      sent_eq := fun hc => by
        rw [hconn] at hc
        rw [h.chunksSent_eq hc, List.length_eq_zero_iff] at hnone
        rw [h.chunksAcked_eq hc, List.length_eq_zero_iff] at hnone'
        rw [hs', ha', hnone, hnone'] }

/-- What is counted on the open channel is counted on the latest one. -/
theorem counted (h : s.Flight c sizes acks) (hs : s.Consistent)
    (hc : s.channel = some ⟨conn, true⟩) {t : Session} {n m : List Nat}
    (ht : t.counts = ⟨s.connections, s.chunksSent + n.length, s.chunksAcked + m.length,
      s.sent + n.sum, s.acked + m.sum⟩) :
    t.Flight c (sizes ++ if conn = c then n else []) (acks ++ if conn = c then m else []) := by
  obtain ⟨hconn, hsent, hacked, hs', ha'⟩ := Counts.mk.injEq .. ▸ ht
  have hlatest : conn.number = s.connections := hs.channel_latest ⟨conn, true⟩ hc
  by_cases hcc : conn = c
  · subst hcc
    rw [if_pos rfl, if_pos rfl]
    have hsum := h.sent_eq hlatest
    constructor
    · intro hlt
      omega
    · intro _
      rw [hsent, h.chunksSent_eq hlatest, List.length_append]
    · intro _
      rw [hacked, h.chunksAcked_eq hlatest, List.length_append]
    · intro _
      rw [hs', ha', List.sum_append, List.sum_append]
      omega
  · have hne : c.number ≠ t.connections := by
      rw [hconn, ← hlatest]
      exact fun he => hcc (ConnectionId.ext he.symm)
    rw [if_neg hcc, if_neg hcc, List.append_nil, List.append_nil]
    exact
      { fresh := by rw [hconn]; exact h.fresh
        chunksSent_eq := fun hc => absurd hc hne
        chunksAcked_eq := fun hc => absurd hc hne
        sent_eq := fun hc => absurd hc hne }

theorem acknowledged (h : s.Flight c sizes acks) (hs : s.Consistent)
    (hc : s.channel = some ⟨conn, true⟩) {size : UInt64} (hr : s.Accepts (.chunkAck size))
    (ht : r.session.counts = (s.acknowledged size.toNat).counts)
    (he : chunksOn c r.effects = []) :
    r.session.Flight c (sizes ++ sizesOn c r.effects)
      (acks ++ (s.ackedOn c (.record conn (.chunkAck size))).toList) := by
  have hcounted := h.counted hs hc (t := r.session) (n := []) (m := [size.toNat]) (by rw [ht]; rfl)
  rw [sizesOn, he, ackedOn_of_accepts hc hr]
  by_cases hcc : conn = c <;> simpa [hcc] using hcounted

/-- **The counts follow what is handed to the channel and what is acknowledged on it.** -/
theorem of_transition (h : s.Flight c sizes acks) (hs : s.Consistent) (ht : s.Transition i r) :
    r.session.Flight c (sizes ++ sizesOn c r.effects) (acks ++ (s.ackedOn c i).toList) := by
  cases ht with
  | ignored hi => exact h.of_kept rfl rfl (ackedOn_of_ignores hi)
  | restarted | unpaused | retried =>
    simpa [sizesOn, ackedOn, Effect.chunkOn?] using h.reconnected
  | opened | cancelSent | serverFailed | readFailed | errorNoted =>
    exact h.of_kept rfl (by simp [Effect.chunkOn?]) rfl
  | suspended => exact h.of_kept rfl (by simp) rfl
  | violated v hc hr =>
    exact h.of_kept (by simp [violate, released, counts]) (by simp [violate])
      (ackedOn_of_not_accepts hr)
  | cancelledOffline | cancelConfirmed | serverCancelled | undecodable | finished
  | failedCompleting | failedUncancelled | lost | cancelLost =>
    refine h.of_kept ?_ ?_ rfl
    · simp [finishCancel, onServerCancel, violate, endWith, released, awaitRetry_eq, abandonCancel,
        endRead, counts]
    · simp [finishCancel, onServerCancel, violate, endWith, awaitRetry_eq, abandonCancel,
        Effect.chunkOn?]
  | configNoted hp hc hr | configCompletes hp hc hr =>
    simpa [sizesOn, ackedOn, Effect.chunkOn?] using h.announced hs (.inr hr.1) rfl
  | configBegins hp hc hr =>
    simpa [sizesOn, ackedOn, Effect.chunkOn?] using
      h.announced hs (.inr hr.1) requestNextChunk_counts
  | ackNoted hp hc hr => exact h.acknowledged hs hc hr rfl rfl
  | ackCompletes hp hc hr => exact h.acknowledged hs hc hr rfl rfl
  | ackContinues hp hc hr => exact h.acknowledged hs hc hr requestNextChunk_counts (by simp)
  | @sent conn read range data hr hc hd =>
    rw [sendChunk_endRead]
    have hcounted := h.counted hs hc (n := [data.size]) (m := [])
      (t := (s.chunkSent data.size).requestNextChunk.session)
      (by rw [requestNextChunk_counts]; rfl)
    by_cases hcc : conn = c <;>
      simpa [hcc, sizesOn, ackedOn, Effect.chunkOn?] using hcounted

end Flight

theorem flight_run (id : String) (total : UInt64) (delay : Nat) (c : ConnectionId) {is : List Input}
    (h : OpensOnce is) :
    ((new id total delay).run is).session.Flight c (sizesOn c ((new id total delay).run is).effects)
      ((new id total delay).acksOn c is) := by
  refine run_induction id total delay
    (P := fun is r => r.session.Flight c (sizesOn c r.effects) ((new id total delay).acksOn c is))
    ?_ ?_ h
  · exact ⟨fun _ => ⟨rfl, rfl⟩, fun _ => rfl, fun _ => rfl, fun _ => rfl⟩
  · rintro is i _ rfl hcons htimely hflight
    have hstep := hflight.of_transition hcons (transition hcons htimely)
    rw [acksOn_concat, Reaction.andThen_effects, sizesOn, chunksOn_append, List.map_append]
    exact hstep

/-! ### Chunks are not empty -/

/-- Parameters that are taken were announced. -/
theorem mem_of_paramsOn {params : UploadParams} {is : List Input}
    (h : s.paramsOn c is = some params) : .record c (.uploadConfig params) ∈ is := by
  induction is generalizing s with
  | nil => cases h
  | cons i is ih =>
    rcases Option.or_eq_some_iff.1 h with h | ⟨-, h⟩
    · exact List.mem_cons_of_mem _ (ih h)
    · unfold announcedOn at h
      split at h
      · obtain ⟨⟨rfl, -⟩, he⟩ := Option.ite_none_right_eq_some.1 h
        obtain rfl := Option.some.inj he
        exact List.mem_cons_self
      · cases h

theorem mem_of_takenRecords {is : List Input} {r : ServerRecord} (h : r ∈ s.takenRecords is) :
    ∃ conn, .record conn r ∈ is := by
  induction is generalizing s with
  | nil => cases h
  | cons i is ih =>
    rcases List.mem_append.1 h with h | h
    · rw [Option.mem_toList] at h
      unfold taken at h
      split at h
      · obtain ⟨-, h⟩ := Option.ite_none_right_eq_some.1 h
        obtain rfl := Option.some.inj h
        exact ⟨_, List.mem_cons_self⟩
      · cases h
    · obtain ⟨conn, hmem⟩ := ih h
      exact ⟨conn, List.mem_cons_of_mem _ hmem⟩

theorem sizesOn_pos (id : String) (total : UInt64) (delay : Nat) (c : ConnectionId)
    {is : List Input} (h : OpensOnce is) (hadm : Admissible is) :
    ∀ n ∈ sizesOn c ((new id total delay).run is).effects, 0 < n := by
  have hstreams := streamsOn_run id total delay h c
  intro n hn
  rw [sizesOn, chunksOn_run id total delay h] at hn
  obtain ⟨data, hdata, rfl⟩ := List.mem_map.1 hn
  obtain ⟨d, hd, rfl⟩ := List.mem_map.1 hdata
  cases hparams : (new id total delay).paramsOn c is with
  | none => simp [hstreams.unannounced hparams] at hd
  | some params =>
    have hsize := (hadm params (List.mem_filterMap.2 ⟨_, mem_of_paramsOn hparams, rfl⟩)).chunkSize
    rw [hstreams.sizes d hd]
    exact (hstreams.tiles params hparams).pos (by omega) d.range (List.mem_map_of_mem hd)

/-! ### Standstill -/

theorem limit_pos (id : String) (total : UInt64) (delay : Nat) {is : List Input}
    (h : OpensOnce is) (hadm : Admissible is) {w : Window}
    (hw : ((new id total delay).run is).session.window = some w) : 0 < w.limit := by
  have hterms := congrArg Wire.Terms.limit (ledger_run id total delay h).terms_eq
  simp only [terms, hw, Option.map_some, Wire.termsOf] at hterms
  obtain ⟨params, hlast, hlimit⟩ := Option.map_eq_some_iff.1 hterms.symm
  obtain ⟨r, hr, hparams⟩ := List.mem_filterMap.1 (List.mem_of_getLast? hlast)
  obtain ⟨conn, hmem⟩ := mem_of_takenRecords hr
  have hahead := (hadm params (List.mem_filterMap.2 ⟨_, hmem, hparams⟩)).sendAhead
  omega

/-- A transfer that has not come to its end has bytes left that are not acknowledged. -/
theorem acked_lt_of_transition (h : s.Consistent)
    (hs : s.phase = .transferring → s.acked < s.total.toNat) (ht : s.Transition i r) :
    r.session.phase = .transferring → r.session.acked < r.session.total.toNat := by
  have htotal := total_of_transition ht
  rw [htotal]
  cases ht with
  | ignored => exact hs
  | configBegins _ _ _ hlt =>
    intro _
    simpa [configured] using UInt64.lt_iff_toNat_lt.1 hlt
  | ackContinues hp _ hr hne =>
    have hb := (h.acknowledged hr).balanced
    have hle := hb.sent_le_total
    have hsent := hb.sent_eq
    simp only [Snapshot.books, snapshot, acknowledged] at hle hsent
    intro _
    simp only [Reaction.andThen_session, Reaction.tell_session, requestNextChunk_acked,
      acknowledged]
    omega
  | sent hr =>
    rw [sendChunk_endRead]
    simpa [chunkSent] using fun _ => hs (h.read _ _ hr).1
  | lost => simpa [awaitRetry_eq, endRead] using hs
  | errorNoted hp | configNoted hp | ackNoted hp =>
    intro hp'
    simp [configured, acknowledged, hp] at hp'
  | _ =>
    intro hp'
    simp [reconnected, suspended, cancelling, finishCancel, onServerCancel, violate, endWith,
      released, abandonCancel] at hp'

theorem acked_lt_run (id : String) (total : UInt64) (delay : Nat) {is : List Input}
    (h : OpensOnce is) :
    ((new id total delay).run is).session.phase = .transferring →
      ((new id total delay).run is).session.acked <
        ((new id total delay).run is).session.total.toNat := by
  refine run_induction id total delay
    (P := fun _ r => r.session.phase = .transferring → r.session.acked < r.session.total.toNat)
    (fun hp => by cases hp) ?_ h
  intro _ _ _ _ hcons htimely hlt
  have hstep := acked_lt_of_transition hcons hlt (transition hcons htimely)
  exact hstep

/-- The session transfers and nothing can move it on: it waits for no read, and refuses every
acknowledgement. -/
def AtStandstill (s : Session) : Prop :=
  s.phase = .transferring ∧ s.pendingRead = none ∧ ∀ size, ¬s.Accepts (.chunkAck size)

/-- What is in flight on the open channel, given the sizes of the chunks handed to it and those
acknowledged on it. -/
structure InFlight (s : Session) (sizes acks : List Nat) : Prop where
  chunks_eq : s.snapshot.chunksInFlight + acks.length = sizes.length
  bytes_eq : s.snapshot.bytesInFlight + acks.sum = sizes.sum
  /-- As many acknowledgements as chunks of the whole file were taken, and bytes are missing. -/
  standstill_iff : s.AtStandstill ↔
    s.phase = .transferring ∧ s.sent = s.total.toNat ∧ acks.length = sizes.length
  /-- Acknowledgements that name the chunks in order leave no bytes in flight without a chunk. -/
  empty_iff : acks <+: sizes → (s.snapshot.chunksInFlight = 0 ↔ s.snapshot.bytesInFlight = 0)
  /-- Then either a read is pending or the oldest chunk can be acknowledged. -/
  progress : acks <+: sizes → s.phase = .transferring → s.pendingRead = none →
    ∃ size rest, sizes.drop acks.length = UInt64.toNat size :: rest ∧ s.Accepts (.chunkAck size)

section InFlight

variable (hs : s.Consistent) (hf : s.Flight c sizes acks) (hc : s.isOpen c = true)
  (he : s.Engaged) (hlimit : ∀ w, s.window = some w → 0 < w.limit)
  (hacked : s.phase = .transferring → s.acked < s.total.toNat) (hpos : ∀ n ∈ sizes, 0 < n)

include hs hc

include he hlimit in
/-- Without chunks in flight and without a pending read, everything was sent. -/
theorem sent_of_idle (hp : s.phase = .transferring) (hr : s.pendingRead = none)
    (hchunks : s.snapshot.chunksInFlight = 0) : s.sent = s.total.toNat := by
  obtain ⟨w, hw⟩ := Option.isSome_iff_exists.1 (hs.announced (by simp [handler, hp]))
  have hopen : s.openConnection.isSome = true := by
    rw [openConnection_eq_some_iff.2 (isOpen_iff.1 hc), Option.isSome_some]
  have hpos := hlimit w hw
  have hle : s.sent ≤ s.total.toNat := hs.balanced.sent_le_total
  simp only [snapshot, hw, Option.map_some, Option.getD_some] at hchunks
  rcases he hp hopen hr w hw with hfull | hend
  · omega
  · omega

include hf

theorem chunksInFlight_eq : s.snapshot.chunksInFlight + acks.length = sizes.length := by
  have hlatest : c.number = s.connections := hs.channel_latest _ (isOpen_iff.1 hc)
  have hchunks : s.chunksSent = s.chunksAcked + s.snapshot.chunksInFlight :=
    hs.balanced.chunksSent_eq
  rw [hf.chunksSent_eq hlatest, hf.chunksAcked_eq hlatest] at hchunks
  omega

theorem bytesInFlight_eq : s.snapshot.bytesInFlight + acks.sum = sizes.sum := by
  have hlatest : c.number = s.connections := hs.channel_latest _ (isOpen_iff.1 hc)
  have hbytes : s.sent = s.acked + s.snapshot.bytesInFlight := hs.balanced.sent_eq
  have hsum := hf.sent_eq hlatest
  omega

include he hlimit in
/-- An acknowledgement of no bytes is refused only if no chunk is in flight. -/
theorem atStandstill_iff : s.AtStandstill ↔
    s.phase = .transferring ∧ s.sent = s.total.toNat ∧ acks.length = sizes.length := by
  have hchunks := chunksInFlight_eq hs hf hc
  constructor
  · rintro ⟨hp, hr, hrefused⟩
    have hnone : s.snapshot.chunksInFlight = 0 := by
      have hzero := hrefused 0
      simp only [Accepts, handler, hp] at hzero
      by_contra hne
      exact hzero ⟨rfl, Nat.pos_of_ne_zero hne, Nat.zero_le _⟩
    exact ⟨hp, sent_of_idle hs hc he hlimit hp hr hnone, by omega⟩
  · rintro ⟨hp, hsent, hlength⟩
    refine ⟨hp, ?_, fun size hr => ?_⟩
    · by_contra hne
      obtain ⟨⟨read, range⟩, hr⟩ := Option.ne_none_iff_exists'.1 hne
      have := (hs.read _ _ hr).2.2.1
      omega
    · have := hr.2.1
      omega

include hpos in
/-- The chunks that are left are not empty. -/
theorem inFlight_empty_iff (hpre : acks <+: sizes) :
    s.snapshot.chunksInFlight = 0 ↔ s.snapshot.bytesInFlight = 0 := by
  obtain ⟨rest, rfl⟩ := hpre
  have hchunks := chunksInFlight_eq hs hf hc
  have hbytes := bytesInFlight_eq hs hf hc
  have hle := List.length_le_sum_of_one_le rest fun n hn => hpos n (List.mem_append_right _ hn)
  rw [List.length_append] at hchunks
  rw [List.sum_append] at hbytes
  constructor
  · intro hnone
    have hrest : rest = [] := List.length_eq_zero_iff.1 (by omega)
    rw [hrest, List.sum_nil] at hbytes
    omega
  · intro hnone
    omega

include he hlimit hacked in
theorem ack_of_idle (hpre : acks <+: sizes) (hp : s.phase = .transferring)
    (hr : s.pendingRead = none) :
    ∃ size rest, sizes.drop acks.length = UInt64.toNat size :: rest ∧
      s.Accepts (.chunkAck size) := by
  have hchunks := chunksInFlight_eq hs hf hc
  have hbytes := bytesInFlight_eq hs hf hc
  have hb : s.sent = s.acked + s.snapshot.bytesInFlight := hs.balanced.sent_eq
  have hle : s.sent ≤ s.total.toNat := hs.balanced.sent_le_total
  obtain ⟨rest, rfl⟩ := hpre
  rw [List.drop_left]
  cases rest with
  | nil =>
    -- nothing is in flight, so that every byte would be acknowledged
    rw [List.append_nil] at hchunks hbytes
    have hsent := sent_of_idle hs hc he hlimit hp hr (by omega)
    have := hacked hp
    omega
  | cons n rest =>
    rw [List.length_append, List.length_cons] at hchunks
    rw [List.sum_append, List.sum_cons] at hbytes
    have htotal := s.total.toNat_lt
    have hn : (UInt64.ofNat n).toNat = n := UInt64.toNat_ofNat_of_lt' (show n < 2 ^ 64 by omega)
    exact ⟨.ofNat n, rest, by rw [hn], by simp [handler, hp], by omega, by omega⟩

end InFlight

/-- **The counts of what is in flight follow from the chunks and their acknowledgements.** They
leave a transfer at a standstill exactly if as many acknowledgements as chunks were taken for the
whole file and yet not every byte is acknowledged; and never if the acknowledgements name the
chunks. -/
theorem inFlight_run (id : String) (total : UInt64) (delay : Nat) {is : List Input}
    (h : OpensOnce is) (hadm : Admissible is)
    (hc : ((new id total delay).run is).session.isOpen c = true) :
    ((new id total delay).run is).session.InFlight
      (sizesOn c ((new id total delay).run is).effects) ((new id total delay).acksOn c is) := by
  have hs := consistent_run id total delay h
  have hf := flight_run id total delay c h
  have he := engaged_run id total delay h
  have hlimit := fun w => limit_pos id total delay h hadm (w := w)
  have hacked := acked_lt_run id total delay h
  have hpos := sizesOn_pos id total delay c h hadm
  exact
    { chunks_eq := chunksInFlight_eq hs hf hc
      bytes_eq := bytesInFlight_eq hs hf hc
      standstill_iff := atStandstill_iff hs hf hc he hlimit
      empty_iff := inFlight_empty_iff hs hf hc hpos
      progress := ack_of_idle hs hf hc he hlimit hacked }

/-- The one chunk of a file of four bytes is acknowledged with one byte. -/
theorem inFlight_run_of_short_ack :
    OpensOnce [.start, .channelOpened ⟨1⟩, .record ⟨1⟩ (.uploadConfig ⟨1024, 0, 1⟩),
      .chunkRead ⟨1⟩ (.ok ⟨#[0, 1, 2, 3]⟩), .record ⟨1⟩ (.chunkAck 1)] ∧
    Admissible [.start, .channelOpened ⟨1⟩, .record ⟨1⟩ (.uploadConfig ⟨1024, 0, 1⟩),
      .chunkRead ⟨1⟩ (.ok ⟨#[0, 1, 2, 3]⟩), .record ⟨1⟩ (.chunkAck 1)] ∧
    ((new "upload" 4 500).run [.start, .channelOpened ⟨1⟩,
      .record ⟨1⟩ (.uploadConfig ⟨1024, 0, 1⟩), .chunkRead ⟨1⟩ (.ok ⟨#[0, 1, 2, 3]⟩),
      .record ⟨1⟩ (.chunkAck 1)]).session.isOpen ⟨1⟩ = true ∧
    ((new "upload" 4 500).run [.start, .channelOpened ⟨1⟩,
      .record ⟨1⟩ (.uploadConfig ⟨1024, 0, 1⟩), .chunkRead ⟨1⟩ (.ok ⟨#[0, 1, 2, 3]⟩),
      .record ⟨1⟩ (.chunkAck 1)]).session.InFlight [4] [1] := by
  have hopens : OpensOnce [.start, .channelOpened ⟨1⟩,
      .record ⟨1⟩ (.uploadConfig ⟨1024, 0, 1⟩), .chunkRead ⟨1⟩ (.ok ⟨#[0, 1, 2, 3]⟩),
      .record ⟨1⟩ (.chunkAck 1)] := by decide
  exact ⟨hopens, by decide, by decide,
    inFlight_run "upload" 4 500 (c := ⟨1⟩) hopens (by decide) (by decide)⟩

/-- The one chunk of a file of four bytes is acknowledged with none: the bytes stay in flight, and
nothing can come that would free them. -/
theorem atStandstill_of_empty_ack :
    OpensOnce [.start, .channelOpened ⟨1⟩, .record ⟨1⟩ (.uploadConfig ⟨1024, 0, 1⟩),
      .chunkRead ⟨1⟩ (.ok ⟨#[0, 1, 2, 3]⟩), .record ⟨1⟩ (.chunkAck 0)] ∧
    Admissible [.start, .channelOpened ⟨1⟩, .record ⟨1⟩ (.uploadConfig ⟨1024, 0, 1⟩),
      .chunkRead ⟨1⟩ (.ok ⟨#[0, 1, 2, 3]⟩), .record ⟨1⟩ (.chunkAck 0)] ∧
    ((new "upload" 4 500).run [.start, .channelOpened ⟨1⟩,
      .record ⟨1⟩ (.uploadConfig ⟨1024, 0, 1⟩),
      .chunkRead ⟨1⟩ (.ok ⟨#[0, 1, 2, 3]⟩)]).session.Accepts (.chunkAck 0) ∧
    ((new "upload" 4 500).run [.start, .channelOpened ⟨1⟩,
      .record ⟨1⟩ (.uploadConfig ⟨1024, 0, 1⟩), .chunkRead ⟨1⟩ (.ok ⟨#[0, 1, 2, 3]⟩),
      .record ⟨1⟩ (.chunkAck 0)]).session.AtStandstill ∧
    (fun p : Snapshot => (p.connected, p.chunksInFlight, p.bytesInFlight, p.canCancel, p.error))
      ((new "upload" 4 500).run [.start, .channelOpened ⟨1⟩,
        .record ⟨1⟩ (.uploadConfig ⟨1024, 0, 1⟩), .chunkRead ⟨1⟩ (.ok ⟨#[0, 1, 2, 3]⟩),
        .record ⟨1⟩ (.chunkAck 0)]).session.snapshot = (true, 0, 4, false, none) :=
  ⟨by decide, by decide, by decide,
    ⟨by decide, by decide, fun _ hr => absurd hr.2.1 (by decide)⟩, by decide⟩

end Session

end ResumableUpload
