import ResumableUpload.Proofs.Exchange

/-!
# Integrity across reconnects

Whenever connections are lost and whatever is lost with them, the server of an `Exchange` holds a
part of the file from its start, and the session does not take more for acknowledged than the server
holds.

* `Traffic.Sound` : the invariant that links the counters of the session, what is on its way and
  what is stored.
* `Exchange.integrity` : what it says about every exchange that can be reached.
-/

namespace ResumableUpload

open Wire (ServerRecord UploadParams)

/-- A file starts with these bytes. -/
def Starts (part file : ByteArray) : Prop := part = file.extract 0 part.size

namespace Starts

variable {a b file : ByteArray}

theorem empty (file : ByteArray) : Starts ByteArray.empty file := by
  simp [Starts]

theorem size_le (h : Starts a file) : a.size ≤ file.size := by
  have := congrArg ByteArray.size h
  rw [ByteArray.size_extract] at this
  omega

theorem of_append (h : Starts (a ++ b) file) : Starts a file := by
  have ha : a = (a ++ b).extract 0 a.size := (ByteArray.extract_append_eq_left rfl).symm
  calc a
    _ = (a ++ b).extract 0 a.size := ha
    _ = (file.extract 0 (a ++ b).size).extract 0 a.size := by rw [← h]
    _ = file.extract 0 a.size := by
      rw [ByteArray.extract_extract, ByteArray.size_append, Nat.zero_add, Nat.zero_add,
        Nat.min_eq_left (Nat.le_add_right _ _)]

theorem append (h : Starts a file) (hb : b = file.extract a.size (a.size + b.size)) :
    Starts (a ++ b) file := by
  rw [Starts, ByteArray.size_append]
  calc a ++ b
    _ = file.extract 0 a.size ++ file.extract a.size (a.size + b.size) := by rw [← h, ← hb]
    _ = file.extract 0 (a.size + b.size) :=
      (ByteArray.extract_eq_extract_append_extract _ (Nat.zero_le _) (Nat.le_add_right _ _)).symm

theorem eq_of_size_le (h : Starts a file) (hs : file.size ≤ a.size) : a = file := by
  have he : a.size = file.size := Nat.le_antisymm h.size_le hs
  rw [Starts, he, ByteArray.extract_zero_size] at h
  exact h

end Starts

namespace Traffic

/-- The parameters on their way to the session. -/
def announced (t : Traffic) (c : ConnectionId) : List UploadParams :=
  (t.down c).filterMap (·.params?)

/-- The sizes on their way to the session in acknowledgements. -/
def acks (t : Traffic) (c : ConnectionId) : List Nat := (t.down c).filterMap (·.ackSize?)

/-- No chunk was sent on a connection. -/
structure Unused (t : Traffic) (c : ConnectionId) : Prop where
  up : t.up c = []
  acks : t.acks c = []
  owed : t.owed c = []

/-- The invariant of an exchange. -/
structure Sound (file : ByteArray) (s : Session) (t : Traffic) : Prop where
  acked_le : s.acked ≤ t.store.size
  newest_le : t.newest ≤ s.connections
  /-- What the server has stored and is to store next is how the file starts. -/
  starts : Starts (t.store ++ joined (t.up ⟨t.newest⟩)) file
  unheard : ∀ c : ConnectionId, t.newest < c.number → t.Unused c ∧ t.announced c = []
  awaits : s.AwaitsParams → ∀ c : ConnectionId, c.number = s.connections → t.Unused c ∧
    ∀ p ∈ t.announced c, p.resumeOffset.toNat = t.store.size
  /-- What was stored on the connection over which the session transfers was either acknowledged to
  it, or is on its way or owed. -/
  transfers : s.Transfers → t.newest = s.connections ∧
    s.acked + (t.acks ⟨t.newest⟩).sum + (t.owed ⟨t.newest⟩).sum ≤ t.store.size ∧
    t.store.size + (joined (t.up ⟨t.newest⟩)).size = s.sent

variable {file : ByteArray} {s s' : Session} {t t' : Traffic}

theorem sound_empty (id : String) (total : UInt64) (delay : Nat) :
    Sound file (.new id total delay) empty where
  acked_le := Nat.le_refl 0
  newest_le := Nat.le_refl 0
  starts := .empty file
  unheard _ _ := ⟨⟨rfl, rfl, rfl⟩, rfl⟩
  awaits ha := by simp [Session.AwaitsParams, Session.handler, Session.new] at ha
  transfers ht := by simp [Session.Transfers, Session.handler, Session.new] at ht

/-! ### What is on its way -/

theorem announced_send (c : ConnectionId) (r : ServerRecord) :
    (t.send c r).announced = Function.update t.announced c (t.announced c ++ r.params?.toList) := by
  funext d
  by_cases hd : d = c
  · subst hd
    cases hp : r.params? <;> simp [announced, send, hp]
  · simp [announced, send, hd]

theorem acks_send (c : ConnectionId) (r : ServerRecord) :
    (t.send c r).acks = Function.update t.acks c (t.acks c ++ r.ackSize?.toList) := by
  funext d
  by_cases hd : d = c
  · subst hd
    cases ha : r.ackSize? <;> simp [acks, send, ha]
  · simp [acks, send, hd]

theorem announced_send_of_none {c : ConnectionId} {r : ServerRecord} (hp : r.params? = none) :
    (t.send c r).announced = t.announced := by
  simp [announced_send, hp]

theorem acks_send_of_none {c : ConnectionId} {r : ServerRecord} (ha : r.ackSize? = none) :
    (t.send c r).acks = t.acks := by
  simp [acks_send, ha]

/-- What is left of the records on their way ends as before. -/
theorem leaving_suffix {α : Type} {c : ConnectionId} {r : ServerRecord} {rs : List ServerRecord}
    (hx : t.down c = r :: rs) (f : ServerRecord → Option α) (d : ConnectionId) :
    ((t.leaving c rs).down d).filterMap f <:+ (t.down d).filterMap f := by
  by_cases hd : d = c
  · subst hd
    rw [hx, show (t.leaving d rs).down d = rs from Function.update_self ..]
    exact (List.suffix_cons r rs).filterMap f
  · have hdown : (t.leaving c rs).down d = t.down d := Function.update_of_ne hd ..
    simp only [hdown, List.suffix_rfl]

theorem Unused.send {c d : ConnectionId} {r : ServerRecord} (h : t.Unused d)
    (ha : r.ackSize? = none) : (t.send c r).Unused d where
  up := h.up
  acks := by rw [acks_send_of_none ha]; exact h.acks
  owed := h.owed

namespace Sound

/-! ### What the server does -/

theorem announces (h : t.Sound file s) {c : ConnectionId} {params : UploadParams}
    (hc : c.number ≤ s.connections) (hp : params.resumeOffset.toNat = t.store.size) :
    Sound file s { t.send c (.uploadConfig params) with newest := max t.newest c.number } := by
  have hacks := acks_send_of_none (t := t) (c := c) (r := .uploadConfig params) rfl
  have hannounced := t.announced_send c (.uploadConfig params)
  have hunused {d : ConnectionId} (hd : t.Unused d) :
      Unused { t.send c (.uploadConfig params) with newest := max t.newest c.number } d :=
    ⟨hd.up, (congrFun hacks d).trans hd.acks, hd.owed⟩
  refine
    { acked_le := h.acked_le
      newest_le := Nat.max_le.2 ⟨h.newest_le, hc⟩
      starts := ?_
      unheard := fun d hd => ?_
      awaits := fun ha d hd => ⟨hunused (h.awaits ha d hd).1, ?_⟩
      transfers := fun ht => ?_ }
  · rcases Nat.lt_or_ge t.newest c.number with hlt | hge
    -- chunks of the connection that was newest so far are not stored any more
    · have hup : t.up ⟨max t.newest c.number⟩ = [] :=
        (h.unheard _ (Nat.lt_of_lt_of_le hlt (Nat.le_max_right _ _))).1.up
      change Starts (t.store ++ joined (t.up ⟨max t.newest c.number⟩)) file
      simpa [hup] using h.starts.of_append
    · rw [Nat.max_eq_left hge]
      exact h.starts
  · obtain ⟨hnewest, hcd⟩ := Nat.max_lt.1 hd
    obtain ⟨hd, hnone⟩ := h.unheard d hnewest
    refine ⟨hunused hd, (congrFun hannounced d).trans ?_⟩
    rw [Function.update_of_ne (by rintro rfl; exact Nat.lt_irrefl _ hcd), hnone]
  · intro p hmem
    replace hmem : p ∈ (t.send c (.uploadConfig params)).announced d := hmem
    rw [hannounced] at hmem
    by_cases hdc : d = c
    · subst hdc
      rw [Function.update_self, List.mem_append] at hmem
      rcases hmem with hmem | hmem
      · exact (h.awaits ha d hd).2 p hmem
      · obtain rfl : p = params := by simpa [ServerRecord.params?] using hmem
        exact hp
    · rw [Function.update_of_ne hdc] at hmem
      exact (h.awaits ha d hd).2 p hmem
  · obtain ⟨hn, hle, hsent⟩ := h.transfers ht
    have hmax : max t.newest c.number = t.newest := Nat.max_eq_left (hn ▸ hc)
    rw [hmax]
    refine ⟨hn, ?_, hsent⟩
    change s.acked + ((t.send c (.uploadConfig params)).acks ⟨t.newest⟩).sum + _ ≤ _
    rw [hacks]
    exact hle

theorem stores (h : t.Sound file s) {c : ConnectionId} {chunk : ByteArray}
    {chunks : List ByteArray} (hc : c.number = t.newest) (hx : t.up c = chunk :: chunks) :
    Sound file s { t with
        store := t.store ++ chunk
        up := Function.update t.up c chunks
        owed := Function.update t.owed c (t.owed c ++ [chunk.size]) } := by
  obtain rfl : c = ⟨t.newest⟩ := ConnectionId.ext hc
  exact
    { acked_le := by
        have := h.acked_le
        simp only [ByteArray.size_append]
        omega
      newest_le := h.newest_le
      starts := by
        have hstarts := h.starts
        rw [hx, joined_cons, ← ByteArray.append_assoc] at hstarts
        simpa using hstarts
      unheard := fun d hd => by
        have hne : d ≠ ⟨t.newest⟩ := by rintro rfl; exact Nat.lt_irrefl _ hd
        obtain ⟨hunused, hannounced⟩ := h.unheard d hd
        exact ⟨⟨by simp [hne, hunused.up], hunused.acks, by simp [hne, hunused.owed]⟩, hannounced⟩
      awaits := fun ha d hd => by
        -- no chunk was sent on the connection of a session that awaits the parameters
        have hne : d ≠ ⟨t.newest⟩ := by
          rintro rfl
          simp [(h.awaits ha _ hd).1.up] at hx
        have hlt : t.newest < d.number :=
          Nat.lt_of_le_of_ne (hd ▸ h.newest_le) fun he => hne (ConnectionId.ext he.symm)
        obtain ⟨hunused, hannounced⟩ := h.unheard d hlt
        refine ⟨⟨by simp [hne, hunused.up], hunused.acks, by simp [hne, hunused.owed]⟩, ?_⟩
        change ∀ p ∈ t.announced d, _
        simp [hannounced]
      transfers := fun ht => by
        obtain ⟨hn, hle, hsent⟩ := h.transfers ht
        have hjoined : (joined (t.up ⟨t.newest⟩)).size = chunk.size + (joined chunks).size := by
          rw [hx, joined_cons, ByteArray.size_append]
        refine ⟨hn, ?_, ?_⟩
        · change s.acked + (t.acks ⟨t.newest⟩).sum + _ ≤ _
          simp only [Function.update_self, List.sum_append, List.sum_singleton,
            ByteArray.size_append]
          omega
        · simp only [Function.update_self, ByteArray.size_append]
          omega }

theorem ignores (h : t.Sound file s) {c : ConnectionId} {chunk : ByteArray}
    {chunks : List ByteArray} (hc : c.number ≠ t.newest) (hx : t.up c = chunk :: chunks) :
    Sound file s { t with up := Function.update t.up c chunks } := by
  have hup : Function.update t.up c chunks ⟨t.newest⟩ = t.up ⟨t.newest⟩ :=
    Function.update_of_ne (by rintro rfl; exact hc rfl) _ _
  have hunused {d : ConnectionId} (hd : t.Unused d) :
      Unused { t with up := Function.update t.up c chunks } d := by
    have hne : d ≠ c := by rintro rfl; simp [hd.up] at hx
    exact ⟨by simp [hne, hd.up], hd.acks, hd.owed⟩
  exact
    { acked_le := h.acked_le
      newest_le := h.newest_le
      starts := by simpa only [hup] using h.starts
      unheard := fun d hd => (h.unheard d hd).imp_left hunused
      awaits := fun ha d hd => (h.awaits ha d hd).imp_left hunused
      transfers := fun ht => by
        simp only [hup]
        exact h.transfers ht }

theorem acknowledges (h : t.Sound file s) {c : ConnectionId} {size : UInt64}
    {before after : List Nat} (hx : t.owed c = before ++ size.toNat :: after) :
    Sound file s { t.send c (.chunkAck size) with
      owed := Function.update t.owed c (before ++ after) } := by
  have hacks := t.acks_send c (.chunkAck size)
  have hannounced := announced_send_of_none (t := t) (c := c) (r := .chunkAck size) rfl
  have hunused {d : ConnectionId} (hd : t.Unused d) :
      Unused { t.send c (.chunkAck size) with
        owed := Function.update t.owed c (before ++ after) } d := by
    have hne : d ≠ c := by rintro rfl; simp [hd.owed] at hx
    exact ⟨hd.up, (congrFun hacks d).trans (by simp [hne, hd.acks]), by simp [hne, hd.owed]⟩
  refine
    { acked_le := h.acked_le
      newest_le := h.newest_le
      starts := h.starts
      unheard := fun d hd => ?_
      awaits := fun ha d hd => ⟨hunused (h.awaits ha d hd).1, ?_⟩
      transfers := fun ht => ?_ }
  · exact ⟨hunused (h.unheard d hd).1, (congrFun hannounced d).trans (h.unheard d hd).2⟩
  · change ∀ p ∈ (t.send c (.chunkAck size)).announced d, _
    rw [hannounced]
    exact (h.awaits ha d hd).2
  · obtain ⟨hn, hle, hsent⟩ := h.transfers ht
    refine ⟨hn, ?_, hsent⟩
    change s.acked + ((t.send c (.chunkAck size)).acks ⟨t.newest⟩).sum +
      (Function.update t.owed c (before ++ after) ⟨t.newest⟩).sum ≤ t.store.size
    rw [hacks]
    -- the acknowledgement is on its way now and not owed any more
    by_cases hc : c = ⟨t.newest⟩
    · subst hc
      simp only [Function.update_self, ServerRecord.ackSize?, Option.toList_some, List.sum_append,
        List.sum_singleton]
      simp only [hx, List.sum_append, List.sum_cons] at hle
      omega
    · simp only [Function.update_of_ne (Ne.symm hc)]
      exact hle

theorem speaks (h : t.Sound file s) {c : ConnectionId} {r : ServerRecord} (hp : r.params? = none)
    (ha : r.ackSize? = none) : Sound file s (t.send c r) where
  acked_le := h.acked_le
  newest_le := h.newest_le
  starts := h.starts
  unheard d hd := by
    rw [announced_send_of_none hp]
    exact (h.unheard d hd).imp_left (·.send ha)
  awaits hs d hd := by
    rw [announced_send_of_none hp]
    exact (h.awaits hs d hd).imp_left (·.send ha)
  transfers ht := by
    rw [acks_send_of_none ha]
    exact h.transfers ht

theorem of_serves (h : t.Sound file s) (ht : t.Serves s.connections t') : t'.Sound file s := by
  cases ht with
  | announces hc hp => exact h.announces hc hp
  | stores hc hx => exact h.stores hc hx
  | ignores hc hx => exact h.ignores hc hx
  | acknowledges hx => exact h.acknowledges hx
  | speaks hp ha => exact h.speaks hp ha

/-! ### What the session does -/

theorem carry_nil {es : List Effect} (he : ∀ c, chunksOn c es = []) : t.carry es = t := by
  simp [carry, he]

/-- A record that is on its way can get lost. -/
theorem leaving (h : t.Sound file s) {c : ConnectionId} {r : ServerRecord}
    {rs : List ServerRecord} (hx : t.down c = r :: rs) : (t.leaving c rs).Sound file s := by
  have hacks (d : ConnectionId) : (t.leaving c rs).acks d <:+ t.acks d := leaving_suffix hx _ d
  have hannounced (d : ConnectionId) : (t.leaving c rs).announced d <:+ t.announced d :=
    leaving_suffix hx _ d
  have hunused {d : ConnectionId} (hd : t.Unused d) : (t.leaving c rs).Unused d :=
    ⟨hd.up, List.suffix_nil.1 (hd.acks ▸ hacks d), hd.owed⟩
  refine
    { acked_le := h.acked_le
      newest_le := h.newest_le
      starts := h.starts
      unheard := fun d hd => ?_
      awaits := fun ha d hd => ?_
      transfers := fun ht => ?_ }
  · obtain ⟨hd, hnone⟩ := h.unheard d hd
    exact ⟨hunused hd, List.suffix_nil.1 (hnone ▸ hannounced d)⟩
  · obtain ⟨hd, hp⟩ := h.awaits ha d hd
    exact ⟨hunused hd, fun p hmem => hp p ((hannounced d).subset hmem)⟩
  · obtain ⟨hn, hle, hsent⟩ := h.transfers ht
    refine ⟨hn, ?_, hsent⟩
    obtain ⟨lost, hlost⟩ := hacks ⟨t.newest⟩
    rw [← hlost, List.sum_append] at hle
    change s.acked + ((t.leaving c rs).acks ⟨t.newest⟩).sum + (t.owed ⟨t.newest⟩).sum ≤ t.store.size
    omega

theorem kept (h : t.Sound file s) (hp : s'.progress = s.progress) (hs : s'.StageFrom s) :
    t.Sound file s' := by
  have hconn : s'.connections = s.connections := congrArg Session.Progress.connections hp
  have hacked : s'.acked = s.acked := congrArg Session.Progress.acked hp
  have hsent : s'.sent = s.sent := congrArg Session.Progress.sent hp
  exact
    { acked_le := by rw [hacked]; exact h.acked_le
      newest_le := by rw [hconn]; exact h.newest_le
      starts := h.starts
      unheard := h.unheard
      awaits := fun ha => by rw [hconn]; exact h.awaits (hs.awaits ha)
      transfers := fun ht => by rw [hconn, hacked, hsent]; exact h.transfers (hs.transfers ht) }

theorem reconnected (h : t.Sound file s) : t.Sound file s.reconnected where
  acked_le := h.acked_le
  newest_le := Nat.le_succ_of_le h.newest_le
  starts := h.starts
  unheard := h.unheard
  awaits _ c hc := by
    have hlt : t.newest < c.number := hc ▸ Nat.lt_succ_of_le h.newest_le
    obtain ⟨hunused, hannounced⟩ := h.unheard c hlt
    exact ⟨hunused, by simp [hannounced]⟩
  transfers ht := by simp [Session.Transfers, Session.handler, Session.reconnected] at ht

/-- The session takes the parameters that were announced to it. -/
theorem configured (h : t.Sound file s) {params : UploadParams} (ha : s.AwaitsParams)
    (hn : t.newest = s.connections) (hr : params.resumeOffset.toNat = t.store.size)
    (hp : s'.progress = ⟨s.connections, params.resumeOffset.toNat, params.resumeOffset.toNat,
      some params.chunkSize.toNat⟩) : t.Sound file s' := by
  have hconn : s'.connections = s.connections := congrArg Session.Progress.connections hp
  have hacked : s'.acked = t.store.size := (congrArg Session.Progress.acked hp).trans hr
  have hsent : s'.sent = t.store.size := (congrArg Session.Progress.sent hp).trans hr
  obtain ⟨hup, hacks, howed⟩ := (h.awaits ha ⟨t.newest⟩ hn).1
  exact
    { acked_le := hacked.le
      newest_le := by rw [hconn]; exact h.newest_le
      starts := h.starts
      unheard := h.unheard
      awaits := fun _ => by rw [hconn]; exact h.awaits ha
      transfers := fun _ => by
        rw [hconn, hacked, hsent, hacks, howed, hup]
        exact ⟨hn, Nat.le_refl _, Nat.add_zero _⟩ }

/-- The session counts an acknowledgement. -/
theorem credited (h : t.Sound file s) {size : Nat} (ht : s.Transfers)
    (hle : s.acked + size + (t.acks ⟨t.newest⟩).sum + (t.owed ⟨t.newest⟩).sum ≤ t.store.size)
    (hp : s'.progress = { s.progress with acked := s.acked + size }) (hs : s'.StageFrom s) :
    t.Sound file s' := by
  have hconn : s'.connections = s.connections := congrArg Session.Progress.connections hp
  have hacked : s'.acked = s.acked + size := congrArg Session.Progress.acked hp
  have hsent : s'.sent = s.sent := congrArg Session.Progress.sent hp
  exact
    { acked_le := by omega
      newest_le := by rw [hconn]; exact h.newest_le
      starts := h.starts
      unheard := h.unheard
      awaits := fun ha => absurd (hs.awaits ha) ht.not_awaitsParams
      transfers := fun ht => by
        obtain ⟨hn, -, hs⟩ := h.transfers (hs.transfers ht)
        rw [hconn, hacked, hsent]
        exact ⟨hn, hle, hs⟩ }

/-- The session hands a chunk to its channel. -/
theorem carried (h : t.Sound file s) (ht : s.Transfers) {conn : ConnectionId} {data : ByteArray}
    {es : List Effect} (hc : conn.number = s.connections)
    (hdata : data = file.extract s.sent (s.sent + data.size))
    (he : ∀ c, chunksOn c es = if conn = c then [data] else [])
    (hp : s'.progress = { s.progress with sent := s.sent + data.size }) (hs : s'.StageFrom s) :
    (t.carry es).Sound file s' := by
  have hconn : s'.connections = s.connections := congrArg Session.Progress.connections hp
  have hacked : s'.acked = s.acked := congrArg Session.Progress.acked hp
  have hsent : s'.sent = s.sent + data.size := congrArg Session.Progress.sent hp
  obtain ⟨hn, hle, hsize⟩ := h.transfers ht
  -- the chunk goes out on the connection that the server stores
  obtain rfl : conn = ⟨t.newest⟩ := ConnectionId.ext (hc.trans hn.symm)
  have hup : joined ((t.carry es).up ⟨t.newest⟩) = joined (t.up ⟨t.newest⟩) ++ data := by
    simp [carry, he]
  exact
    { acked_le := by rw [hacked]; exact h.acked_le
      newest_le := by rw [hconn]; exact h.newest_le
      starts := by
        change Starts (t.store ++ joined ((t.carry es).up ⟨t.newest⟩)) file
        rw [hup, ← ByteArray.append_assoc]
        refine h.starts.append ?_
        rw [ByteArray.size_append, hsize]
        exact hdata
      unheard := fun c hd => by
        have hne : (⟨t.newest⟩ : ConnectionId) ≠ c := by rintro rfl; exact Nat.lt_irrefl _ hd
        obtain ⟨hunused, hannounced⟩ := h.unheard c hd
        exact ⟨⟨by simp [carry, he, hne, hunused.up], hunused.acks, hunused.owed⟩, hannounced⟩
      awaits := fun ha => absurd (hs.awaits ha) ht.not_awaitsParams
      transfers := fun _ => by
        rw [hconn, hacked, hsent]
        refine ⟨hn, hle, ?_⟩
        change t.store.size + (joined ((t.carry es).up ⟨t.newest⟩)).size = _
        rw [hup, ByteArray.size_append]
        omega }

/-- What the session takes up on its own keeps the invariant. -/
theorem of_move (h : t.Sound file s) (hs : s.Consistent) {i : Input} {r : Reaction}
    (hm : s.Move i r) (hi : ∀ c r, i ≠ .record c r) (hread : s.ReadsFrom file i) :
    (t.carry r.effects).Sound file r.session ∧ s.acked ≤ r.session.acked := by
  cases hm with
  | kept hp hstage he =>
    rw [carry_nil he]
    exact ⟨h.kept hp hstage, (congrArg Session.Progress.acked hp).ge⟩
  | reconnected hr he =>
    rw [carry_nil he, hr]
    exact ⟨h.reconnected, Nat.le_refl _⟩
  | announced => exact absurd rfl (hi _ _)
  | acknowledged => exact absurd rfl (hi _ _)
  | sent hc hr hd hp hstage he =>
    obtain ⟨hph, -, -, ho, -⟩ := hs.read _ _ hr
    have hdata := hread _ _ _ rfl hr
    rw [ByteRange.stop, ho, ← hd] at hdata
    refine ⟨h.carried ?_ (hs.channel_latest _ hc) hdata he hp hstage, ?_⟩
    · simp [Session.Transfers, Session.handler, hph]
    · exact (congrArg Session.Progress.acked hp).ge

/-- A record that reaches the session keeps the invariant. -/
theorem of_delivery (h : t.Sound file s) (hs : s.Consistent) {c : ConnectionId}
    {record : ServerRecord} {rs : List ServerRecord} {r : Reaction}
    (hx : t.down c = record :: rs) (hm : s.Move (.record c record) r) :
    ((t.leaving c rs).carry r.effects).Sound file r.session ∧ s.acked ≤ r.session.acked := by
  have hleft := h.leaving hx
  cases hm with
  | kept hp hstage he =>
    rw [carry_nil he]
    exact ⟨hleft.kept hp hstage, (congrArg Session.Progress.acked hp).ge⟩
  | reconnected hr he =>
    rw [carry_nil he, hr]
    exact ⟨hleft.reconnected, Nat.le_refl _⟩
  | @announced _ params _ hc hr hp he =>
    have hlatest : c.number = s.connections := hs.channel_latest _ hc
    have hmem : params ∈ t.announced c := by simp [announced, hx, ServerRecord.params?]
    have hresume := (h.awaits (.inr hr.1) c hlatest).2 params hmem
    -- the server has announced its parameters on this connection, and on no later one
    have hn : t.newest = s.connections := by
      refine Nat.le_antisymm h.newest_le (Nat.not_lt.1 fun hlt => ?_)
      simp [(h.unheard c (hlatest ▸ hlt)).2] at hmem
    rw [carry_nil he]
    refine ⟨hleft.configured (.inr hr.1) hn hresume hp, ?_⟩
    rw [show r.session.acked = params.resumeOffset.toNat from congrArg Session.Progress.acked hp,
      hresume]
    exact h.acked_le
  | @acknowledged _ size _ hc hr hp hstage he =>
    have ht : s.Transfers := hr.1
    obtain ⟨hn, hle, -⟩ := h.transfers ht
    obtain rfl : c = ⟨t.newest⟩ := ConnectionId.ext ((hs.channel_latest _ hc).trans hn.symm)
    have hacks : t.acks ⟨t.newest⟩ = size.toNat :: (t.leaving ⟨t.newest⟩ rs).acks ⟨t.newest⟩ := by
      simp [acks, Traffic.leaving, hx, ServerRecord.ackSize?]
    rw [hacks, List.sum_cons, ← Nat.add_assoc] at hle
    rw [carry_nil he]
    refine ⟨hleft.credited ht hle hp hstage, ?_⟩
    rw [show r.session.acked = s.acked + size.toNat from congrArg Session.Progress.acked hp]
    exact Nat.le_add_right _ _

end Sound

end Traffic

namespace Exchange

variable {u : Upload} {x y : Exchange}

theorem session_concat (u : Upload) (is : List Input) (i : Input) :
    u.session (is ++ [i]) = ((u.session is).step i).session := by
  rw [Upload.session, Session.run_concat]
  rfl

theorem opensOnce_of_record {is : List Input} (h : OpensOnce is) (c : ConnectionId)
    (r : ServerRecord) : OpensOnce (is ++ [.record c r]) := by
  rw [OpensOnce, List.filterMap_append]
  exact (List.append_nil (is.filterMap Input.opened?)).symm ▸ h

/-- What a step keeps: the invariant, and that nothing acknowledged is taken back. -/
theorem sound_of_step (ho : OpensOnce x.inputs)
    (h : x.traffic.Sound u.file (u.session x.inputs)) (hs : Step u x y) :
    OpensOnce y.inputs ∧ y.traffic.Sound u.file (u.session y.inputs) ∧
      (u.session x.inputs).acked ≤ (u.session y.inputs).acked := by
  have hcons : (u.session x.inputs).Consistent := Session.consistent_run _ _ _ ho
  cases hs with
  | happens ho hi hr =>
    have ht := Session.transition_run u.id u.total u.retryDelay ho
    rw [session_concat]
    exact ⟨ho, h.of_move hcons ht.move hi hr⟩
  | serves ht => exact ⟨ho, h.of_serves ht, Nat.le_refl _⟩
  | @delivers c r rs hx =>
    have ho' := opensOnce_of_record ho c r
    have ht := Session.transition_run u.id u.total u.retryDelay ho'
    rw [session_concat]
    exact ⟨ho', h.of_delivery hcons hx ht.move⟩

theorem sound_of_reachable (h : Reachable u x) :
    OpensOnce x.inputs ∧ x.traffic.Sound u.file (u.session x.inputs) := by
  induction h with
  | initial => exact ⟨List.nodup_nil, Traffic.sound_empty ..⟩
  | step _ hs ih =>
    obtain ⟨ho, hsound, -⟩ := sound_of_step ih.1 ih.2 hs
    exact ⟨ho, hsound⟩

/-- **Integrity.** What the server has stored is always how the file starts. The session takes no
more for acknowledged than is stored, and never less than before; when it has finished, the server
has stored the file. -/
theorem integrity (h : Reachable u x) :
    Starts x.traffic.store u.file ∧
      (u.session x.inputs).acked ≤ x.traffic.store.size ∧
      (∀ y, Step u x y → (u.session x.inputs).acked ≤ (u.session y.inputs).acked) ∧
      ((u.session x.inputs).phase = .finished → x.traffic.store = u.file) := by
  obtain ⟨ho, hsound⟩ := sound_of_reachable h
  have hstarts := hsound.starts.of_append
  refine ⟨hstarts, hsound.acked_le, fun y hs => (sound_of_step ho hsound hs).2.2, fun hp => ?_⟩
  have hcons : (u.session x.inputs).Consistent := Session.consistent_run _ _ _ ho
  have hacked := (hcons.complete (.inr hp)).1
  have htotal : (u.session x.inputs).total = u.total := Session.total_run _ _ _ ho
  refine hstarts.eq_of_size_le ?_
  -- all of the file is acknowledged, and no more than is stored
  rw [u.size_eq, ← htotal, ← hacked]
  exact hsound.acked_le

theorem readsFrom_of_pending {s : Session} {file data : ByteArray} {read : ReadId}
    (range : ByteRange) (hr : s.pendingRead = some (read, range))
    (hd : data = file.extract range.offset range.stop) :
    s.ReadsFrom file (.chunkRead read (.ok data)) := by
  rintro _ _ _ ⟨⟩ hr'
  cases hr.symm.trans hr'
  exact hd

/-- What is no answer to the pending read may bring anything. -/
theorem readsFrom_of_ne {s : Session} {read : ReadId} (hr : s.pendingRead.map (·.1) ≠ some read)
    (file : ByteArray) (answer : Except Source.ReadError ByteArray) :
    s.ReadsFrom file (.chunkRead read answer) := by
  rintro _ _ _ ⟨⟩ hr'
  exact absurd (congrArg (Option.map Prod.fst) hr') hr

/-- Of four bytes two are stored when the connection is lost, with their acknowledgement on its way
and a read at work. The second connection goes on from there, and the first read is answered too
late for it. -/
theorem integrity_of_finished :
    ∃ u x, Reachable u x ∧ (u.session x.inputs).phase = .finished ∧
      x.traffic.down ⟨1⟩ = [.chunkAck 2] ∧ u.file = ⟨#[7, 8, 9, 10]⟩ ∧
      x.traffic.store = ⟨#[7, 8, 9, 10]⟩ := by
  let u : Upload := ⟨"upload", 4, 500, ⟨#[7, 8, 9, 10]⟩, rfl⟩
  have h := Reachable.initial (u := u)
  -- the first connection
  replace h := h.step (.happens (i := .start) (by decide) nofun nofun)
  replace h := h.step (.happens (i := .channelOpened ⟨1⟩) (by decide) nofun nofun)
  replace h := h.step (.serves (.announces (c := ⟨1⟩) (by decide)
    (show (⟨2, 0, 2⟩ : UploadParams).resumeOffset.toNat = _ from rfl)))
  replace h := h.step (.delivers (c := ⟨1⟩)
    (show _ = [ServerRecord.uploadConfig ⟨2, 0, 2⟩] by decide +kernel))
  replace h := h.step (.happens (i := .chunkRead ⟨1⟩ (.ok ⟨#[7, 8]⟩)) (by decide) nofun
    (readsFrom_of_pending ⟨0, 2⟩ (by decide +kernel) (by decide +kernel)))
  replace h := h.step (.serves (.stores (c := ⟨1⟩) rfl
    (show _ = [ByteArray.mk #[7, 8]] by decide +kernel)))
  replace h := h.step (.serves (.acknowledges (c := ⟨1⟩)
    (show _ = [] ++ (2 : UInt64).toNat :: [] by decide +kernel)))
  -- the second connection
  replace h := h.step (.happens (i := .channelClosed ⟨1⟩) (by decide) nofun nofun)
  replace h := h.step (.happens (i := .retryElapsed ⟨1⟩) (by decide) nofun nofun)
  replace h := h.step (.happens (i := .channelOpened ⟨2⟩) (by decide) nofun nofun)
  replace h := h.step (.serves (.announces (c := ⟨2⟩) (by decide +kernel)
    (show (⟨2, 2, 2⟩ : UploadParams).resumeOffset.toNat = _ by decide +kernel)))
  replace h := h.step (.delivers (c := ⟨2⟩)
    (show _ = [ServerRecord.uploadConfig ⟨2, 2, 2⟩] by decide +kernel))
  replace h := h.step (.happens (i := .chunkRead ⟨2⟩ (.ok ⟨#[9, 10]⟩)) (by decide) nofun
    (readsFrom_of_ne (by decide +kernel) _ _))
  replace h := h.step (.happens (i := .chunkRead ⟨3⟩ (.ok ⟨#[9, 10]⟩)) (by decide) nofun
    (readsFrom_of_pending ⟨2, 2⟩ (by decide +kernel) (by decide +kernel)))
  replace h := h.step (.serves (.stores (c := ⟨2⟩) rfl
    (show _ = [ByteArray.mk #[9, 10]] by decide +kernel)))
  replace h := h.step (.serves (.acknowledges (c := ⟨2⟩)
    (show _ = [] ++ (2 : UInt64).toNat :: [] by decide +kernel)))
  replace h := h.step (.delivers (c := ⟨2⟩) (show _ = [ServerRecord.chunkAck 2] by decide +kernel))
  replace h := h.step (.serves (.speaks (c := ⟨2⟩) (r := .allDone) rfl rfl))
  replace h := h.step (.delivers (c := ⟨2⟩) (show _ = [ServerRecord.allDone] by decide +kernel))
  exact ⟨u, _, h, by decide +kernel, by decide +kernel, rfl,
    (integrity h).2.2.2 (by decide +kernel)⟩

end Exchange

end ResumableUpload
