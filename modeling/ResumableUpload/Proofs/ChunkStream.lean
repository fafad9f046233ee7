import ResumableUpload.Proofs.Moves

/-!
# The chunks of a connection

Whatever the server sends and however reads end, the chunks handed to a channel are consecutive
parts of the file.

* `Tiles` : ranges that follow each other without a gap.
* `Session.deliveriesOn` : the answers to reads that a run makes chunks of, for one channel.
* `Session.FetchedBy` : a read was asked for, and the session has waited for it ever since.
* `Session.chunkStream_run` : the chunks of a channel are the data of these answers, their ranges
  tile the file from the announced offset on, and none of them was asked for before the transfer
  was last interrupted.
-/

namespace ResumableUpload

/-- The bytes of chunks one after the other. -/
def joined (chunks : List ByteArray) : ByteArray := chunks.foldr (· ++ ·) ByteArray.empty

@[simp] theorem joined_nil : joined [] = ByteArray.empty := rfl

@[simp] theorem joined_cons (chunk : ByteArray) (chunks : List ByteArray) :
    joined (chunk :: chunks) = chunk ++ joined chunks := rfl

@[simp] theorem joined_append (xs ys : List ByteArray) :
    joined (xs ++ ys) = joined xs ++ joined ys := by
  induction xs with
  | nil => simp
  | cons x xs ih => simp [ih, ByteArray.append_assoc]

/-- The ranges follow each other from an offset on, and each is as long as a chunk may be: of
`chunkSize` bytes, or of those that are left up to `total`. -/
def Tiles (chunkSize total : Nat) : Nat → List ByteRange → Prop
  | _, [] => True
  | offset, range :: ranges =>
    range.offset = offset ∧ offset < total ∧ range.length = min chunkSize (total - offset) ∧
      Tiles chunkSize total range.stop ranges

theorem Tiles.concat {chunkSize total offset : Nat} {ranges : List ByteRange}
    {range : ByteRange} (h : Tiles chunkSize total offset ranges)
    (ho : range.offset = offset + (ranges.map (·.length)).sum) (hlt : range.offset < total)
    (hl : range.length = min chunkSize (total - range.offset)) :
    Tiles chunkSize total offset (ranges ++ [range]) := by
  induction ranges generalizing offset with
  | nil =>
    obtain rfl : range.offset = offset := by simpa using ho
    exact ⟨rfl, hlt, hl, trivial⟩
  | cons first ranges ih =>
    obtain ⟨hfirst, hlt', hl', htail⟩ := h
    refine ⟨hfirst, hlt', hl', ih htail ?_⟩
    simp only [List.map_cons, List.sum_cons] at ho
    simp only [ByteRange.stop]
    omega

theorem Tiles.length_eq {chunkSize total offset : Nat} {ranges : List ByteRange}
    (h : Tiles chunkSize total offset ranges) {range : ByteRange} (hr : range ∈ ranges) :
    range.length = min chunkSize (total - range.offset) := by
  induction ranges generalizing offset with
  | nil => cases hr
  | cons first ranges ih =>
    obtain ⟨rfl, -, hl, htail⟩ := h
    rcases List.mem_cons.1 hr with rfl | hr
    · exact hl
    · exact ih htail hr

namespace Window

variable (w : Window) (sent total : Nat)

theorem nextChunk_length : (w.nextChunk sent total).length = min w.chunkSize (total - sent) := by
  simp only [nextChunk]
  omega

end Window

namespace Session

/-- The bytes that answers brought. -/
def deliveredBytes (ds : List Delivery) : Nat := (ds.map (·.data.size)).sum

/-- The answers to reads that make chunks for a channel, in order. -/
def deliveriesOn (s : Session) (c : ConnectionId) : List Input → List Delivery
  | [] => []
  | i :: is => (s.deliveredOn c i).toList ++ (s.step i).session.deliveriesOn c is

/-- The parameters that a session takes last on a connection. -/
def paramsOn (s : Session) (c : ConnectionId) : List Input → Option Wire.UploadParams
  | [] => none
  | i :: is => ((s.step i).session.paramsOn c is).or (s.announcedOn c i)

theorem deliveriesOn_concat (s : Session) (c : ConnectionId) (is : List Input) (i : Input) :
    s.deliveriesOn c (is ++ [i]) =
      s.deliveriesOn c is ++ ((s.run is).session.deliveredOn c i).toList := by
  induction is generalizing s with
  | nil => simp [deliveriesOn, run]
  | cons j is ih => simp [deliveriesOn, ih, run]

theorem paramsOn_concat (s : Session) (c : ConnectionId) (is : List Input) (i : Input) :
    s.paramsOn c (is ++ [i]) = ((s.run is).session.announcedOn c i).or (s.paramsOn c is) := by
  induction is generalizing s with
  | nil => simp [paramsOn, run]
  | cons j is ih => simp [paramsOn, ih, run, Option.or_assoc]

theorem deliveredOn_eq_some_iff {s : Session} {c : ConnectionId} {i : Input} {d : Delivery} :
    s.deliveredOn c i = some d ↔
      i = .chunkRead d.read (.ok d.data) ∧ s.pendingRead = some (d.read, d.range) ∧
        d.data.size = d.range.length ∧ s.isOpen c = true := by
  constructor
  · intro h
    unfold deliveredOn at h
    split at h
    · rename_i read data
      obtain ⟨⟨pending, range⟩, hr, h⟩ := Option.bind_eq_some_iff.1 h
      obtain ⟨⟨rfl, hd, ho⟩, he⟩ := Option.ite_none_right_eq_some.1 h
      obtain rfl : _ = d := Option.some.inj he
      exact ⟨rfl, hr, hd, ho⟩
    · cases h
  · rintro ⟨rfl, hr, hd, ho⟩
    simp [deliveredOn, hr, hd, ho]

/-- Answers whose ranges tile the file and that brought what they were to fetch make up a part of
it. -/
theorem joined_of_tiles {chunkSize total offset : Nat} {ds : List Delivery} {file : ByteArray}
    (ht : Tiles chunkSize total offset (ds.map (·.range)))
    (hd : ∀ d ∈ ds, d.data.size = d.range.length)
    (hfile : ∀ d ∈ ds, d.data = file.extract d.range.offset d.range.stop) :
    joined (ds.map (·.data)) = file.extract offset (offset + deliveredBytes ds) := by
  induction ds generalizing offset with
  | nil => simp [deliveredBytes]
  | cons d ds ih =>
    obtain ⟨ho, -, -, htail⟩ := ht
    have hrest := ih htail (fun d hmem => hd d (List.mem_cons_of_mem _ hmem))
      fun d hmem => hfile d (List.mem_cons_of_mem _ hmem)
    have hstop : d.range.stop = offset + d.data.size := by
      rw [ByteRange.stop, ho, hd d List.mem_cons_self]
    calc joined ((d :: ds).map (·.data))
      _ = d.data ++ joined (ds.map (·.data)) := rfl
      _ = file.extract offset d.range.stop ++
            file.extract d.range.stop (d.range.stop + deliveredBytes ds) := by
          rw [hrest, hfile d List.mem_cons_self, ho]
      _ = file.extract offset (d.range.stop + deliveredBytes ds) :=
          (ByteArray.extract_eq_extract_append_extract _ (by omega) (by omega)).symm
      _ = file.extract offset (offset + deliveredBytes (d :: ds)) := by
          simp [deliveredBytes, hstop, Nat.add_assoc]

/-! ### Where the transfer stands on a connection -/

/-- What the parameters taken on a connection and the answers that made chunks for it say about
the session. -/
structure StreamsOn (c : ConnectionId) (params : Option Wire.UploadParams)
    (ds : List Delivery) (s : Session) : Prop where
  fresh : s.connections < c.number → params = none ∧ ds = []
  unannounced : params = none → ds = []
  sizes : ∀ d ∈ ds, d.data.size = d.range.length
  awaits : c.number = s.connections → s.AwaitsParams → ds = []
  transfers : c.number = s.connections → s.Transfers →
    ∃ p, params = some p ∧ s.window.map Window.chunkSize = some p.chunkSize.toNat
  tiles : ∀ p, params = some p →
    Tiles p.chunkSize.toNat s.total.toNat p.resumeOffset.toNat (ds.map (·.range))
  sent : ∀ p, params = some p → c.number = s.connections →
    s.sent = p.resumeOffset.toNat + deliveredBytes ds

namespace StreamsOn

variable {s s' : Session} {i : Input} {r : Reaction} {c : ConnectionId}
  {params : Option Wire.UploadParams} {ds : List Delivery}

theorem of_stageFrom (h : s.StreamsOn c params ds) (hconn : s'.connections = s.connections)
    (hsent : s'.sent = s.sent)
    (hsize : s'.window.map Window.chunkSize = s.window.map Window.chunkSize)
    (hstage : s'.StageFrom s) (htotal : s'.total = s.total) : s'.StreamsOn c params ds where
  fresh := by rw [hconn]; exact h.fresh
  unannounced := h.unannounced
  sizes := h.sizes
  awaits hc ha := h.awaits (hc.trans hconn) (hstage.awaits ha)
  transfers hc ht := by rw [hsize]; exact h.transfers (hc.trans hconn) (hstage.transfers ht)
  tiles := by rw [htotal]; exact h.tiles
  sent := by rw [hconn, hsent]; exact h.sent

theorem reconnected (h : s.StreamsOn c params ds) : s.reconnected.StreamsOn c params ds := by
  have hlt (hc : c.number = s.reconnected.connections) : s.connections < c.number := by
    rw [hc]
    exact Nat.lt_succ_self _
  exact
    { fresh := fun hc => h.fresh (Nat.lt_of_succ_lt hc)
      unannounced := h.unannounced
      sizes := h.sizes
      awaits := fun hc _ => (h.fresh (hlt hc)).2
      transfers := fun _ ht => by simp [Transfers, handler, Session.reconnected] at ht
      tiles := h.tiles
      sent := fun p hparams hc => by simp [(h.fresh (hlt hc)).1] at hparams }

/-- Parameters of another connection than the latest say nothing about the session. -/
theorem of_ne (h : s.StreamsOn c params ds) (hconn : s'.connections = s.connections)
    (hne : c.number ≠ s.connections) (htotal : s'.total = s.total) :
    s'.StreamsOn c params ds where
  fresh := by rw [hconn]; exact h.fresh
  unannounced := h.unannounced
  sizes := h.sizes
  awaits hc := absurd (hc.trans hconn) hne
  transfers hc := absurd (hc.trans hconn) hne
  tiles := by rw [htotal]; exact h.tiles
  sent _ _ hc := absurd (hc.trans hconn) hne

theorem announced (h : s.StreamsOn c params ds) (hc : c.number = s.connections)
    (ha : s.AwaitsParams) {p : Wire.UploadParams}
    (hp : s'.progress = ⟨s.connections, p.resumeOffset.toNat, p.resumeOffset.toNat,
      some p.chunkSize.toNat⟩) : s'.StreamsOn c (some p) ds := by
  obtain ⟨hconn, hsent, -, hsize⟩ := Progress.mk.injEq .. ▸ hp
  obtain rfl : ds = [] := h.awaits hc ha
  exact
    { fresh := fun hlt => absurd hlt (by omega)
      unannounced := fun _ => rfl
      sizes := h.sizes
      awaits := fun _ _ => rfl
      transfers := fun _ _ => ⟨p, rfl, hsize⟩
      tiles := fun _ _ => trivial
      sent := by
        rintro _ ⟨⟩ -
        simpa [deliveredBytes] using hsent }

theorem delivered (h : s.StreamsOn c params ds) (hc : c.number = s.connections) {d : Delivery}
    (hs : s.Consistent) (hr : s.pendingRead = some (d.read, d.range))
    (hd : d.data.size = d.range.length)
    (hp : s'.progress = { s.progress with sent := s.sent + d.data.size })
    (hstage : s'.StageFrom s) (htotal : s'.total = s.total) :
    s'.StreamsOn c params (ds ++ [d]) := by
  have hconn : s'.connections = s.connections := congrArg Progress.connections hp
  have hsent : s'.sent = s.sent + d.data.size := congrArg Progress.sent hp
  -- the pending read is the next chunk of the window, which starts where the session stands
  obtain ⟨hph, -, hlt, ho, w, hw, -, hnext⟩ := hs.read _ _ hr
  have htransfers : s.Transfers := by simp [Transfers, handler, hph]
  obtain ⟨p, rfl, hsize⟩ := h.transfers hc htransfers
  have hchunk : w.chunkSize = p.chunkSize.toNat := by simpa [hw] using hsize
  have hbytes := h.sent p rfl hc
  have hlengths : ((ds.map (·.range)).map (·.length)).sum = deliveredBytes ds := by
    rw [deliveredBytes, List.map_map]
    exact congrArg List.sum (List.map_congr_left fun d hd => (h.sizes d hd).symm)
  exact
    { fresh := fun hlt => absurd hlt (by omega)
      unannounced := by rintro ⟨⟩
      sizes := fun d hmem => (List.mem_append.1 hmem).elim (h.sizes d) fun hmem => by
        rw [List.mem_singleton.1 hmem]
        exact hd
      awaits := fun _ ha => absurd (hstage.awaits ha) htransfers.not_awaitsParams
      transfers := fun _ _ => ⟨p, rfl, (congrArg Progress.chunkSize hp).trans hsize⟩
      tiles := by
        rintro _ ⟨⟩
        rw [htotal, List.map_append]
        refine (h.tiles p rfl).concat ?_ ?_ ?_
        · rw [hlengths, ho, hbytes]
        · rwa [ho]
        · simp only [ho]
          rw [hnext, Window.nextChunk_length, hchunk]
      sent := by
        rintro _ ⟨⟩ -
        simp [hsent, hbytes, deliveredBytes, Nat.add_assoc] }

theorem of_move (h : s.StreamsOn c params ds) (hs : s.Consistent) (hm : s.Move i r)
    (htotal : r.session.total = s.total) :
    r.session.StreamsOn c ((s.announcedOn c i).or params)
      (ds ++ (s.deliveredOn c i).toList) := by
  -- a channel that is held belongs to the latest connection
  have hlatest {conn : ConnectionId} (hc : s.channel = some ⟨conn, true⟩) :
      conn.number = s.connections := hs.channel_latest ⟨conn, true⟩ hc
  have hother {conn : ConnectionId} (hc : s.channel = some ⟨conn, true⟩) (hne : conn ≠ c) :
      c.number ≠ s.connections := fun he => hne (ConnectionId.ext ((hlatest hc).trans he.symm))
  cases hm with
  | kept hp hstage he hi =>
    rw [(hi c).1, (hi c).2, Option.none_or, Option.toList_none, List.append_nil]
    exact h.of_stageFrom (congrArg Progress.connections hp) (congrArg Progress.sent hp)
      (congrArg Progress.chunkSize hp) hstage htotal
  | reconnected hr he hi =>
    rw [(hi c).1, (hi c).2, Option.none_or, Option.toList_none, List.append_nil, hr]
    exact h.reconnected
  | @announced conn _ _ hc hr hp he =>
    rw [announcedOn_of_accepts hc hr, show s.deliveredOn c _ = none from rfl, Option.toList_none,
      List.append_nil]
    by_cases hcc : conn = c
    · subst hcc
      rw [if_pos rfl]
      exact h.announced (hlatest hc) (.inr hr.1) hp
    · rw [if_neg hcc, Option.none_or]
      exact h.of_ne (congrArg Progress.connections hp) (hother hc hcc) htotal
  | acknowledged hc hr hp hstage he =>
    rw [show s.announcedOn c _ = none from rfl, show s.deliveredOn c _ = none from rfl,
      Option.none_or, Option.toList_none, List.append_nil]
    exact h.of_stageFrom (congrArg Progress.connections hp) (congrArg Progress.sent hp)
      (congrArg Progress.chunkSize hp) hstage htotal
  | @sent conn _ _ _ _ hc hr hd hp hstage he =>
    rw [show s.announcedOn c _ = none from rfl, Option.none_or, deliveredOn_of_pending hc hr hd]
    by_cases hcc : conn = c
    · subst hcc
      rw [if_pos rfl, Option.toList_some]
      exact h.delivered (hlatest hc) hs hr hd hp hstage htotal
    · rw [if_neg hcc, Option.toList_none, List.append_nil]
      exact h.of_ne (congrArg Progress.connections hp) (hother hc hcc) htotal

end StreamsOn

theorem streamsOn_run (id : String) (total : UInt64) (delay : Nat) {is : List Input}
    (h : OpensOnce is) (c : ConnectionId) :
    ((new id total delay).run is).session.StreamsOn c ((new id total delay).paramsOn c is)
      ((new id total delay).deliveriesOn c is) := by
  refine run_induction id total delay
    (P := fun is r => r.session.StreamsOn c ((new id total delay).paramsOn c is)
      ((new id total delay).deliveriesOn c is)) ?_ ?_ h
  · exact
      { fresh := fun _ => ⟨rfl, rfl⟩
        unannounced := fun _ => rfl
        sizes := fun _ hd => by cases hd
        awaits := fun _ _ => rfl
        transfers := fun _ ht => by simp [Transfers, handler, new] at ht
        tiles := fun _ hp => by cases hp
        sent := fun _ hp => by cases hp }
  · rintro is i _ rfl hcons htimely hP
    have ht := transition hcons htimely
    have hstep := hP.of_move hcons ht.move (total_of_transition ht)
    rwa [← paramsOn_concat, ← deliveriesOn_concat] at hstep

theorem chunksOn_run (id : String) (total : UInt64) (delay : Nat) {is : List Input}
    (h : OpensOnce is) (c : ConnectionId) :
    chunksOn c ((new id total delay).run is).effects =
      ((new id total delay).deliveriesOn c is).map (·.data) := by
  refine run_induction id total delay
    (P := fun is r => chunksOn c r.effects = ((new id total delay).deliveriesOn c is).map (·.data))
    rfl ?_ h
  rintro is i _ rfl hcons htimely hP
  rw [Reaction.andThen_effects, chunksOn_append, hP,
    (transition hcons htimely).move.chunks c, deliveriesOn_concat, List.map_append]

/-! ### Reads and their answers -/

/-- The session transfers on this channel and waits for this read. -/
def Fetching (s : Session) (c : ConnectionId) (read : ReadId) (range : ByteRange) : Prop :=
  s.phase = .transferring ∧ s.channel = some ⟨c, true⟩ ∧ s.pendingRead = some (read, range)

/-- One of the inputs had the read asked for, and ever since then the session has waited for it
while it transferred on this channel. -/
def FetchedBy (s : Session) (c : ConnectionId) (read : ReadId) (range : ByteRange)
    (is : List Input) : Prop :=
  ∃ before i after, is = before ++ i :: after ∧
    Effect.readChunk read range ∈ ((s.run before).session.step i).effects ∧
    ∀ js, js <+: after → (s.run (before ++ i :: js)).session.Fetching c read range

theorem pendingRead_of_requestNextChunk {s : Session} {read : ReadId} {range : ByteRange}
    (hr : s.requestNextChunk.session.pendingRead = some (read, range)) :
    .readChunk read range ∈ s.requestNextChunk.effects ∨ s.pendingRead = some (read, range) := by
  rcases s.requestNextChunk_cases with h | ⟨w, -, -, -, -, h⟩ <;> rw [h] at hr ⊢
  · exact .inr hr
  · obtain ⟨rfl, rfl⟩ := Prod.mk.inj (Option.some.inj hr)
    exact .inl List.mem_cons_self

/-- A read that is pending after a transition was asked for by it, or was pending before on the
same channel. -/
theorem pendingRead_of_transition {s : Session} {i : Input} {r : Reaction} {read : ReadId}
    {range : ByteRange} (h : s.Consistent) (ht : s.Transition i r)
    (hr : r.session.pendingRead = some (read, range)) :
    .readChunk read range ∈ r.effects ∨
      s.pendingRead = some (read, range) ∧ r.session.channel = s.channel := by
  cases ht with
  | ignored | errorNoted | configNoted | configCompletes | ackNoted | ackCompletes =>
    exact .inr ⟨hr, rfl⟩
  | opened hp hc =>
    rw [show s.pendingRead = none from h.read_none_of_phase (by simp [hp])] at hr
    cases hr
  | configBegins =>
    rcases pendingRead_of_requestNextChunk hr with he | hr
    · exact .inl (List.mem_append_right _ (List.mem_append_left _ he))
    · exact .inr ⟨hr, by simp [configured]⟩
  | ackContinues =>
    rcases pendingRead_of_requestNextChunk hr with he | hr
    · exact .inl (List.mem_append_left _ he)
    · exact .inr ⟨hr, by simp [acknowledged]⟩
  | sent =>
    rw [sendChunk_endRead] at hr ⊢
    rcases pendingRead_of_requestNextChunk hr with he | hr
    · exact .inl (List.mem_cons_of_mem _ he)
    · cases hr
  | restarted | unpaused | retried | suspended | cancelSent | serverFailed | readFailed => cases hr
  | cancelledOffline | cancelConfirmed | serverCancelled | violated | undecodable
  | finished | failedCompleting | failedUncancelled | lost | cancelLost =>
    simp [finishCancel, onServerCancel, violate, endWith, released, awaitRetry_eq, abandonCancel,
      endRead] at hr

theorem fetching_of_pendingRead {s : Session} {c : ConnectionId} {read : ReadId}
    {range : ByteRange} (h : s.Consistent) (hr : s.pendingRead = some (read, range))
    (hc : s.isOpen c = true) : s.Fetching c read range :=
  ⟨(h.read _ _ hr).1, isOpen_iff.1 hc, hr⟩

theorem fetchedBy_run (id : String) (total : UInt64) (delay : Nat) {is : List Input}
    (h : OpensOnce is) {c : ConnectionId} {read : ReadId} {range : ByteRange}
    (hf : ((new id total delay).run is).session.Fetching c read range) :
    (new id total delay).FetchedBy c read range is := by
  refine run_induction id total delay
    (P := fun is r => r.session.Fetching c read range →
      (new id total delay).FetchedBy c read range is) ?_ ?_ h hf
  · rintro ⟨-, hc, -⟩
    cases hc
  · rintro is i _ rfl hcons htimely ih hf
    rcases pendingRead_of_transition hcons (transition hcons htimely) hf.2.2 with he | ⟨hr, hc⟩
    -- the last input had the read asked for
    · refine ⟨is, i, [], rfl, he, fun js hjs => ?_⟩
      rw [List.prefix_nil.1 hjs, run_concat]
      exact hf
    -- it was pending before, on the same channel
    · have hc' : ((new id total delay).run is).session.channel = some ⟨c, true⟩ :=
        hc.symm.trans hf.2.1
      obtain ⟨before, j, after, rfl, he, hafter⟩ :=
        ih (fetching_of_pendingRead hcons hr (isOpen_iff.2 hc'))
      refine ⟨before, j, after ++ [i], by simp, he, fun js hjs => ?_⟩
      rcases List.prefix_concat_iff.1 hjs with rfl | hjs
      · rw [← List.cons_append, ← List.append_assoc, run_concat]
        exact hf
      · exact hafter js hjs

/-! ### The stream -/

/-- What a list of inputs makes a session hand to a channel. -/
structure ChunkStream (s : Session) (c : ConnectionId) (is : List Input) : Prop where
  chunks_eq : chunksOn c (s.run is).effects = (s.deliveriesOn c is).map (·.data)
  size_eq : ∀ d ∈ s.deliveriesOn c is, d.data.size = d.range.length
  /-- Nothing has come between a read and the answer to it: no other connection, no pause and no
  cancellation. -/
  fetched : ∀ d ∈ s.deliveriesOn c is, ∃ before after,
    is = before ++ .chunkRead d.read (.ok d.data) :: after ∧
      s.FetchedBy c d.read d.range before
  unannounced : s.paramsOn c is = none → chunksOn c (s.run is).effects = []
  tiles : ∀ params, s.paramsOn c is = some params →
    Tiles params.chunkSize.toNat s.total.toNat params.resumeOffset.toNat
      ((s.deliveriesOn c is).map (·.range))
  /-- The ranges are the same in words, where the end of a chunk is cut off at the largest word. -/
  words : ∀ params, s.paramsOn c is = some params → ∀ d ∈ s.deliveriesOn c is, d.range.length =
    min (min (d.range.offset + params.chunkSize.toNat) (UInt64.size - 1)) s.total.toNat -
      d.range.offset
  /-- What was handed to the latest channel ends where the session stands. -/
  sent_eq : ∀ params, s.paramsOn c is = some params →
    c.number = (s.run is).session.connections →
      (s.run is).session.sent = params.resumeOffset.toNat + deliveredBytes (s.deliveriesOn c is)
  /-- Answers that bring parts of a file make up a part of it. -/
  content : ∀ params (file : ByteArray), s.paramsOn c is = some params →
    (∀ d ∈ s.deliveriesOn c is, d.data = file.extract d.range.offset d.range.stop) →
      joined (chunksOn c (s.run is).effects) =
        file.extract params.resumeOffset.toNat
          (params.resumeOffset.toNat + deliveredBytes (s.deliveriesOn c is))
  /-- On the latest channel it is the part up to where the session stands. -/
  content_latest : ∀ params (file : ByteArray), s.paramsOn c is = some params →
    c.number = (s.run is).session.connections →
    (∀ d ∈ s.deliveriesOn c is, d.data = file.extract d.range.offset d.range.stop) →
      joined (chunksOn c (s.run is).effects) =
        file.extract params.resumeOffset.toNat (s.run is).session.sent

theorem fetched_run (id : String) (total : UInt64) (delay : Nat) {is : List Input}
    (h : OpensOnce is) (c : ConnectionId) :
    ∀ d ∈ (new id total delay).deliveriesOn c is, ∃ before after,
      is = before ++ .chunkRead d.read (.ok d.data) :: after ∧
        (new id total delay).FetchedBy c d.read d.range before := by
  induction is using List.reverseRecOn with
  | nil => exact fun _ hd => by cases hd
  | append_singleton is i ih =>
    intro d hd
    rw [deliveriesOn_concat, List.mem_append, Option.mem_toList] at hd
    rcases hd with hd | hd
    · obtain ⟨before, after, rfl, hf⟩ := ih h.init d hd
      exact ⟨before, after ++ [i], by simp, hf⟩
    · obtain ⟨rfl, hr, -, ho⟩ := deliveredOn_eq_some_iff.1 hd
      have hcons := consistent_run id total delay h.init
      exact ⟨is, [], rfl,
        fetchedBy_run id total delay h.init (fetching_of_pendingRead hcons hr ho)⟩

/-- **The chunks handed to a channel are consecutive parts of the file.** They are the answers to
reads whose ranges tile the file from the announced offset on, and which the session has waited for
without interruption. -/
theorem chunkStream_run (id : String) (total : UInt64) (delay : Nat) {is : List Input}
    (h : OpensOnce is) (c : ConnectionId) : (new id total delay).ChunkStream c is := by
  have hchunks := chunksOn_run id total delay h c
  have hstreams := streamsOn_run id total delay h c
  have htiles := hstreams.tiles
  rw [total_run id total delay h] at htiles
  set ds := (new id total delay).deliveriesOn c is
  have hcontent : ∀ params (file : ByteArray),
      (new id total delay).paramsOn c is = some params →
      (∀ d ∈ ds, d.data = file.extract d.range.offset d.range.stop) →
      joined (chunksOn c ((new id total delay).run is).effects) =
        file.extract params.resumeOffset.toNat
          (params.resumeOffset.toNat + deliveredBytes ds) := by
    intro params file hparams hfile
    rw [hchunks]
    exact joined_of_tiles (htiles params hparams) hstreams.sizes hfile
  exact
    { chunks_eq := hchunks
      size_eq := hstreams.sizes
      fetched := fetched_run id total delay h c
      unannounced := fun hparams => by rw [hchunks, hstreams.unannounced hparams, List.map_nil]
      tiles := htiles
      words := fun params hparams d hd => by
        have hlength := (htiles params hparams).length_eq (List.mem_map_of_mem hd)
        have htotal : total.toNat ≤ UInt64.size - 1 := Nat.le_sub_one_of_lt total.toNat_lt
        rw [hlength, show (new id total delay).total = total from rfl]
        omega
      sent_eq := hstreams.sent
      content := hcontent
      content_latest := fun params file hparams hc hfile => by
        rw [hstreams.sent params hparams hc]
        exact hcontent params file hparams hfile }

/-- A read that was pending when the channel closed is answered too late for any other. -/
theorem chunkStream_run_of_late_answer :
    OpensOnce [.start, .channelOpened ⟨1⟩, .record ⟨1⟩ (.uploadConfig ⟨4, 2, 2⟩),
      .channelClosed ⟨1⟩, .retryElapsed ⟨1⟩, .channelOpened ⟨2⟩,
      .record ⟨2⟩ (.uploadConfig ⟨4, 2, 2⟩), .chunkRead ⟨1⟩ (.ok ⟨#[1, 2, 3, 4]⟩),
      .chunkRead ⟨2⟩ (.ok ⟨#[5, 6, 7, 8]⟩)] ∧
    (new "upload" 10 500).ChunkStream ⟨2⟩ [.start, .channelOpened ⟨1⟩,
      .record ⟨1⟩ (.uploadConfig ⟨4, 2, 2⟩), .channelClosed ⟨1⟩, .retryElapsed ⟨1⟩,
      .channelOpened ⟨2⟩, .record ⟨2⟩ (.uploadConfig ⟨4, 2, 2⟩),
      .chunkRead ⟨1⟩ (.ok ⟨#[1, 2, 3, 4]⟩), .chunkRead ⟨2⟩ (.ok ⟨#[5, 6, 7, 8]⟩)] :=
  ⟨by decide, chunkStream_run "upload" 10 500 (by decide) ⟨2⟩⟩

end Session

end ResumableUpload
