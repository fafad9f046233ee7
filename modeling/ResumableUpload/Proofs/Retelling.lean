import ResumableUpload.Channel.Reader
import ResumableUpload.Proofs.Phases
import ResumableUpload.Proofs.RoundTrip

/-!
# Records are told again

A text that is read as a record can be written again from the record alone. What the second text
tells is the payload that the first one told, field by field, with one exception: a pause and an
end are read whatever their flag says, and written with the flag set (`Wire.Payload.affirmed`).

* `Wire.told?` : the kind and the payload that a text tells.
* `Wire.ServerRecord.toPayload_of_ofPayload`, `Wire.ClientRecord.toPayload_of_ofPayload` : the
  payload of a record is the one it was made from, affirmed.
* `Wire.decode_retells` : every text that is read is told again, and a session finishes only after
  a text that tells an end.
* `Wire.told_otherwise_of_failed_end` : such a text may say that nothing was achieved.
-/

namespace ResumableUpload.Wire

/-- The kind that a text names, and the payload of this kind that it tells. -/
def told? (text : String) : Option (Kind × Payload) :=
  match Envelope.parse text with
  | .error _ => none
  | .ok e =>
    match e.payloadAs e.kind with
    | .ok (some p) => some (e.kind, p)
    | _ => none

namespace Payload

/-- A flag that no record keeps is not set. -/
def denies : Payload → Bool
  | pause on => !on
  | allDone success => !success
  | _ => false

/-- A payload as it is told again: a flag that no record keeps is set. -/
def affirmed : Payload → Payload
  | pause _ => pause true
  | allDone _ => allDone true
  | p => p

theorem affirmed_kind (p : Payload) : p.affirmed.kind = p.kind := by
  cases p <;> rfl

theorem affirmed_eq_self_iff {p : Payload} : p.affirmed = p ↔ p.denies = false := by
  cases p with
  | pause on => cases on <;> simp [affirmed, denies]
  | allDone success => cases success <;> simp [affirmed, denies]
  | _ => simp [affirmed, denies]

end Payload

/-- The second text tells the payload `p` of the first one again. -/
structure Retold (text again : String) (p : Payload) : Prop where
  told : told? text = some (p.kind, p)
  told_again : told? again = some (p.kind, p.affirmed)
  /-- Nothing is lost, unless a flag is lost that is not set. -/
  same_iff : told? again = told? text ↔ p.denies = false

theorem told?_wrap (p : Payload) : told? (Envelope.wrap p).render = some (p.kind, p) := by
  have hkind : (Envelope.wrap p).kind = p.kind := rfl
  have hparse : (Envelope.wrap p).payloadAs p.kind = .ok (some p) := by
    simp [Envelope.wrap, Envelope.payloadAs, p.parse_render, Except.map]
  simp [told?, Envelope.parse_wrap_render, hkind, hparse]

/-! ### What is read comes from what is told -/

theorem Payload.kind_ofFields (k : Kind) (f : Json.Fields) : (ofFields k f).kind = k := by
  cases k <;> rfl

theorem Payload.kind_of_payloadAs {e : Envelope} {k : Kind} {p : Payload}
    (h : e.payloadAs k = .ok (some p)) : p.kind = k := by
  rw [Envelope.payloadAs] at h
  cases hd : e.data with
  | none => simp [hd] at h
  | some json =>
    rw [hd] at h
    simp only [parse] at h
    cases hf : k.form.parse json with
    | error fault => simp [hf, Except.map] at h
    | ok f =>
      rw [hf] at h
      cases h
      exact kind_ofFields k f

theorem told?_of_openPayload {text : String} {e : Envelope} {p : Payload}
    (he : openEnvelope text = .ok e) (hp : openPayload e = .ok p) :
    told? text = some (p.kind, p) := by
  have hparse : Envelope.parse text = .ok e := by
    rw [openEnvelope] at he
    split at he
    · cases he
    · split at he
      · cases he
      · cases he
        assumption
  have hpayload : e.payloadAs e.kind = .ok (some p) := by
    rw [openPayload] at hp
    split at hp
    · cases hp
    · cases hp
    · cases hp
      assumption
  rw [told?, hparse, Payload.kind_of_payloadAs hpayload]
  simp only [hpayload]

theorem told?_of_openRecord {α : Type} {speaks : Kind → Bool}
    {ofPayload : Payload → Except RecordError α} {text : String} {m : α}
    (h : openRecord speaks ofPayload text = .ok m) :
    ∃ p, told? text = some (p.kind, p) ∧ ofPayload p = .ok m := by
  rw [openRecord] at h
  cases he : openEnvelope text with
  | error err => simp [he, bind, Except.bind] at h
  | ok e =>
    cases hs : speaks e.kind with
    | false => simp [he, hs, bind, Except.bind] at h
    | true =>
      cases hp : openPayload e with
      | error err => simp [he, hs, hp, bind, Except.bind] at h
      | ok p =>
        refine ⟨p, told?_of_openPayload he hp, ?_⟩
        simpa [he, hs, hp, bind, Except.bind] using h

/-! ### What is written comes from what was read -/

theorem ClientRecord.toPayload_of_ofPayload {p : Payload} {m : ClientRecord}
    (h : ofPayload p = .ok m) : m.toPayload = .ok p.affirmed := by
  cases p with
  | uploadReq id k =>
    rw [ofPayload] at h
    cases hk : toCount "LengthBytes" k with
    | error e => rw [hk] at h; cases h
    | ok n =>
      rw [hk] at h
      cases h
      simp [toPayload, toSigned_of_toCount hk, Except.map, Payload.affirmed]
  | ack ok =>
    cases ok with
    | false => cases h
    | true => cases h; rfl
  | pause | cancel => cases h; rfl
  | uploadConf | chunkAck | error | allDone => cases h

/-- The parameters announced in kilobytes and a signed word are found again in the bytes. -/
theorem toPayload_of_params {kb : UInt64} {pos : Int64} {ahead : UInt32} {params : UploadParams}
    (h : ServerRecord.params kb pos ahead = .ok params) :
    (ServerRecord.uploadConfig params).toPayload = .ok (.uploadConf kb pos ahead) := by
  unfold ServerRecord.params at h
  split at h
  · cases h
  · split at h
    · cases h
    · split at h
      · cases h
      · rename_i offset hpos
        split at h
        · rename_i hsize
          cases h
          have hunit : chunkUnit.toNat = 1024 := rfl
          have hkb : kb * chunkUnit / chunkUnit = kb := by
            rw [hunit] at hsize
            rw [← UInt64.toNat_inj, UInt64.toNat_div, UInt64.toNat_mul, hunit]
            simp only [UInt64.size] at hsize
            omega
          simp [ServerRecord.toPayload, toSigned_of_toCount hpos, hkb, Except.map]
        · cases h

theorem ServerRecord.toPayload_of_ofPayload {p : Payload} {m : ServerRecord}
    (h : ofPayload p = .ok m) : m.toPayload = .ok p.affirmed := by
  cases p with
  | uploadConf kb pos ahead =>
    rw [ofPayload] at h
    cases hp : params kb pos ahead with
    | error e => rw [hp] at h; cases h
    | ok config =>
      rw [hp] at h
      cases h
      exact toPayload_of_params hp
  | chunkAck k =>
    rw [ofPayload] at h
    cases hk : toCount "ChunkSize" k with
    | error e => rw [hk] at h; cases h
    | ok n =>
      rw [hk] at h
      cases h
      simp [toPayload, toSigned_of_toCount hk, Except.map, Payload.affirmed]
  | ack ok =>
    cases ok with
    | false => cases h
    | true => cases h; rfl
  | error | allDone | cancel => cases h; rfl
  | uploadReq | pause => cases h

theorem retold_of_told? {text : String} {p : Payload} (h : told? text = some (p.kind, p)) :
    Retold text (Envelope.wrap p.affirmed).render p := by
  have hagain := told?_wrap p.affirmed
  rw [p.affirmed_kind] at hagain
  refine ⟨h, hagain, ?_⟩
  rw [hagain, h, ← Payload.affirmed_eq_self_iff]
  simp

theorem ServerRecord.retold_of_decode {text : String} {m : ServerRecord}
    (h : decode text = .ok m) : ∃ p again, m.encode = .ok again ∧ Retold text again p := by
  obtain ⟨p, htold, hp⟩ := told?_of_openRecord h
  refine ⟨p, (Envelope.wrap p.affirmed).render, ?_, retold_of_told? htold⟩
  rw [encode, toPayload_of_ofPayload hp]
  rfl

theorem ClientRecord.retold_of_decode {text : String} {m : ClientRecord}
    (h : decode text = .ok m) : ∃ p again, m.encode = .ok again ∧ Retold text again p := by
  obtain ⟨p, htold, hp⟩ := told?_of_openRecord h
  refine ⟨p, (Envelope.wrap p.affirmed).render, ?_, retold_of_told? htold⟩
  rw [encode, toPayload_of_ofPayload hp]
  rfl

/-! ### What a session hears -/

/-- Every record among the inputs arrived in one of the texts. -/
def HeardIn (p : Channel.Platform) (texts : List String) (is : List Input) : Prop :=
  ∀ conn r, .record conn r ∈ is →
    ∃ text ∈ texts, (Channel.Arrival.frame (.text text)).input? p conn = some (.record conn r)

theorem input?_eq_record_iff {p : Channel.Platform} {text : String} {conn : ConnectionId}
    {r : ServerRecord} :
    (Channel.Arrival.frame (.text text)).input? p conn = some (.record conn r) ↔
      ServerRecord.decode text = .ok r := by
  rw [Channel.Arrival.input?]
  cases hd : ServerRecord.decode text <;> simp

/-- Only one kind of text is read as the record that all is done. -/
theorem told?_of_decode_allDone {text : String} (h : ServerRecord.decode text = .ok .allDone) :
    ∃ success, told? text = some (.allDone, .allDone success) := by
  obtain ⟨p, htold, hp⟩ := told?_of_openRecord h
  have haffirmed : .ok (.allDone true) = Except.ok p.affirmed :=
    ServerRecord.toPayload_of_ofPayload hp
  cases p with
  | allDone success => exact ⟨success, htold⟩
  | _ => cases haffirmed

theorem allDone_told_of_finished (id : String) (total : UInt64) (delay : Nat)
    {p : Channel.Platform} {texts : List String} {is : List Input} (hheard : HeardIn p texts is)
    (hf : ((Session.new id total delay).run is).session.phase = .finished) :
    ∃ text ∈ texts, ∃ success, told? text = some (.allDone, .allDone success) := by
  have hnew : (Session.new id total delay).phase ≠ .finished := by simp [Session.new]
  have hmem : ∃ conn, .record conn .allDone ∈ is := by
    by_contra hnone
    exact Session.run_unfinished hnew (fun conn hmem => hnone ⟨conn, hmem⟩) hf
  obtain ⟨conn, hconn⟩ := hmem
  obtain ⟨text, htext, hinput⟩ := hheard conn _ hconn
  exact ⟨text, htext, told?_of_decode_allDone (input?_eq_record_iff.1 hinput)⟩

/-- **Decoding loses no field but a flag.** Whatever text is read as a record, what is written for
the record tells the same payload again, unless it is a pause or an end whose flag is not set; and
a session that has heard some texts is finished only if one of them tells an end, whatever its
flag. -/
theorem decode_retells (text id : String) (total : UInt64) (delay : Nat)
    {platform : Channel.Platform} {texts : List String} {is : List Input}
    (hheard : HeardIn platform texts is) :
    (∀ m, ServerRecord.decode text = .ok m →
      ∃ p again, m.encode = .ok again ∧ Retold text again p) ∧
    (∀ m, ClientRecord.decode text = .ok m →
      ∃ p again, m.encode = .ok again ∧ Retold text again p) ∧
    (((Session.new id total delay).run is).session.phase = .finished →
      ∃ t ∈ texts, ∃ success, told? t = some (.allDone, .allDone success)) :=
  ⟨fun _ h => ServerRecord.retold_of_decode h, fun _ h => ClientRecord.retold_of_decode h,
    allDone_told_of_finished id total delay hheard⟩

theorem decode_config : ServerRecord.decode (Envelope.wrap (.uploadConf 1 0 1)).render =
    .ok (.uploadConfig ⟨1024, 0, 1⟩) := by
  rw [ServerRecord.decode_wrap, if_neg (by decide)]
  decide

theorem decode_end (success : Bool) :
    ServerRecord.decode (Envelope.wrap (.allDone success)).render = .ok .allDone := by
  rw [ServerRecord.decode_wrap, if_neg (by cases success <;> decide)]
  rfl

theorem decode_pause (on : Bool) :
    ClientRecord.decode (Envelope.wrap (.pause on)).render = .ok .pause := by
  rw [ClientRecord.decode_wrap, if_neg (by cases on <;> decide)]
  rfl

/-- The upload of an empty file, all of which the server has as soon as it is asked. -/
def emptyFileInputs : List Input :=
  [.start, .channelOpened ⟨1⟩, .record ⟨1⟩ (.uploadConfig ⟨1024, 0, 1⟩), .record ⟨1⟩ .allDone]

/-- What the server says in this upload. -/
def emptyFileTexts (success : Bool) : List String :=
  [(Envelope.wrap (.uploadConf 1 0 1)).render, (Envelope.wrap (.allDone success)).render]

theorem heardIn_emptyFile (p : Channel.Platform) (success : Bool) :
    HeardIn p (emptyFileTexts success) emptyFileInputs := by
  intro conn r hmem
  simp only [emptyFileInputs, List.mem_cons, List.not_mem_nil, reduceCtorEq, Input.record.injEq,
    false_or, or_false] at hmem
  rcases hmem with ⟨rfl, rfl⟩ | ⟨rfl, rfl⟩
  · exact ⟨_, by simp [emptyFileTexts], input?_eq_record_iff.2 decode_config⟩
  · exact ⟨_, by simp [emptyFileTexts], input?_eq_record_iff.2 (decode_end success)⟩

theorem finished_emptyFile :
    ((Session.new "upload" 0 500).run emptyFileInputs).session.phase = .finished := by
  decide

theorem decode_retells_of_empty_file :
    HeardIn .plain (emptyFileTexts true) emptyFileInputs ∧
    (∃ p again, (ServerRecord.uploadConfig ⟨1024, 0, 1⟩).encode = .ok again ∧
      Retold (Envelope.wrap (.uploadConf 1 0 1)).render again p) ∧
    (∃ p again, ClientRecord.pause.encode = .ok again ∧
      Retold (Envelope.wrap (.pause true)).render again p) ∧
    ∃ t ∈ emptyFileTexts true, ∃ success, told? t = some (.allDone, .allDone success) := by
  have hheard := heardIn_emptyFile .plain true
  obtain ⟨hserver, -, hfinished⟩ :=
    decode_retells (Envelope.wrap (.uploadConf 1 0 1)).render "upload" 0 500 hheard
  obtain ⟨-, hclient, -⟩ :=
    decode_retells (Envelope.wrap (.pause true)).render "upload" 0 500 hheard
  exact ⟨hheard, hserver _ decode_config, hclient _ (decode_pause true),
    hfinished finished_emptyFile⟩

/-- An end that says that nothing was achieved is told again as one that says the opposite, and a
session finishes over it. -/
theorem told_otherwise_of_failed_end :
    ∃ text again,
      text = "\x7b\"MsgType\":\"MsgAllDone\",\"MsgData\":\x7b\"Success\":false\x7d\x7d" ∧
      ServerRecord.decode text = .ok .allDone ∧ ServerRecord.encode .allDone = .ok again ∧
      told? text = some (.allDone, .allDone false) ∧
      told? again = some (.allDone, .allDone true) ∧
      ∃ texts is, text ∈ texts ∧ HeardIn .plain texts is ∧
        ((Session.new "upload" 0 500).run is).session.phase = .finished ∧
        ∀ t ∈ texts, told? t ≠ some (.allDone, .allDone true) := by
  have hconfig : told? (Envelope.wrap (.uploadConf 1 0 1)).render ≠
      some (.allDone, .allDone true) := by
    rw [told?_wrap]
    decide
  have hend : told? (Envelope.wrap (.allDone false)).render ≠ some (.allDone, .allDone true) := by
    rw [told?_wrap]
    decide
  refine ⟨(Envelope.wrap (.allDone false)).render, (Envelope.wrap (.allDone true)).render,
    by decide, decode_end false, rfl, told?_wrap _, told?_wrap _, emptyFileTexts false,
    emptyFileInputs, by simp [emptyFileTexts], heardIn_emptyFile .plain false,
    finished_emptyFile, ?_⟩
  simp only [emptyFileTexts, List.mem_cons, List.not_mem_nil, or_false]
  rintro t (rfl | rfl)
  · exact hconfig
  · exact hend

end ResumableUpload.Wire
