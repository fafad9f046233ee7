import ResumableUpload.Proofs.Retelling

/-!
# Server records survive the wire exactly where they can

A server record is written with a signed word for every count of bytes, and with the size of a chunk
in whole units. What does not fit a signed word cannot be written. What is no whole number of units,
or lets no upload make progress, is written but not read back; whatever is read can be written and
read again.

* `Wire.ServerRecord.overlong?` : the number of a record that no signed word can carry.
* `Wire.ServerRecord.Announceable` : the records that are read back.
* `Wire.ServerRecord.params_eq_ok_iff` : which parameters are let through.
* `Wire.ServerRecord.ofPayload_eq_ok_iff` : which records are found again in their payload.
* `Wire.ServerRecord.survives_exactly` : what becomes of every server record and of every text.
-/

namespace ResumableUpload.Wire.ServerRecord

/-- The number of a record that no signed word can carry, with the name of its field. -/
def overlong? : ServerRecord → Option (String × UInt64)
  | uploadConfig params =>
    if 2 ^ 63 ≤ params.resumeOffset.toNat then some ("FilePos", params.resumeOffset) else none
  | chunkAck size => if 2 ^ 63 ≤ size.toNat then some ("ChunkSize", size) else none
  | _ => none

/-- The record announces no parameters, or chunks of whole units and at least one of them ahead. -/
def Announceable : ServerRecord → Prop
  | uploadConfig params =>
    params.chunkSize ≠ 0 ∧ 1024 ∣ params.chunkSize.toNat ∧ 1 ≤ params.sendAhead.toNat
  | _ => True

instance : DecidablePred Announceable
  | uploadConfig params =>
    inferInstanceAs (Decidable (params.chunkSize ≠ 0 ∧ 1024 ∣ params.chunkSize.toNat ∧
      1 ≤ params.sendAhead.toNat))
  | error .. | chunkAck _ | allDone | cancel _ | cancelAck => .isTrue trivial

/-! ### Parameters -/

theorem params_eq_ok_iff {kb : UInt64} {pos : Int64} {ahead : UInt32} {p : UploadParams} :
    params kb pos ahead = .ok p ↔
      kb ≠ 0 ∧ ahead ≠ 0 ∧ toCount "FilePos" pos = .ok p.resumeOffset ∧
        p.chunkSize.toNat = kb.toNat * 1024 ∧ p.sendAhead = ahead := by
  have hunit : chunkUnit.toNat = 1024 := rfl
  have hsize := p.chunkSize.toNat_lt
  unfold params
  constructor
  · intro h
    split at h
    · cases h
    · split at h
      · cases h
      · rename_i hkb hahead
        split at h
        · cases h
        · rename_i offset hpos
          split at h
          · rename_i hfits
            cases h
            exact ⟨hkb, hahead, hpos, by rw [UInt64.toNat_mul, Nat.mod_eq_of_lt hfits, hunit], rfl⟩
          · cases h
  · rintro ⟨hkb, hahead, hpos, hchunk, rfl⟩
    have hfits : kb.toNat * chunkUnit.toNat < UInt64.size := by
      rw [hunit, ← hchunk]
      exact hsize
    have hmul : kb * chunkUnit = p.chunkSize := by
      rw [← UInt64.toNat_inj, UInt64.toNat_mul, Nat.mod_eq_of_lt hfits, hchunk, hunit]
    simp only [if_neg hkb, if_neg hahead, hpos, if_pos hfits, hmul]

theorem announceable_of_params {kb : UInt64} {pos : Int64} {ahead : UInt32} {p : UploadParams}
    (h : params kb pos ahead = .ok p) : (uploadConfig p).Announceable := by
  obtain ⟨hkb, hahead, -, hchunk, hsend⟩ := params_eq_ok_iff.1 h
  have hkb' : kb.toNat ≠ 0 := fun he => hkb (UInt64.toNat_inj.1 he)
  have hahead' : ahead.toNat ≠ 0 := fun he => hahead (UInt32.toNat_inj.1 he)
  refine ⟨fun he => ?_, ⟨kb.toNat, by rw [hchunk, Nat.mul_comm]⟩, by rw [hsend]; omega⟩
  rw [he, UInt64.toNat_zero] at hchunk
  omega

/-- Chunks of whole units are announced without a rest. -/
theorem params_of_announceable {p : UploadParams} {pos : Int64}
    (h : (uploadConfig p).Announceable) (hpos : toCount "FilePos" pos = .ok p.resumeOffset) :
    params (p.chunkSize / chunkUnit) pos p.sendAhead = .ok p := by
  obtain ⟨hne, hdvd, hahead⟩ := h
  have hquot : (p.chunkSize / chunkUnit).toNat * 1024 = p.chunkSize.toNat := by
    rw [UInt64.toNat_div]
    exact Nat.div_mul_cancel hdvd
  refine params_eq_ok_iff.2 ⟨fun he => hne ?_, fun he => ?_, hpos, hquot.symm, rfl⟩
  · rw [he, UInt64.toNat_zero, Nat.zero_mul] at hquot
    exact UInt64.toNat_inj.1 hquot.symm
  · rw [he, UInt32.toNat_zero] at hahead
    omega

/-! ### Payloads -/

theorem announceable_of_ofPayload {p : Payload} {m : ServerRecord} (h : ofPayload p = .ok m) :
    m.Announceable := by
  cases p with
  | uploadConf kb pos ahead =>
    rw [ofPayload] at h
    cases hp : params kb pos ahead with
    | error e => rw [hp] at h; cases h
    | ok config =>
      rw [hp] at h
      cases h
      exact announceable_of_params hp
  | chunkAck k =>
    rw [ofPayload] at h
    cases hk : toCount "ChunkSize" k with
    | error e => rw [hk] at h; cases h
    | ok n =>
      rw [hk] at h
      cases h
      trivial
  | ack ok =>
    cases ok with
    | false => cases h
    | true => cases h; trivial
  | error | allDone | cancel => cases h; trivial
  | uploadReq | pause => cases h

/-- A record is found again in its payload exactly if it can be announced. -/
theorem ofPayload_eq_ok_iff {m : ServerRecord} {p : Payload} (h : m.toPayload = .ok p) :
    ofPayload p = .ok m ↔ m.Announceable := by
  refine ⟨announceable_of_ofPayload, fun ha => ?_⟩
  cases m with
  | uploadConfig config =>
    rw [toPayload] at h
    cases hn : toSigned "FilePos" config.resumeOffset with
    | error e => rw [hn] at h; cases h
    | ok k =>
      rw [hn] at h
      cases h
      simp [ofPayload, params_of_announceable ha (toCount_of_toSigned hn _), Except.map]
  | chunkAck size =>
    rw [toPayload] at h
    cases hn : toSigned "ChunkSize" size with
    | error e => rw [hn] at h; cases h
    | ok k =>
      rw [hn] at h
      cases h
      simp [ofPayload, toCount_of_toSigned hn, Except.map]
  | error | allDone | cancel | cancelAck => cases h; rfl

/-! ### Texts -/

theorem encode_of_overlong {m : ServerRecord} {name : String} {n : UInt64}
    (h : m.overlong? = some (name, n)) : m.encode = .error (.outOfRange name n) := by
  cases m with
  | uploadConfig params =>
    rw [overlong?] at h
    split at h
    · rename_i hle
      cases h
      simp [encode, toPayload, toSigned_of_le hle, Except.map]
    · cases h
  | chunkAck size =>
    rw [overlong?] at h
    split at h
    · rename_i hle
      cases h
      simp [encode, toPayload, toSigned_of_le hle, Except.map]
    · cases h
  | _ => cases h

theorem toPayload_of_not_overlong {m : ServerRecord} (h : m.overlong? = none) :
    ∃ p, m.toPayload = .ok p := by
  cases m with
  | uploadConfig params =>
    rw [overlong?] at h
    split at h
    · cases h
    · rename_i hlt
      rw [toPayload, toSigned_of_lt (Nat.not_le.1 hlt)]
      exact ⟨_, rfl⟩
  | chunkAck size =>
    rw [overlong?] at h
    split at h
    · cases h
    · rename_i hlt
      rw [toPayload, toSigned_of_lt (Nat.not_le.1 hlt)]
      exact ⟨_, rfl⟩
  | error | allDone | cancel | cancelAck => exact ⟨_, rfl⟩

theorem encode_eq_ok {m : ServerRecord} {p : Payload} (h : m.toPayload = .ok p) :
    m.encode = .ok (Envelope.wrap p).render := by
  simp [encode, h, Except.map]

/-- A record that was written is read back exactly if it can be announced and its text is not too
large. -/
theorem decode_wrap_of_toPayload {m : ServerRecord} {p : Payload} (h : m.toPayload = .ok p)
    (hfits : (Envelope.wrap p).render.utf8ByteSize ≤ maxRecordBytes) :
    decode (Envelope.wrap p).render = .ok m ↔ m.Announceable := by
  rw [decode_wrap, if_neg (Nat.not_lt.2 hfits)]
  exact ofPayload_eq_ok_iff h

/-- What was read can be written. -/
theorem toPayload_of_decode {text : String} {m : ServerRecord} (h : decode text = .ok m) :
    (∃ p, m.toPayload = .ok p) ∧ m.Announceable := by
  obtain ⟨p, -, hp⟩ := told?_of_openRecord h
  exact ⟨⟨_, toPayload_of_ofPayload hp⟩, announceable_of_ofPayload hp⟩

/-- **Server records survive the wire exactly where they can.** A record with a number that no
signed word can carry cannot be written. Every other record is written, and read back from a text
that is not too large exactly if it can be announced. Every record that is read, from whatever text,
can be written and announced, so that it is read again unless its new text is too large. -/
theorem survives_exactly :
    (∀ m : ServerRecord,
      match m.overlong? with
      | some (name, n) => m.encode = .error (.outOfRange name n)
      | none => ∃ text, m.encode = .ok text ∧
          (text.utf8ByteSize ≤ maxRecordBytes → (decode text = .ok m ↔ m.Announceable))) ∧
    ∀ (text : String) (m : ServerRecord), decode text = .ok m →
      m.overlong? = none ∧ m.Announceable ∧
        ∃ again, m.encode = .ok again ∧
          (again.utf8ByteSize ≤ maxRecordBytes → decode again = .ok m) := by
  refine ⟨fun m => ?_, fun text m h => ?_⟩
  · cases ho : m.overlong? with
    | some number => exact encode_of_overlong ho
    | none =>
      obtain ⟨p, hp⟩ := toPayload_of_not_overlong ho
      exact ⟨_, encode_eq_ok hp, decode_wrap_of_toPayload hp⟩
  · obtain ⟨⟨p, hp⟩, ha⟩ := toPayload_of_decode h
    refine ⟨?_, ha, _, encode_eq_ok hp, fun hfits => (decode_wrap_of_toPayload hp hfits).2 ha⟩
    cases ho : m.overlong? with
    | none => rfl
    | some number =>
      have herror := encode_of_overlong ho
      rw [encode_eq_ok hp] at herror
      cases herror

/-- Parameters that were read, with the largest offset of a signed word, are written and read
again. -/
theorem survives_exactly_of_largest_offset :
    decode (Envelope.wrap (.uploadConf 1 Int64.maxValue 1)).render =
        .ok (uploadConfig ⟨1024, 9223372036854775807, 1⟩) ∧
      (uploadConfig ⟨1024, 9223372036854775807, 1⟩).overlong? = none ∧
      (uploadConfig ⟨1024, 9223372036854775807, 1⟩).Announceable ∧
      ∃ again, (uploadConfig ⟨1024, 9223372036854775807, 1⟩).encode = .ok again ∧
        (again.utf8ByteSize ≤ maxRecordBytes →
          decode again = .ok (uploadConfig ⟨1024, 9223372036854775807, 1⟩)) := by
  have hread : decode (Envelope.wrap (.uploadConf 1 Int64.maxValue 1)).render =
      .ok (uploadConfig ⟨1024, 9223372036854775807, 1⟩) := by
    rw [decode_wrap, if_neg (by decide)]
    decide
  exact ⟨hread, survives_exactly.2 _ _ hread⟩

end ResumableUpload.Wire.ServerRecord
