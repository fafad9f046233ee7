import Mathlib.Algebra.GroupWithZero.Nat
import ResumableUpload.Proofs.WrittenRecord
import ResumableUpload.Wire.Record

/-!
# Client records survive the wire

Between a record and its text lie the payload, with a signed word for every count of bytes, and the
envelope around the payload's own text. Only the signed word may be too small for what it has to
carry. Whatever is written is read back as it was, unless its text is too large to be read at all.

* `Wire.toCount_of_toSigned`, `Wire.toSigned_of_toCount` : counts of bytes and signed words.
* `Wire.openRecord_spelled` : what is read from a spelling of a payload, on both sides.
* `Wire.ClientRecord.decode_wrap` : what is read from the text of a payload.
* `Wire.ClientRecord.survives_wire` : what becomes of every client record.
-/

namespace ResumableUpload.Wire

/-! ### Counts of bytes -/

theorem toSigned_of_lt {n : UInt64} (h : n.toNat < 2 ^ 63) (name : String) :
    toSigned name n = .ok (.ofNat n.toNat) := if_pos h

theorem toSigned_of_le {n : UInt64} (h : 2 ^ 63 ≤ n.toNat) (name : String) :
    toSigned name n = .error (.outOfRange name n) := if_neg (Nat.not_lt.2 h)

/-- A count of bytes is found again in the signed word it was written as. -/
theorem toCount_of_toSigned {name : String} {n : UInt64} {k : Int64}
    (h : toSigned name n = .ok k) (name' : String) : toCount name' k = .ok n := by
  by_cases hn : n.toNat < 2 ^ 63
  · rw [toSigned_of_lt hn] at h
    cases h
    have hint : (Int64.ofNat n.toNat).toInt = n.toNat := Int64.toInt_ofNat_of_lt hn
    simp [toCount, hint]
  · rw [toSigned_of_le (Nat.not_lt.1 hn)] at h
    cases h

/-- A signed word that was read as a count of bytes is written as it was. -/
theorem toSigned_of_toCount {name : String} {n : UInt64} {k : Int64}
    (h : toCount name k = .ok n) (name' : String) : toSigned name' n = .ok k := by
  unfold toCount at h
  split at h
  · rename_i hk
    cases h
    have hlt := k.toInt_lt
    have hnat : (UInt64.ofNat k.toInt.toNat).toNat = k.toInt.toNat := by
      simp only [UInt64.toNat_ofNat']
      omega
    have hsigned : Int64.ofNat k.toInt.toNat = k := by
      rw [← Int64.toInt_inj, Int64.toInt_ofNat_of_lt (by omega), Int.toNat_of_nonneg hk]
    rw [toSigned_of_lt (by omega), hnat, hsigned]
  · cases h

/-! ### Envelopes -/

/-- Both sides read a text in this way: the envelope, then the payload if they take records of its
kind, then the record. -/
def openRecord {α : Type} (speaks : Kind → Bool) (ofPayload : Payload → Except RecordError α)
    (text : String) : Except RecordError α := do
  let e ← openEnvelope text
  if speaks e.kind then ofPayload (← openPayload e) else .error (.wrongDirection e.kind)

section Decode

variable {α : Type} {speaks : Kind → Bool} {ofPayload : Payload → Except RecordError α}
  {p : Payload} {text : String}

/-- What is read from an envelope in which the payload is found. -/
theorem openRecord_of_open {e : Envelope} (he : openEnvelope text = .ok e) (hk : e.kind = p.kind)
    (hp : openPayload e = .ok p)
    (hspeaks : speaks p.kind = false → ofPayload p = .error (.wrongDirection p.kind)) :
    openRecord speaks ofPayload text = ofPayload p := by
  rw [openRecord, he]
  cases hs : speaks p.kind with
  | false =>
    rw [hspeaks hs]
    simp [bind, Except.bind, hk, hs]
  | true => simp [bind, Except.bind, hk, hs, hp]

/-- What is read from a spelling of a payload that is not too large. -/
theorem openRecord_spelled (h : p.SpelledBy text) (hfits : text.utf8ByteSize ≤ maxRecordBytes)
    (hspeaks : speaks p.kind = false → ofPayload p = .error (.wrongDirection p.kind)) :
    openRecord speaks ofPayload text = ofPayload p := by
  cases h with
  | @envelope json before cs after hp hb he ha =>
    have hparse := Envelope.parse_spelled (Payload.reads_raw_of_presents hp) hb he ha
    have hopen : openEnvelope (String.ofList (before ++ (cs ++ after))) =
        .ok ⟨p.kind, some json⟩ := by
      rw [openEnvelope, if_neg (Nat.not_lt.2 hfits), hparse]
    refine openRecord_of_open hopen rfl ?_ hspeaks
    simp [openPayload, Envelope.payloadAs, Payload.parse_spelled hp, Except.map]

theorem openRecord_of_large (h : maxRecordBytes < text.utf8ByteSize) :
    openRecord speaks ofPayload text = .error (.tooLarge text.utf8ByteSize) := by
  rw [openRecord, openEnvelope, if_pos h]
  rfl

/-- What is read from the text that is written for a payload. -/
theorem openRecord_wrap (p : Payload)
    (hspeaks : speaks p.kind = false → ofPayload p = .error (.wrongDirection p.kind)) :
    openRecord speaks ofPayload (Envelope.wrap p).render =
      if maxRecordBytes < (Envelope.wrap p).render.utf8ByteSize then
        .error (.tooLarge (Envelope.wrap p).render.utf8ByteSize)
      else ofPayload p := by
  split
  · rename_i hlarge
    exact openRecord_of_large hlarge
  · rename_i hfits
    exact openRecord_spelled p.spelledBy_render (Nat.not_lt.1 hfits) hspeaks

end Decode

section Sides

variable {p : Payload} {text : String}

theorem ClientRecord.ofPayload_of_not_speaks (h : speaks p.kind = false) :
    ofPayload p = .error (.wrongDirection p.kind) := by
  cases p <;> first | rfl | cases h

theorem ServerRecord.ofPayload_of_not_speaks (h : speaks p.kind = false) :
    ofPayload p = .error (.wrongDirection p.kind) := by
  cases p <;> first | rfl | cases h

theorem ClientRecord.decode_eq_ofPayload (h : p.SpelledBy text)
    (hfits : text.utf8ByteSize ≤ maxRecordBytes) : decode text = ofPayload p :=
  openRecord_spelled h hfits ofPayload_of_not_speaks

theorem ServerRecord.decode_eq_ofPayload (h : p.SpelledBy text)
    (hfits : text.utf8ByteSize ≤ maxRecordBytes) : decode text = ofPayload p :=
  openRecord_spelled h hfits ofPayload_of_not_speaks

theorem ClientRecord.decode_wrap (p : Payload) :
    decode (Envelope.wrap p).render =
      if maxRecordBytes < (Envelope.wrap p).render.utf8ByteSize then
        .error (.tooLarge (Envelope.wrap p).render.utf8ByteSize)
      else ofPayload p :=
  openRecord_wrap p ofPayload_of_not_speaks

theorem ServerRecord.decode_wrap (p : Payload) :
    decode (Envelope.wrap p).render =
      if maxRecordBytes < (Envelope.wrap p).render.utf8ByteSize then
        .error (.tooLarge (Envelope.wrap p).render.utf8ByteSize)
      else ofPayload p :=
  openRecord_wrap p ofPayload_of_not_speaks

end Sides

/-! ### Client records -/

namespace ClientRecord

theorem ofPayload_of_toPayload {m : ClientRecord} {p : Payload} (h : m.toPayload = .ok p) :
    ofPayload p = .ok m := by
  cases m with
  | uploadRequest id n =>
    rw [toPayload] at h
    cases hn : toSigned "LengthBytes" n with
    | error e => rw [hn] at h; cases h
    | ok k =>
      rw [hn] at h
      cases h
      simp [ofPayload, toCount_of_toSigned hn, Except.map]
  | ack => cases h; rfl
  | pause => cases h; rfl
  | cancel reason => cases h; rfl

/-- The length of a file that no signed word can carry. -/
def overlong? : ClientRecord → Option UInt64
  | uploadRequest _ totalBytes => if 2 ^ 63 ≤ totalBytes.toNat then some totalBytes else none
  | _ => none

theorem encode_of_overlong {m : ClientRecord} {n : UInt64} (h : m.overlong? = some n) :
    m.encode = .error (.outOfRange "LengthBytes" n) := by
  cases m with
  | uploadRequest id total =>
    rw [overlong?] at h
    split at h
    · rename_i hle
      cases h
      simp [encode, toPayload, toSigned_of_le hle, Except.map]
    · cases h
  | _ => cases h

theorem toPayload_of_not_overlong {m : ClientRecord} (h : m.overlong? = none) :
    ∃ p, m.toPayload = .ok p := by
  cases m with
  | uploadRequest id total =>
    rw [overlong?] at h
    split at h
    · cases h
    · rename_i hlt
      rw [toPayload, toSigned_of_lt (Nat.not_le.1 hlt)]
      exact ⟨_, rfl⟩
  | ack | pause | cancel => exact ⟨_, rfl⟩

/-- **Client records survive the wire.** A request for a file whose length no signed word can carry
cannot be written. Every other record is written and read back as it was, if its text is not too
large. -/
theorem survives_wire (m : ClientRecord) :
    match m.overlong? with
    | some n => m.encode = .error (.outOfRange "LengthBytes" n)
    | none => ∃ text, m.encode = .ok text ∧
        decode text =
          if maxRecordBytes < text.utf8ByteSize then .error (.tooLarge text.utf8ByteSize)
          else .ok m := by
  cases h : m.overlong? with
  | some n => exact encode_of_overlong h
  | none =>
    obtain ⟨p, hp⟩ := toPayload_of_not_overlong h
    refine ⟨(Envelope.wrap p).render, ?_, ?_⟩
    · simp [encode, hp, Except.map]
    · rw [decode_wrap, ofPayload_of_toPayload hp]

end ClientRecord

end ResumableUpload.Wire
