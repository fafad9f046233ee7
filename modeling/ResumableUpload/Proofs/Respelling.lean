import ResumableUpload.Proofs.RoundTrip

/-!
# Decoding does not depend on the spelling

A payload and the envelope around it can each be spelled in many ways (`Wire.Payload.SpelledBy`).
Both sides read the same from all of them, and what they read is decided by the payload alone. The
text that is written for a payload is one of its spellings, but not always the shortest: it may be
too large where another one is not.

* `Wire.ServerRecord.ofPayload_ne_malformed`, `Wire.ClientRecord.ofPayload_ne_malformed` : what a
  payload says is a record, or another reason why there is none.
* `Wire.decode_spelled` : every spelling is read as the written text is, if both are not too large.
* `Wire.ServerRecord.decode_compactText`, `Wire.ServerRecord.decode_wrap_cancel` : a cancellation
  that is read from a list, while the text that is written for it is refused for its size.
-/

namespace ResumableUpload.Wire

open Json (Blank blank_nil)

/-! ### No payload is malformed -/

section Malformed

variable {fault : Json.Fault}

theorem map_ne_error {α β : Type} {e : RecordError} {r : Except RecordError α} {f : α → β}
    (h : r ≠ .error e) : r.map f ≠ .error e := by
  cases r with
  | ok a => simp [Except.map]
  | error e' => simpa [Except.map] using h

theorem toCount_ne_malformed {name : String} {n : Int64} :
    toCount name n ≠ .error (.malformed fault) := by
  unfold toCount
  split <;> simp

theorem params_ne_malformed {kb : UInt64} {pos : Int64} {ahead : UInt32} :
    ServerRecord.params kb pos ahead ≠ .error (.malformed fault) := by
  unfold ServerRecord.params
  split
  · simp
  · split
    · simp
    · split
      · rename_i he
        rintro ⟨⟩
        exact toCount_ne_malformed he
      · split <;> simp

theorem ServerRecord.ofPayload_ne_malformed (p : Payload) :
    ofPayload p ≠ .error (.malformed fault) := by
  cases p with
  | uploadConf => exact map_ne_error params_ne_malformed
  | chunkAck => exact map_ne_error toCount_ne_malformed
  | ack ok => cases ok <;> simp [ofPayload]
  | _ => simp [ofPayload]

theorem ClientRecord.ofPayload_ne_malformed (p : Payload) :
    ofPayload p ≠ .error (.malformed fault) := by
  cases p with
  | uploadReq => exact map_ne_error toCount_ne_malformed
  | ack ok => cases ok <;> simp [ofPayload]
  | _ => simp [ofPayload]

end Malformed

/-! ### Independence of the spelling -/

/-- **Decoding does not depend on the spelling.** From every spelling that is not too large both
sides read what the payload says, which is a record or why there is none, and never that the text is
malformed. That is what they read from the written text too, unless that one is too large. -/
theorem decode_spelled {p : Payload} {text : String} (h : p.SpelledBy text)
    (hfits : text.utf8ByteSize ≤ maxRecordBytes) :
    (ServerRecord.decode text = ServerRecord.ofPayload p ∧
      ClientRecord.decode text = ClientRecord.ofPayload p) ∧
    (∀ fault, ServerRecord.decode text ≠ .error (.malformed fault) ∧
      ClientRecord.decode text ≠ .error (.malformed fault)) ∧
    if (Envelope.wrap p).render.utf8ByteSize ≤ maxRecordBytes then
      ServerRecord.decode text = ServerRecord.decode (Envelope.wrap p).render ∧
        ClientRecord.decode text = ClientRecord.decode (Envelope.wrap p).render
    else
      ServerRecord.decode (Envelope.wrap p).render =
          .error (.tooLarge (Envelope.wrap p).render.utf8ByteSize) ∧
        ClientRecord.decode (Envelope.wrap p).render =
          .error (.tooLarge (Envelope.wrap p).render.utf8ByteSize) := by
  have hserver := ServerRecord.decode_eq_ofPayload h hfits
  have hclient := ClientRecord.decode_eq_ofPayload h hfits
  refine ⟨⟨hserver, hclient⟩, fun fault => ⟨?_, ?_⟩, ?_⟩
  · rw [hserver]
    exact ServerRecord.ofPayload_ne_malformed p
  · rw [hclient]
    exact ClientRecord.ofPayload_ne_malformed p
  -- the written text is a spelling as any other
  · have hrender := p.spelledBy_render
    generalize (Envelope.wrap p).render = written at hrender
    by_cases hwritten : written.utf8ByteSize ≤ maxRecordBytes
    · rw [if_pos hwritten, hserver, hclient, ServerRecord.decode_eq_ofPayload hrender hwritten,
        ClientRecord.decode_eq_ofPayload hrender hwritten]
      exact ⟨rfl, rfl⟩
    · rw [if_neg hwritten]
      exact ⟨openRecord_of_large (Nat.not_le.1 hwritten),
        openRecord_of_large (Nat.not_le.1 hwritten)⟩

/-! ### A mixture of forms -/

section Mixed

open Json (SpellsChar SpellsText SpellsMember SpellsElement Derives IsNumber IsWhole IsDigits)

/-- An acknowledgement as an object: its key is escaped, and a member that no form knows holds a
number that no float can hold. -/
def mixedPayload : String := "\x7b\"x\":[1e400], \"\\u0041ck\":true\x7d"

/-- The object in an envelope that is a list. -/
def mixedText : String := "[\"MsgAck\", \x7b\"x\":[1e400], \"\\u0041ck\":true\x7d]"

theorem presents_mixedPayload :
    Kind.ack.form.Presents [("Ack", .flag true)] mixedPayload.toList := by
  -- the key, with its first letter as a number
  have hA : SpellsChar 'A' ['\\', 'u', '0', '0', '4', '1'] :=
    .unit (.digits (a := 0) (b := 0) (c := 4) (d := 1) ⟨by decide, .inl rfl⟩ ⟨by decide, .inl rfl⟩
      ⟨by decide, .inl rfl⟩ ⟨by decide, .inl rfl⟩)
  have hck : SpellsText ['c', 'k'] ['c', 'k'] := .plain (by simp)
  have hkey : SpellsText "Ack".toList ['\\', 'u', '0', '0', '4', '1', 'c', 'k'] := .cons hA hck
  have htrue : (Json.Value.flag true).Spelled ['t', 'r', 'u', 'e'] := rfl
  have hack : SpellsMember Kind.ack.form [("Ack", .flag true)]
      ['"', '\\', 'u', '0', '0', '4', '1', 'c', 'k', '"', ':', 't', 'r', 'u', 'e'] :=
    .known (m := ("Ack", .flag true)) (.quoted hkey) blank_nil blank_nil htrue
  -- the member that no form knows
  have hone : IsWhole ['1'] := .digits (by decide) (by simp [IsDigits])
  have hsize : IsDigits ['4', '0', '0'] := by simp [IsDigits]
  have hnumber : IsNumber ['1', 'e', '4', '0', '0'] :=
    .number (.inl rfl) hone .none (.letter (.inl rfl) (.inl rfl) hsize)
  have hlist : Derives .value ['[', '1', 'e', '4', '0', '0', ']'] :=
    .filled (b := .list) (.last blank_nil .list blank_nil (.number hnumber) blank_nil)
  have hx : SpellsText "x".toList ['x'] := .plain (by simp)
  have hunknown : SpellsMember Kind.ack.form []
      ['"', 'x', '"', ':', '[', '1', 'e', '4', '0', '0', ']'] :=
    .unknown (by decide) (.quoted hx) blank_nil blank_nil hlist
  have hspace : Blank [' '] := by simp [Blank, Json.isSpace]
  exact .object (.refl _) (fun _ hm => by cases hm)
    (.filled (.next blank_nil hunknown blank_nil (.last hspace hack blank_nil)))

theorem spelledBy_mixedText : (Payload.ack true).SpelledBy mixedText := by
  have hpayload := presents_mixedPayload
  have htype : SpellsText "MsgAck".toList "MsgAck".toList := .plain (by simp)
  have hkind : SpellsElement [("MsgType", .text "MsgAck")]
      ['"', 'M', 's', 'g', 'A', 'c', 'k', '"'] :=
    .value (m := ("MsgType", .text "MsgAck")) (.quoted htype)
  have hdata : SpellsElement [("MsgData", .raw mixedPayload)] mixedPayload.toList :=
    .value (m := ("MsgData", .raw mixedPayload)) ⟨rfl, hpayload.derives⟩
  have hspace : Blank [' '] := by simp [Blank, Json.isSpace]
  have henvelope : Envelope.form.Presents
      [("MsgType", .text "MsgAck"), ("MsgData", .raw mixedPayload)] mixedText.toList :=
    .list rfl (fun _ hm => by cases hm)
      (.filled (.next blank_nil hkind blank_nil (.last hspace hdata blank_nil)))
  exact .envelope (p := .ack true) hpayload blank_nil henvelope blank_nil

theorem decode_spelled_of_mixed_forms :
    (Payload.ack true).SpelledBy mixedText ∧ mixedText.utf8ByteSize ≤ maxRecordBytes ∧
    (Envelope.wrap (.ack true)).render.utf8ByteSize ≤ maxRecordBytes ∧
    ServerRecord.decode mixedText = ServerRecord.decode (Envelope.wrap (.ack true)).render ∧
    ServerRecord.decode mixedText = .ok .cancelAck ∧
    ClientRecord.decode mixedText = ClientRecord.decode (Envelope.wrap (.ack true)).render ∧
    ClientRecord.decode mixedText = .ok .ack := by
  have hsize : mixedText.utf8ByteSize ≤ maxRecordBytes := by decide
  have hwritten : (Envelope.wrap (.ack true)).render.utf8ByteSize ≤ maxRecordBytes := by decide
  obtain ⟨⟨hserver, hclient⟩, -, hsame⟩ := decode_spelled spelledBy_mixedText hsize
  rw [if_pos hwritten] at hsame
  exact ⟨spelledBy_mixedText, hsize, hwritten, hsame.1, hserver, hsame.2, hclient⟩

end Mixed

/-! ### A written text that is too large -/

section Outgrown

open Json (SpellsText SpellsElement)

variable {n : Nat}

/-- A reason of `n` letters. -/
def longReason (n : Nat) : String := String.ofList (List.replicate n 'x')

/-- The payload of a cancellation as a list. -/
def compactPayload (n : Nat) : String := "[\"" ++ longReason n ++ "\"]"

/-- The list in an envelope that is a list too. -/
def compactText (n : Nat) : String := "[\"MsgCancel\"," ++ compactPayload n ++ "]"

theorem toList_longReason (n : Nat) : (longReason n).toList = List.replicate n 'x' := by
  rw [longReason, String.toList_ofList]

theorem utf8ByteSize_longReason (n : Nat) : (longReason n).utf8ByteSize = n := by
  rw [longReason]
  induction n with
  | zero => rfl
  | succ n ih =>
    have hx : (String.singleton 'x').utf8ByteSize = 1 := rfl
    rw [List.replicate_succ, String.ofList_cons, String.utf8ByteSize_append, ih, hx, Nat.add_comm]

theorem utf8ByteSize_between {s t u : String} {a b c : Nat} (hs : s.utf8ByteSize = a)
    (ht : t.utf8ByteSize = b) (hu : u.utf8ByteSize = c) :
    (s ++ t ++ u).utf8ByteSize = a + b + c := by
  rw [String.utf8ByteSize_append, String.utf8ByteSize_append, hs, ht, hu]

theorem utf8ByteSize_compactText (n : Nat) : (compactText n).utf8ByteSize = n + 18 := by
  have hpayload : (compactPayload n).utf8ByteSize = 2 + n + 2 :=
    utf8ByteSize_between rfl (utf8ByteSize_longReason n) rfl
  have htext : (compactText n).utf8ByteSize = 13 + (2 + n + 2) + 1 :=
    utf8ByteSize_between rfl hpayload rfl
  omega

/-- Letters are written as they are. -/
theorem flatMap_writeChar_longReason (n : Nat) :
    (longReason n).toList.flatMap Json.writeChar = (longReason n).toList := by
  rw [toList_longReason]
  induction n with
  | zero => rfl
  | succ n ih =>
    have hx : Json.writeChar 'x' = ['x'] := by decide
    rw [List.replicate_succ, List.flatMap_cons, ih, hx, List.singleton_append]

theorem render_wrap_cancel (n : Nat) : (Envelope.wrap (.cancel (longReason n))).render =
    "\x7b\"MsgType\":\"MsgCancel\",\"MsgData\":\x7b\"Reason\":\"" ++ longReason n ++
      "\"\x7d\x7d" := by
  rw [← String.toList_inj, Envelope.render, String.toList_ofList]
  simp [Envelope.wrap, Payload.kind, Kind.wireName, Payload.render, Payload.fields,
    Json.renderFields, Json.renderMember, Json.Value.render, Json.quoteText,
    flatMap_writeChar_longReason, Json.writeChar]

theorem utf8ByteSize_wrap_cancel (n : Nat) :
    (Envelope.wrap (.cancel (longReason n))).render.utf8ByteSize = n + 47 := by
  have htext : (Envelope.wrap (.cancel (longReason n))).render.utf8ByteSize = 44 + n + 3 := by
    rw [render_wrap_cancel]
    exact utf8ByteSize_between rfl (utf8ByteSize_longReason n) rfl
  omega

theorem presents_compactPayload (n : Nat) :
    Kind.cancel.form.Presents [("Reason", .text (longReason n))] (compactPayload n).toList := by
  have hbody : SpellsText (longReason n).toList (List.replicate n 'x') := by
    rw [toList_longReason]
    refine .plain fun c hc => ?_
    rw [List.eq_of_mem_replicate hc]
    decide
  have hreason : SpellsElement [("Reason", .text (longReason n))]
      ('"' :: (List.replicate n 'x' ++ ['"'])) :=
    .value (m := ("Reason", .text (longReason n))) (.quoted hbody)
  have hlist : Kind.cancel.form.Presents [("Reason", .text (longReason n))] _ :=
    .list rfl (fun _ hm => by cases hm) (.filled (.last blank_nil hreason blank_nil))
  simpa [compactPayload, toList_longReason, Json.Bracket.opening, Json.Bracket.close] using hlist

theorem spelledBy_compactText (n : Nat) :
    (Payload.cancel (longReason n)).SpelledBy (compactText n) := by
  have hpayload := presents_compactPayload n
  have htype : SpellsText "MsgCancel".toList "MsgCancel".toList := .plain (by simp)
  have hkind : SpellsElement [("MsgType", .text "MsgCancel")]
      ('"' :: ("MsgCancel".toList ++ ['"'])) :=
    .value (m := ("MsgType", .text "MsgCancel")) (.quoted htype)
  have hdata : SpellsElement [("MsgData", .raw (compactPayload n))] (compactPayload n).toList :=
    .value (m := ("MsgData", .raw (compactPayload n))) ⟨rfl, hpayload.derives⟩
  have henvelope : Envelope.form.Presents
      [("MsgType", .text "MsgCancel"), ("MsgData", .raw (compactPayload n))]
      (compactText n).toList := by
    have hlist : Envelope.form.Presents
        [("MsgType", .text "MsgCancel"), ("MsgData", .raw (compactPayload n))] _ :=
      .list rfl (fun _ hm => by cases hm)
        (.filled (.next blank_nil hkind blank_nil (.last blank_nil hdata blank_nil)))
    simpa [compactText, Json.Bracket.opening, Json.Bracket.close] using hlist
  have htext := Payload.SpelledBy.envelope (p := .cancel (longReason n)) hpayload blank_nil
    henvelope blank_nil
  rwa [List.nil_append, List.append_nil, String.ofList_toList] at htext

theorem ServerRecord.decode_compactText (h : n + 18 ≤ maxRecordBytes) :
    decode (compactText n) = .ok (.cancel (longReason n)) := by
  rw [← utf8ByteSize_compactText] at h
  exact decode_eq_ofPayload (spelledBy_compactText n) h

theorem ServerRecord.decode_wrap_cancel (h : maxRecordBytes < n + 47) :
    decode (Envelope.wrap (.cancel (longReason n))).render = .error (.tooLarge (n + 47)) := by
  rw [← utf8ByteSize_wrap_cancel] at h ⊢
  exact openRecord_of_large h

/-- The largest cancellation that can be spelled: what is written for it is too large. -/
theorem decode_of_outgrown_cancel :
    (Payload.cancel (longReason 1048558)).SpelledBy (compactText 1048558) ∧
    (compactText 1048558).utf8ByteSize ≤ maxRecordBytes ∧
    ServerRecord.decode (compactText 1048558) = .ok (.cancel (longReason 1048558)) ∧
    ServerRecord.decode (Envelope.wrap (.cancel (longReason 1048558))).render =
      .error (.tooLarge 1048605) ∧
    ServerRecord.decode (compactText 1048558) ≠
      ServerRecord.decode (Envelope.wrap (.cancel (longReason 1048558))).render := by
  have hfits : 1048558 + 18 ≤ maxRecordBytes := by decide
  have hlarge : maxRecordBytes < 1048558 + 47 := by decide
  have hread := ServerRecord.decode_compactText hfits
  have hrefused := ServerRecord.decode_wrap_cancel hlarge
  refine ⟨spelledBy_compactText _, (utf8ByteSize_compactText _).trans_le hfits, hread, hrefused, ?_⟩
  rw [hread, hrefused]
  exact fun h => by cases h

end Outgrown

end ResumableUpload.Wire
