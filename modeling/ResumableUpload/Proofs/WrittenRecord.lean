import ResumableUpload.Proofs.Reading
import ResumableUpload.Wire.Envelope

/-!
# Payloads and envelopes are read back

A payload is a record, and so is the envelope around it, which holds the payload as it is spelled.
Both are found again in each of their spellings (`Wire.Payload.parse_spelled`,
`Wire.Envelope.parse_spelled`). The text that is written for a payload is one of them
(`Wire.Payload.spelledBy_render`).
-/

namespace ResumableUpload.Wire

open Json (Blank Derives IntRange Slot blank_nil)

/-! ### Payloads -/

theorem i32_inWords : IntRange.i32.InWords := by unfold IntRange.InWords; decide

theorem u32_inWords : IntRange.u32.InWords := by unfold IntRange.InWords; decide

theorem i64_inWords : IntRange.i64.InWords := by unfold IntRange.InWords; decide

theorem u64_inWords : IntRange.u64.InWords := by unfold IntRange.InWords; decide

theorem reads_int64 (n : Int64) : (Slot.int .i64).Reads (.int n.toInt) :=
  Slot.reads_int i64_inWords n.minValue_le_toInt n.toInt_le

theorem reads_int32 (n : Int32) : (Slot.int .i32).Reads (.int n.toInt) :=
  Slot.reads_int i32_inWords n.minValue_le_toInt n.toInt_le

theorem reads_uint64 (n : UInt64) : (Slot.int .u64).Reads (.int n.toNat) := by
  have hlt := n.toNat_lt
  have hhigh : (n.toNat : Int) ≤ IntRange.u64.high := by
    simp only [IntRange.u64, UInt64.size]
    omega
  exact Slot.reads_int u64_inWords (Int.natCast_nonneg _) hhigh

theorem reads_uint32 (n : UInt32) : (Slot.int .u32).Reads (.int n.toNat) := by
  have hlt := n.toNat_lt
  have hhigh : (n.toNat : Int) ≤ IntRange.u32.high := by
    simp only [IntRange.u32, UInt32.size]
    omega
  exact Slot.reads_int u32_inWords (Int.natCast_nonneg _) hhigh

theorem Kind.nodup_form (k : Kind) : (k.form.fields.map (·.name)).Nodup := by
  cases k <;> decide

namespace Payload

variable {p : Payload}

theorem names_fields (p : Payload) :
    p.fields.map Prod.fst = p.kind.form.fields.map (·.name) := by
  cases p <;> rfl

theorem writes (p : Payload) : p.kind.form.Writes p.fields := by
  refine Json.Form.writes_of_map_fst p.kind.nodup_form p.names_fields ?_
  cases p with
  | uploadReq id n => simpa [kind, Kind.form, fields] using ⟨Slot.reads_text id, reads_int64 n⟩
  | uploadConf kb pos ahead =>
    simpa [kind, Kind.form, fields] using ⟨reads_uint64 kb, reads_int64 pos, reads_uint32 ahead⟩
  | ack ok => simpa [kind, Kind.form, fields] using Slot.reads_flag ok
  | chunkAck n => simpa [kind, Kind.form, fields] using reads_int64 n
  | error code msg =>
    simpa [kind, Kind.form, fields] using ⟨reads_int32 code, Slot.reads_text msg⟩
  | cancel reason => simpa [kind, Kind.form, fields] using Slot.reads_text reason
  | pause on => simpa [kind, Kind.form, fields] using Slot.reads_flag on
  | allDone success => simpa [kind, Kind.form, fields] using Slot.reads_flag success

theorem ofFields_of_agrees {k : Kind} {given fields : Json.Fields} (h : given.Agrees fields) :
    ofFields k given = ofFields k fields := by
  cases k <;> simp only [ofFields, h.text, h.int, h.flag]

/-- **A payload is found again in each of its spellings.** -/
theorem parse_spelled {json : String} (h : p.kind.form.Presents p.fields json.toList) :
    parse p.kind json = .ok p := by
  obtain ⟨given, hparse, hagrees⟩ := h.parse p.writes p.names_fields blank_nil blank_nil
  rw [List.nil_append, List.append_nil, String.ofList_toList] at hparse
  rw [parse, hparse]
  exact congrArg Except.ok ((ofFields_of_agrees hagrees).trans p.ofFields_fields)

/-- No field of a payload is kept as it is spelled. -/
theorem ne_raw_of_mem (p : Payload) : ∀ m ∈ p.fields, ∀ json, m.2 ≠ .raw json := by
  cases p <;> simp [fields]

/-- The text that is written for a payload is one of its spellings. -/
theorem presents_render (p : Payload) : p.kind.form.Presents p.fields p.render.toList := by
  rw [render, String.toList_ofList]
  exact Json.Form.presents_renderFields _ fun m hm =>
    Json.Value.spelled_render fun json hjson => absurd hjson (p.ne_raw_of_mem m hm json)

/-- **A payload is found again in its text.** -/
theorem parse_render (p : Payload) : parse p.kind p.render = .ok p :=
  parse_spelled p.presents_render

/-- What spells a record begins with a bracket. -/
theorem head_of_presents {form : Json.Form} {fields : Json.Fields} {cs : List Char}
    (h : form.Presents fields cs) :
    ∃ c tail, cs = c :: tail ∧ Json.isSpace c = false ∧ c ≠ 'n' := by
  cases h with
  | object _ _ hs => cases hs <;> exact ⟨_, _, rfl, by decide, by decide⟩
  | list _ _ hs => cases hs <;> exact ⟨_, _, rfl, by decide, by decide⟩

theorem reads_raw_of_presents {form : Json.Form} {fields : Json.Fields} {json : String}
    (h : form.Presents fields json.toList) : Slot.rawOrNull.Reads (.raw json) := by
  obtain ⟨c, tail, hjson, hspace, hnull⟩ := head_of_presents h
  have hspells := h.derives.spells
  rw [hjson] at hspells
  rw [← String.ofList_toList (s := json), hjson]
  exact Slot.reads_raw hspells hspace hnull

end Payload

/-! ### Envelopes -/

namespace Envelope

theorem nodup_form : (form.fields.map (·.name)).Nodup := by decide

theorem writes {kind : Kind} {json : String} (h : Slot.rawOrNull.Reads (.raw json)) :
    form.Writes [("MsgType", .text kind.wireName), ("MsgData", .raw json)] := by
  have hname : kind.wireName ∈ Kind.wireNames := List.mem_map_of_mem kind.mem_all
  refine Json.Form.writes_of_map_fst nodup_form rfl ?_
  simpa [form] using ⟨Slot.reads_tag hname, h⟩

/-- **An envelope is found again in each of its spellings**, its payload spelled as it was. -/
theorem parse_spelled {kind : Kind} {json : String} {before cs after : List Char}
    (hjson : Slot.rawOrNull.Reads (.raw json)) (hb : Blank before)
    (h : form.Presents [("MsgType", .text kind.wireName), ("MsgData", .raw json)] cs)
    (ha : Blank after) :
    parse (String.ofList (before ++ (cs ++ after))) = .ok ⟨kind, some json⟩ := by
  obtain ⟨given, hparse, hagrees⟩ := h.parse (writes hjson) rfl hb ha
  have htype : given.text "MsgType" = kind.wireName := by
    rw [hagrees.text]
    simp [Json.Fields.text, Json.Fields.get?]
  have hdata : given.raw? "MsgData" = some json := by
    rw [hagrees.raw?]
    simp [Json.Fields.raw?, Json.Fields.get?, List.lookup_cons]
  rw [parse, hparse]
  simp [Except.map, ofFields, htype, hdata, Kind.ofWireName?_wireName]

theorem presents_render {kind : Kind} {json : String} (h : Derives .value json.toList) :
    form.Presents [("MsgType", .text kind.wireName), ("MsgData", .raw json)]
      (render ⟨kind, some json⟩).toList := by
  rw [render, String.toList_ofList]
  refine Json.Form.presents_renderFields _ fun m hm => Json.Value.spelled_render ?_
  rintro raw hraw
  obtain rfl | rfl : m = ("MsgType", .text kind.wireName) ∨ m = ("MsgData", .raw json) := by
    simpa using hm
  · cases hraw
  · cases hraw
    exact h

theorem parse_wrap_render (p : Payload) : parse (wrap p).render = .ok (wrap p) := by
  have hpayload := p.presents_render
  have henvelope : form.Presents _ (wrap p).render.toList := presents_render hpayload.derives
  have hparse := parse_spelled (Payload.reads_raw_of_presents hpayload) blank_nil henvelope
    blank_nil
  rwa [List.nil_append, List.append_nil, String.ofList_toList] at hparse

end Envelope

/-! ### A payload in its envelope -/

/-- The text spells an envelope of the payload's kind around a spelling of the payload. -/
inductive Payload.SpelledBy (p : Payload) : String → Prop
  | envelope {json : String} {before cs after : List Char}
      (hp : p.kind.form.Presents p.fields json.toList) (hb : Blank before)
      (he : Envelope.form.Presents
        [("MsgType", .text p.kind.wireName), ("MsgData", .raw json)] cs)
      (ha : Blank after) : p.SpelledBy (String.ofList (before ++ (cs ++ after)))

/-- The text that is written for a payload is one of its spellings. -/
theorem Payload.spelledBy_render (p : Payload) : p.SpelledBy (Envelope.wrap p).render := by
  have hpayload := p.presents_render
  have htext := SpelledBy.envelope hpayload blank_nil (Envelope.presents_render hpayload.derives)
    blank_nil
  rwa [List.nil_append, List.append_nil, String.ofList_toList] at htext

end ResumableUpload.Wire
