import ResumableUpload.Proofs.Kept
import ResumableUpload.Proofs.WrittenRecord

/-!
# The payload of an envelope is kept as it is spelled

An envelope names its kind and holds the text of its payload. What that text is in an envelope that
someone else wrote is said by `SpelledBy`, without regard to the reader: in an object the two come
in either order among members of other names, in a list the kind comes first, and the payload may be
left out. Null is as good as no payload.

* `spelledBy_iff` : the two fields are read exactly from the spellings.
* `parse_eq_ok_iff` : so are envelopes.
* `parse_render` : what was read is written and read again.
* `verbatim_of_parse` : the payload of every envelope is kept as it is spelled.
-/

namespace ResumableUpload.Wire

open Json

theorem Kind.mem_wireNames {name : String} :
    name ∈ wireNames ↔ ∃ k : Kind, k.wireName = name := by
  simp [wireNames, mem_all]

namespace Envelope

/-! ### The spellings of an envelope -/

/-- The spellings of the fields of an envelope. -/
inductive SpellsField : String × Value → List Char → Prop
  | kind {k : Kind} {cs : List Char} (hs : SpellsTag k.wireName cs) :
      SpellsField ("MsgType", .text k.wireName) cs
  | data {cs : List Char} (hd : Derives .value cs) :
      SpellsField ("MsgData", .kept (String.ofList cs)) cs

/-- The fields of an envelope whose payload is spelled `data`, if it has one. -/
def told (k : Kind) (data : Option String) : Fields :=
  ("MsgType", .text k.wireName) :: data.toList.map fun json => ("MsgData", .kept json)

/-- The text is an envelope of this kind, and `data` is how it spells the payload, if it has one.
As an object it may hold its fields in either order, among members of other names. -/
inductive SpelledBy (k : Kind) (data : Option String) : String → Prop
  | object {given : Fields} {before cs after : List Char} (hb : Blank before)
      (hgiven : given.Perm (told k data)) (hs : Enclosed .object (Member form SpellsField) given cs)
      (ha : Blank after) : SpelledBy k data (String.ofList (before ++ (cs ++ after)))
  | list {before cs after : List Char} (hb : Blank before)
      (hs : Enclosed .list (Element SpellsField) (told k data) cs) (ha : Blank after) :
      SpelledBy k data (String.ofList (before ++ (cs ++ after)))

theorem SpellsField.derives {m : String × Value} {cs : List Char} (h : SpellsField m cs) :
    Derives .value cs := by
  cases h with
  | kind hs => exact hs.derives
  | data hd => exact hd

theorem SpellsField.of_type {v : Value} {cs : List Char} (h : SpellsField ("MsgType", v) cs) :
    ∃ k : Kind, v = .text k.wireName ∧ SpellsTag k.wireName cs := by
  generalize hm : ("MsgType", v) = m at h
  cases h with
  | kind hs => exact ⟨_, congrArg Prod.snd hm, hs⟩
  | data => simp at hm

theorem SpellsField.of_data {v : Value} {cs : List Char} (h : SpellsField ("MsgData", v) cs) :
    v = .kept (String.ofList cs) ∧ Derives .value cs := by
  generalize hm : ("MsgData", v) = m at h
  cases h with
  | kind => simp at hm
  | data hd => exact ⟨congrArg Prod.snd hm, hd⟩

theorem mem_form {f : Field} (h : f ∈ form.fields) :
    f = ⟨"MsgType", .tag Kind.wireNames, true⟩ ∨ f = ⟨"MsgData", .rawOrNull, false⟩ := by
  simpa [form] using h

/-- The fields of an envelope read exactly their spellings. -/
theorem exact_form : form.Exact SpellsField where
  nodup := nodup_form
  derives := fun _ _ => SpellsField.derives
  reads := by
    intro f hf v cs rest hs hr
    obtain rfl | rfl := mem_form hf
    · obtain ⟨k, rfl, htag⟩ := hs.of_type
      simp [readSlot, readTag_spelled (Kind.mem_wireNames.2 ⟨k, rfl⟩) htag, Except.map]
    · obtain ⟨rfl, hd⟩ := hs.of_data
      exact readSlot_kept hd hr
  spelled := by
    intro f hf v cs rest hr
    obtain rfl | rfl := mem_form hf
    · obtain ⟨⟨name, after⟩, ht, he⟩ := exists_of_map_eq_ok hr
      cases he
      obtain ⟨hname, ws, used, rfl, hw, hspells⟩ := spellsTag_of_readTag ht
      obtain ⟨k, rfl⟩ := Kind.mem_wireNames.1 hname
      exact ⟨ws, used, rfl, hw, .kind hspells⟩
    · obtain ⟨ws, used, rfl, hw, hd, rfl⟩ := kept_of_readSlot hr
      exact ⟨ws, used, rfl, hw, .data hd⟩

/-! ### What is told -/

section Told

variable {k k' : Kind} {data data' : Option String} {given : Fields} {cs : List Char}

theorem mem_told {m : String × Value} : m ∈ told k data ↔
    m = ("MsgType", .text k.wireName) ∨ ∃ json, data = some json ∧ m = ("MsgData", .kept json) := by
  cases data <;> simp [told]

theorem nodup_told (k : Kind) (data : Option String) : ((told k data).map Prod.fst).Nodup := by
  cases data <;> simp [told]

theorem names_told : ∀ m ∈ told k data, m.1 ∈ form.fields.map (·.name) := by
  cases data <;> simp [told, form]

theorem missing?_of_perm (h : given.Perm (told k data)) : form.missing? given = none := by
  have hmem : ("MsgType", .text k.wireName) ∈ given := h.mem_iff.2 (by simp [told])
  have hnodup := (h.map Prod.fst).nodup_iff.2 (nodup_told k data)
  simp [Form.missing?, form, lookup_of_mem hnodup hmem]

theorem told_of_perm (h : (told k data).Perm (told k' data')) : k = k' ∧ data = data' := by
  have htype : ("MsgType", Value.text k.wireName) ∈ told k' data' :=
    h.mem_iff.1 (by simp [told])
  have hkind : k = k' := by
    have hname : k.wireName = k'.wireName := by simpa [told] using htype
    have hsome := congrArg Kind.ofWireName? hname
    simpa [Kind.ofWireName?_wireName] using hsome
  have hlength : data.toList.length = data'.toList.length := by simpa [told] using h.length_eq
  refine ⟨hkind, ?_⟩
  cases data with
  | none => cases data' <;> simp_all
  | some json =>
    cases data' with
    | none => simp at hlength
    | some json' =>
      have hdata : ("MsgData", Value.kept json) ∈ told k' (some json') :=
        h.mem_iff.1 (by simp [told])
      have hkept : Value.kept json = .kept json' := by simpa [told] using hdata
      rw [Value.kept_injective hkept]

theorem ofFields_of_perm (h : given.Perm (told k data)) :
    ofFields given = ⟨k, data.filter (· ≠ "null")⟩ := by
  have hall : (told k data).Perm (given ++ []) := by simpa using h.symm
  have hagrees : given.Agrees (told k data) :=
    agrees_of_perm hall (nodup_told k data) fun _ hm => by cases hm
  have htype : given.text "MsgType" = k.wireName := by
    rw [hagrees.text]
    simp [told, Fields.text, Fields.get?]
  have hdata : given.raw? "MsgData" = data.filter (· ≠ "null") := by
    rw [hagrees.raw?]
    cases data with
    | none => simp [told, Fields.raw?, Fields.get?, List.lookup_cons]
    | some json =>
      by_cases hjson : json = "null"
      · simp [told, Fields.raw?, Fields.get?, List.lookup_cons, Value.kept, hjson, Option.filter]
      · simp [told, Fields.raw?, Fields.get?, List.lookup_cons, Value.kept, hjson, Option.filter]
  rw [ofFields, htype, hdata, Kind.ofWireName?_wireName, Option.getD_some]

/-- Fields of the form are told, if they hold the kind and nothing but the payload besides. -/
theorem perm_told (hnames : ∀ m ∈ given, m.1 ∈ form.fields.map (·.name))
    (hnodup : (given.map Prod.fst).Nodup) (htype : ("MsgType", .text k.wireName) ∈ given)
    (hdata : ∀ v, ("MsgData", v) ∈ given ↔ ∃ json, data = some json ∧ v = .kept json) :
    given.Perm (told k data) := by
  refine (List.perm_ext_iff_of_nodup (hnodup.of_map _) ((nodup_told k data).of_map _)).2 ?_
  rintro ⟨name, v⟩
  rw [mem_told]
  constructor
  · intro hm
    obtain rfl | rfl : name = "MsgType" ∨ name = "MsgData" := by simpa [form] using hnames _ hm
    · rw [value_unique hnodup hm htype]
      exact .inl rfl
    · obtain ⟨json, hjson, rfl⟩ := (hdata v).1 hm
      exact .inr ⟨json, hjson, rfl⟩
  · rintro (hm | ⟨json, hjson, hm⟩)
    · cases hm
      exact htype
    · cases hm
      exact (hdata _).2 ⟨json, hjson, rfl⟩

/-- The fields that are read are those of an envelope. -/
theorem exists_perm_told (h : form.Admits SpellsField given cs) :
    ∃ k data, given.Perm (told k data) := by
  have hnodup := h.nodup nodup_form
  have hspelled {m : String × Value} (hm : m ∈ given) : ∃ used, SpellsField m used := by
    obtain ⟨_, used, _, -, hs⟩ := h.contains _ hm
    exact ⟨used, hs⟩
  obtain ⟨v, htype⟩ : ∃ v, ("MsgType", v) ∈ given := h.mem_of_required List.mem_cons_self rfl
  obtain ⟨used, hs⟩ := hspelled htype
  obtain ⟨k, rfl, -⟩ := hs.of_type
  by_cases hdata : ∃ v, ("MsgData", v) ∈ given
  · obtain ⟨v, hv⟩ := hdata
    obtain ⟨used, hs⟩ := hspelled hv
    obtain ⟨rfl, -⟩ := hs.of_data
    refine ⟨k, some (String.ofList used), perm_told h.names hnodup htype fun w => ?_⟩
    constructor
    · exact fun hw => ⟨_, rfl, value_unique hnodup hw hv⟩
    · rintro ⟨_, ⟨⟩, rfl⟩
      exact hv
  · refine ⟨k, none, perm_told h.names hnodup htype fun w => ?_⟩
    constructor
    · exact fun hw => absurd ⟨w, hw⟩ hdata
    · rintro ⟨_, ⟨⟩, -⟩

/-- In a list the fields come in the order in which they are told. -/
theorem eq_told_of_names (h : given.Perm (told k data))
    (hnames : given.map Prod.fst <+: form.fields.map (·.name)) : given = told k data := by
  cases data with
  | none => exact List.perm_singleton.1 h
  | some json =>
    obtain ⟨⟨name, v⟩, ⟨name', w⟩, rfl⟩ := List.length_eq_two.1 h.length_eq
    obtain ⟨rfl, rfl⟩ : name = "MsgType" ∧ name' = "MsgData" := by
      simpa [form, List.cons_prefix_cons] using hnames
    have hv : v = .text k.wireName := by
      simpa using mem_told.1 (h.mem_iff.1 List.mem_cons_self)
    have hw : w = .kept json := by
      simpa using mem_told.1 (h.mem_iff.1 (List.mem_cons_of_mem _ List.mem_cons_self))
    rw [hv, hw]
    rfl

end Told

/-! ### Envelopes are read -/

section Reading

variable {k k' : Kind} {data data' : Option String} {text json : String} {e : Envelope}

theorem admits_object {given : Fields} {cs : List Char} (hgiven : given.Perm (told k data))
    (hs : Enclosed .object (Member form SpellsField) given cs) :
    form.Admits SpellsField given cs :=
  .object (fun m hm => names_told m (hgiven.mem_iff.1 hm))
    ((hgiven.map Prod.fst).nodup_iff.2 (nodup_told k data)) (missing?_of_perm hgiven) hs

theorem admits_list {cs : List Char} (hs : Enclosed .list (Element SpellsField) (told k data) cs) :
    form.Admits SpellsField (told k data) cs := by
  cases data with
  | none =>
    have hfields : form.fields = [⟨"MsgType", .tag Kind.wireNames, true⟩] ++
        [⟨"MsgData", .rawOrNull, false⟩] := rfl
    exact .list hfields rfl (by simp) hs
  | some json =>
    have hfields : form.fields = form.fields ++ [] := (List.append_nil _).symm
    exact .list hfields rfl (by simp) hs

/-- The fields of an envelope are read exactly from its spellings. -/
theorem spelledBy_iff : SpelledBy k data text ↔
    ∃ given, form.parse text = .ok given ∧ given.Perm (told k data) := by
  simp only [Form.parse_eq_ok_iff exact_form]
  constructor
  · rintro (⟨hb, hgiven, hs, ha⟩ | ⟨hb, hs, ha⟩)
    · exact ⟨_, ⟨_, _, _, rfl, hb, admits_object hgiven hs, ha⟩, hgiven⟩
    · exact ⟨_, ⟨_, _, _, rfl, hb, admits_list hs, ha⟩, .refl _⟩
  · rintro ⟨given, ⟨before, used, after, rfl, hb, hadmits, ha⟩, hgiven⟩
    cases hadmits with
    | object _ _ _ hs => exact .object hb hgiven hs ha
    | list hfields hnames _ hs =>
      rw [eq_told_of_names hgiven ?_] at hs
      · exact .list hb hs ha
      · rw [hfields, List.map_append, hnames]
        exact List.prefix_append _ _

theorem SpelledBy.unique (h : SpelledBy k data text) (h' : SpelledBy k' data' text) :
    k = k' ∧ data = data' := by
  obtain ⟨given, hparse, hgiven⟩ := spelledBy_iff.1 h
  obtain ⟨given', hparse', hgiven'⟩ := spelledBy_iff.1 h'
  obtain rfl : given = given' := Except.ok.inj (hparse.symm.trans hparse')
  exact told_of_perm (hgiven.symm.trans hgiven')

/-- **Envelopes are read from their spellings, and from nothing else.** -/
theorem parse_eq_ok_iff : parse text = .ok e ↔
    ∃ data, SpelledBy e.kind data text ∧ e.data = data.filter (· ≠ "null") := by
  simp only [spelledBy_iff]
  constructor
  · intro h
    obtain ⟨given, hparse, rfl⟩ := exists_of_map_eq_ok h
    obtain ⟨before, used, after, -, -, hadmits, -⟩ := (Form.parse_eq_ok_iff exact_form).1 hparse
    obtain ⟨k, data, hgiven⟩ := exists_perm_told hadmits
    rw [ofFields_of_perm hgiven]
    exact ⟨data, ⟨given, hparse, hgiven⟩, rfl⟩
  · rintro ⟨data, ⟨given, hparse, hgiven⟩, hdata⟩
    rw [parse, hparse, Except.map, ofFields_of_perm hgiven, ← hdata]

/-- The payload stands in the text as it is kept. -/
theorem SpelledBy.contains (h : SpelledBy k (some json) text) :
    Derives .value json.toList ∧ ∃ before after, text = before ++ json ++ after := by
  obtain ⟨given, hparse, hgiven⟩ := spelledBy_iff.1 h
  obtain ⟨before, used, after, rfl, -, hadmits, -⟩ := (Form.parse_eq_ok_iff exact_form).1 hparse
  have hmem : ("MsgData", .kept json) ∈ given :=
    hgiven.mem_iff.2 (mem_told.2 (.inr ⟨json, rfl, rfl⟩))
  obtain ⟨before', cs, after', rfl, hs⟩ := hadmits.contains _ hmem
  obtain ⟨hkept, hd⟩ := hs.of_data
  obtain rfl := Value.kept_injective hkept
  refine ⟨by rwa [String.toList_ofList], String.ofList (before ++ before'),
    String.ofList (after' ++ after), ?_⟩
  simp only [← String.ofList_append, List.append_assoc]

/-! ### What is written -/

theorem flatMap_writeChar_wireName (k : Kind) :
    k.wireName.toList.flatMap writeChar = k.wireName.toList := by
  cases k <;> decide

theorem render_data (e : Envelope) :
    ((e.data.map Value.raw).getD .null).render = (e.data.getD "null").toList := by
  cases e.data <;> rfl

/-- The text of an envelope, with its payload as it is kept. -/
theorem render_eq (e : Envelope) : e.render = "\x7b\"MsgType\":\"" ++ e.kind.wireName ++
    "\",\"MsgData\":" ++ e.data.getD "null" ++ "\x7d" := by
  have htype : (Value.text e.kind.wireName).render = '"' :: (e.kind.wireName.toList ++ ['"']) := by
    rw [Value.render, quoteText, flatMap_writeChar_wireName]
  rw [← String.toList_inj, render, String.toList_ofList]
  simp [renderFields, renderMember, htype, render_data, quoteText, writeChar]

/-- In writing, a payload that is not there is told as null. -/
theorem render_eq_told (e : Envelope) :
    e.render = String.ofList (renderFields (told e.kind (some (e.data.getD "null")))) := by
  simp [render, told, renderFields, renderMember, render_data, Value.render_kept]

/-- What is written for an envelope is one of its spellings. -/
theorem spelledBy_render (hd : Derives .value (e.data.getD "null").toList) :
    SpelledBy e.kind (some (e.data.getD "null")) e.render := by
  have hfield : ∀ m ∈ told e.kind (some (e.data.getD "null")), SpellsField m m.2.render := by
    intro m hm
    rcases mem_told.1 hm with rfl | ⟨json, hjson, rfl⟩
    · exact .kind (.name (spellsString_quoteText _))
    · obtain rfl := Option.some.inj hjson
      have hdata := SpellsField.data hd
      rwa [String.ofList_toList, ← Value.render_kept] at hdata
  have hmembers : Enclosed .object (Member form SpellsField) _ (renderFields _) :=
    enclosed_renderFields fun m hm =>
      .known (spellsString_quoteText m.1) blank_nil blank_nil (hfield m hm)
  have hspelled := SpelledBy.object blank_nil (.refl _) hmembers blank_nil
  rwa [List.nil_append, List.append_nil, ← render_eq_told] at hspelled

/-! ### What is kept -/

/-- A payload that is kept is the text of a value that is not null. -/
theorem derives_of_parse (h : parse text = .ok e) :
    Derives .value (e.data.getD "null").toList ∧ e.data ≠ some "null" := by
  obtain ⟨data, hs, hdata⟩ := parse_eq_ok_iff.1 h
  cases hkept : e.data with
  | none => exact ⟨.null, by simp⟩
  | some json =>
    rw [hkept] at hdata
    obtain ⟨rfl, hjson⟩ := Option.filter_eq_some_iff.1 hdata.symm
    exact ⟨hs.contains.1, by simpa using hjson⟩

/-- **An envelope that was written is read back as it was**, if it was read before. -/
theorem parse_render (h : parse text = .ok e) : parse e.render = .ok e := by
  obtain ⟨hd, hnull⟩ := derives_of_parse h
  refine parse_eq_ok_iff.2 ⟨_, spelledBy_render hd, ?_⟩
  cases hdata : e.data with
  | none => decide
  | some json =>
    have hjson : json ≠ "null" := fun he => hnull (he ▸ hdata)
    simp [Option.filter, hjson]

/-- The envelope keeps the payload that the text spells, where `data` is how it spells it, if it
does so at all. -/
structure Verbatim (text : String) (e : Envelope) (data : Option String) : Prop where
  /-- The text is a spelling of this kind and this payload, and of no other. -/
  only : ∀ k told, SpelledBy k told text ↔ k = e.kind ∧ told = data
  absent : e.data = none ↔ data = none ∨ data = some "null"
  kept : ∀ json, e.data = some json ↔ data = some json ∧ json ≠ "null"
  /-- What is kept is a value that stands in the text, without the white space around it. -/
  inside : ∀ json, e.data = some json → Derives .value json.toList ∧ Trimmed json.toList ∧
    ∃ before after, text = before ++ json ++ after
  written : e.render = "\x7b\"MsgType\":\"" ++ e.kind.wireName ++
    "\",\"MsgData\":" ++ e.data.getD "null" ++ "\x7d"
  again : parse e.render = .ok e
  idempotent : (parse e.render).map render = .ok e.render

/-- **The payload of every envelope that is read is kept as the text spells it**, in reading, in
writing and in reading again. -/
theorem verbatim_of_parse (h : parse text = .ok e) : ∃ data, Verbatim text e data := by
  obtain ⟨data, hs, hdata⟩ := parse_eq_ok_iff.1 h
  have hkept (json : String) : e.data = some json ↔ data = some json ∧ json ≠ "null" := by
    rw [hdata, Option.filter_eq_some_iff]
    simp
  refine ⟨data, ?_, ?_, hkept, fun json hjson => ?_, render_eq e, parse_render h, ?_⟩
  · intro k told
    constructor
    · exact fun h => h.unique hs
    · rintro ⟨rfl, rfl⟩
      exact hs
  · rw [hdata]
    cases data <;> simp [Option.filter_eq_none_iff]
  · obtain ⟨hd, hinside⟩ := (((hkept json).1 hjson).1 ▸ hs).contains
    exact ⟨hd, trimmed_of_derives hd, hinside⟩
  · rw [parse_render h]
    rfl

end Reading

/-! ### A payload before its kind -/

section Early

/-- A list that no reader of texts and floats would take: half of a pair, and a number that is too
large. -/
def earlyPayload : String := "[\"\\ud800\", 1e400]"

/-- An envelope that begins with its payload. The key of its kind is escaped. -/
def earlyText : String :=
  "\x7b\"MsgData\" : [\"\\ud800\", 1e400] ,\"x\":0,\"\\u004dsgType\":\"MsgPause\"\x7d"

theorem derives_earlyPayload : Derives .value earlyPayload.toList := by
  have hhalf : SpellsUnit 0xd800 ['d', '8', '0', '0'] :=
    .digits (a := 13) (b := 8) (c := 0) (d := 0) ⟨by decide, .inl rfl⟩ ⟨by decide, .inl rfl⟩
      ⟨by decide, .inl rfl⟩ ⟨by decide, .inl rfl⟩
  have htext : Derives .value ['"', '\\', 'u', 'd', '8', '0', '0', '"'] :=
    .text (.unit hhalf .nil)
  have hone : IsWhole ['1'] := .digits (by decide) (by simp [IsDigits])
  have hsize : IsDigits ['4', '0', '0'] := by simp [IsDigits]
  have hnumber : IsNumber ['1', 'e', '4', '0', '0'] :=
    .number (.inl rfl) hone .none (.letter (.inl rfl) (.inl rfl) hsize)
  have hspace : Blank [' '] := by simp [Blank, isSpace]
  exact .filled (b := .list) (.next blank_nil .list blank_nil htext blank_nil
    (.last hspace .list blank_nil (.number hnumber) blank_nil))

theorem spelledBy_earlyText : SpelledBy .pause (some earlyPayload) earlyText := by
  have hspace : Blank [' '] := by simp [Blank, isSpace]
  have hdata : Member form SpellsField [("MsgData", .kept earlyPayload)]
      ('"' :: ("MsgData".toList ++ ['"']) ++ ([' '] ++ ':' :: ([' '] ++ earlyPayload.toList))) :=
    .known (m := ("MsgData", _)) (.quoted (.plain (by simp))) hspace hspace
      (.data derives_earlyPayload)
  have hx : SpellsString "x" ['"', 'x', '"'] := .quoted (.plain (by simp))
  have hzero : Derives .value ['0'] := .number (.number (.inl rfl) .zero .none .none)
  have hunknown : Member form SpellsField [] ['"', 'x', '"', ':', '0'] :=
    .unknown (by decide) hx blank_nil blank_nil hzero
  have hM : SpellsChar 'M' ['\\', 'u', '0', '0', '4', 'd'] :=
    .unit (.digits (a := 0) (b := 0) (c := 4) (d := 13) ⟨by decide, .inl rfl⟩ ⟨by decide, .inl rfl⟩
      ⟨by decide, .inl rfl⟩ ⟨by decide, .inl rfl⟩)
  have hletters : SpellsText ['s', 'g', 'T', 'y', 'p', 'e'] ['s', 'g', 'T', 'y', 'p', 'e'] :=
    .plain (by simp)
  have hkey : SpellsText "MsgType".toList
      ['\\', 'u', '0', '0', '4', 'd', 's', 'g', 'T', 'y', 'p', 'e'] := .cons hM hletters
  have hkind : SpellsTag Kind.pause.wireName ('"' :: ("MsgPause".toList ++ ['"'])) :=
    .name (.quoted (.plain (by simp [Kind.wireName])))
  have htype : Member form SpellsField [("MsgType", .text Kind.pause.wireName)] _ :=
    .known (m := ("MsgType", _)) (.quoted hkey) blank_nil blank_nil (.kind hkind)
  have hmembers := Separated.next blank_nil hdata hspace
    (.next blank_nil hunknown blank_nil (.last blank_nil htype blank_nil))
  have htext : SpelledBy .pause (some earlyPayload) _ :=
    .object blank_nil (List.Perm.swap _ _ _) (.filled hmembers) blank_nil
  exact htext

/-- The envelope that is read from the text. -/
def earlyEnvelope : Envelope := ⟨.pause, some earlyPayload⟩

theorem parse_earlyText : parse earlyText = .ok earlyEnvelope :=
  parse_eq_ok_iff.2 ⟨some earlyPayload, spelledBy_earlyText, by decide⟩

theorem verbatim_earlyText :
    parse earlyText = .ok earlyEnvelope ∧
    Verbatim earlyText earlyEnvelope (some earlyPayload) ∧
    earlyEnvelope.render =
      "\x7b\"MsgType\":\"MsgPause\",\"MsgData\":[\"\\ud800\", 1e400]\x7d" ∧
    parse earlyEnvelope.render = .ok earlyEnvelope := by
  obtain ⟨data, h⟩ := verbatim_of_parse parse_earlyText
  obtain ⟨-, rfl⟩ := (h.only _ _).1 spelledBy_earlyText
  exact ⟨parse_earlyText, h, h.written, h.again⟩

end Early

end Envelope

end ResumableUpload.Wire
