import Mathlib.Data.List.Nodup
import ResumableUpload.Proofs.Spelling

/-!
# Records are read from each of their spellings

An object is read member by member, after the fields that were read before it, and a list element
by element along the fields of its form. What is read may lack fields that were left out; those mean
the same as absent ones (`Fields.Agrees`).

* `Slot.Reads.spelled` : a field reads its value from each spelling.
* `readRecord_object`, `readRecord_list` : the two spellings of a record.
* `Form.Presents.parse` : what is read from a spelling of a record means the same as the record.
-/

namespace ResumableUpload.Json

/-! ### Values -/

theorem readSlot_blank {ws : List Char} (h : Blank ws) (slot : Slot) (cs : List Char) :
    readSlot slot (ws ++ cs) = readSlot slot cs := by
  cases slot <;> simp only [readSlot, readString, readFlag, readInt, readTag, skipSpace_blank h]

/-- A field that reads a string is one for texts or for names. -/
theorem Slot.text_of_reads {slot : Slot} {s : String} (h : slot.Reads (.text s)) :
    slot = .text ∨ ∃ names, slot = .tag names ∧ s ∈ names := by
  have hread := h [] (by simp [Delimited])
  rw [Value.render, quoteText_append] at hread
  cases slot with
  | text => exact .inl rfl
  | tag names =>
    refine .inr ⟨names, rfl, ?_⟩
    by_contra hs
    simp [readSlot, readTag, readName, skipSpace_cons, isSpace, readText_written, hs, Except.map]
      at hread
  | flag => simp [readSlot, readFlag, skipSpace_cons, isSpace, Except.map] at hread
  | int range => simp [readSlot, readInt, skipSpace_cons, isSpace, Except.map] at hread
  | intOrNull range => simp [readSlot, readInt, skipSpace_cons, isSpace, Except.map] at hread
  | rawOrNull =>
    simp only [readSlot, skipSpace_cons (c := '"') (by decide)] at hread
    split at hread
    · simp_all
    · generalize takeValue _ = taken at hread
      cases taken <;> cases hread

/-- **A field reads its value from each spelling.** -/
theorem Slot.Reads.spelled {slot : Slot} {v : Value} {cs rest : List Char} (h : slot.Reads v)
    (hs : v.Spelled cs) (hr : Delimited rest) : readSlot slot (cs ++ rest) = .ok (v, rest) := by
  cases v with
  | null | flag | int =>
    obtain rfl : cs = _ := hs
    exact h rest hr
  | raw json =>
    obtain ⟨rfl, -⟩ := hs
    exact h rest hr
  | text s =>
    cases hs with
    | quoted hb =>
      have hread := readText_spelled hb rest
      rw [List.cons_append, List.append_assoc, List.singleton_append]
      rcases Slot.text_of_reads h with rfl | ⟨names, rfl, hmem⟩
      · simp [readSlot, readString, skipSpace_cons, isSpace, hread, Except.map]
      · simp [readSlot, readTag, readName, skipSpace_cons, isSpace, hread, hmem, Except.map]

/-! ### An object is read -/

theorem lookup_eq_none_of_not_mem {got : Fields} {name : String}
    (h : name ∉ got.map Prod.fst) : got.lookup name = none := by
  rw [List.lookup_eq_none_iff]
  intro p hp
  have hne : name ≠ p.1 := fun he => h (he ▸ List.mem_map_of_mem hp)
  simpa using hne

theorem not_mem_of_nodup {got given : Fields} (h : ((got ++ given).map Prod.fst).Nodup) :
    ∀ m ∈ given, m.1 ∉ got.map Prod.fst := by
  intro m hm hmem
  rw [List.map_append, List.nodup_append] at h
  exact h.2.2 _ hmem _ (List.mem_map_of_mem hm) rfl

theorem readColon_blank {ws : List Char} (h : Blank ws) (rest : List Char) :
    readColon (ws ++ ':' :: rest) = .ok rest := by
  simp [readColon, skipSpace_blank_cons h, isSpace]

/-- A field with this value is read from each of its spellings, with anything after it that is no
part of a number. -/
def Field.ReadsSpelled (f : Field) (spells : String × Value → List Char → Prop)
    (m : String × Value) : Prop :=
  ∀ cs rest, spells m cs → Delimited rest → readSlot f.slot (cs ++ rest) = .ok (m.2, rest)

section Object

variable {form : Form} {spells : String × Value → List Char → Prop} {given got : Fields}
  {cs before rest : List Char}

theorem readMembers_close {first : Bool} (h : skipSpace cs = '\x7d' :: rest) :
    readMembers form first got cs = closeObject form got rest := by
  rw [readMembers]
  split
  · simp_all
  · rename_i hs
    rw [h] at hs
    cases hs
    simp only [↓reduceIte]

theorem readMembers_first {all : Fields} {after : List Char}
    (h : skipSpace cs = '"' :: rest) (hm : readMember form got rest = .ok (all, after)) :
    readMembers form true got cs = readMembers form false all after := by
  conv => lhs; rw [readMembers]
  split
  · simp_all
  · rename_i hs
    rw [h] at hs
    cases hs
    simp only [Char.reduceEq, ↓reduceIte]
    split <;> simp_all

theorem readMembers_next {all : Fields} {last after : List Char}
    (h : skipSpace cs = ',' :: rest) (hlast : skipSpace rest = '"' :: last)
    (hm : readMember form got last = .ok (all, after)) :
    readMembers form false got cs = readMembers form false all after := by
  conv => lhs; rw [readMembers]
  split
  · simp_all
  · rename_i hs
    rw [h] at hs
    cases hs
    simp only [Char.reduceEq, Bool.false_eq_true, ↓reduceIte]
    split
    · simp_all
    · rename_i hs'
      rw [hlast] at hs'
      cases hs'
      simp only [↓reduceIte]
      split <;> simp_all

/-- A member is read after the fields that were read before. -/
theorem Member.read (h : Member form spells given cs)
    (hreads : ∀ m ∈ given, ∃ f, form.field? m.1 = some f ∧ f.ReadsSpelled spells m)
    (hnew : ∀ m ∈ given, m.1 ∉ got.map Prod.fst) (hr : Delimited rest) :
    ∃ tail, cs = '"' :: tail ∧ readMember form got (tail ++ rest) = .ok (got ++ given, rest) := by
  cases h with
  | @known m key ws between value hk hw hb hv =>
    obtain ⟨f, hf, hslot⟩ := hreads m (by simp)
    have hlookup := lookup_eq_none_of_not_mem (hnew m (by simp))
    have hvalue : readSlot f.slot (between ++ (value ++ rest)) = .ok (m.2, rest) :=
      (readSlot_blank hb _ _).trans (hslot value rest hv hr)
    cases hk with
    | @quoted body hbody =>
      refine ⟨body ++ '"' :: (ws ++ ':' :: (between ++ value)), by simp, ?_⟩
      have htail : body ++ '"' :: (ws ++ ':' :: (between ++ value)) ++ rest =
          body ++ '"' :: (ws ++ ':' :: (between ++ (value ++ rest))) := by simp
      rw [htail, readMember, readText_spelled hbody]
      simp [hf, hlookup, readColon_blank hw, hvalue, Except.map]
  | @unknown s key ws between value hs hk hw hb hv =>
    have hvalue : skipValue (between ++ (value ++ rest)) = .ok rest := by
      rw [skipValue, skipFrom_value_congr (skipSpace_blank hb _), hv.spells [] rest hr, skipFrom]
    cases hk with
    | @quoted body hbody =>
      refine ⟨body ++ '"' :: (ws ++ ':' :: (between ++ value)), by simp, ?_⟩
      have htail : body ++ '"' :: (ws ++ ':' :: (between ++ value)) ++ rest =
          body ++ '"' :: (ws ++ ':' :: (between ++ (value ++ rest))) := by simp
      rw [htail, readMember, readText_spelled hbody]
      simp [hs, readColon_blank hw, hvalue, Except.map]

/-- A member leads to what follows it, right after the brace or after a comma. -/
theorem readMembers_member (hb : Blank before) (h : Member form spells given cs)
    (hreads : ∀ m ∈ given, ∃ f, form.field? m.1 = some f ∧ f.ReadsSpelled spells m)
    (hnew : ∀ m ∈ given, m.1 ∉ got.map Prod.fst) (hr : Delimited rest) :
    readMembers form true got (before ++ (cs ++ rest)) =
        readMembers form false (got ++ given) rest ∧
      ∀ ws, Blank ws → readMembers form false got (ws ++ ',' :: (before ++ (cs ++ rest))) =
        readMembers form false (got ++ given) rest := by
  obtain ⟨tail, rfl, hmember⟩ := h.read hreads hnew hr
  have hquote : skipSpace (before ++ ('"' :: tail ++ rest)) = '"' :: (tail ++ rest) :=
    skipSpace_blank_cons hb (by decide) _
  refine ⟨readMembers_first hquote hmember, fun ws hws => ?_⟩
  exact readMembers_next (skipSpace_blank_cons hws (by decide) _) hquote hmember

theorem Separated.readMembers (h : Separated (Member form spells) given cs)
    (hreads : ∀ m ∈ given, ∃ f, form.field? m.1 = some f ∧ f.ReadsSpelled spells m)
    (hnodup : ((got ++ given).map Prod.fst).Nodup) (rest : List Char) :
    readMembers form true got (cs ++ '\x7d' :: rest) = closeObject form (got ++ given) rest ∧
      ∀ ws, Blank ws → readMembers form false got (ws ++ ',' :: (cs ++ '\x7d' :: rest)) =
        closeObject form (got ++ given) rest := by
  induction h generalizing got with
  | @last given before cs after hb hi ha =>
    have hclose : Json.readMembers form false (got ++ given) (after ++ '\x7d' :: rest) =
        closeObject form (got ++ given) rest :=
      readMembers_close (skipSpace_blank_cons ha (by decide) rest)
    obtain ⟨hfirst, hnext⟩ := readMembers_member hb hi hreads (not_mem_of_nodup hnodup)
      (delimited_blank ha (delimited_close .object rest))
    simp only [List.append_assoc]
    exact ⟨hfirst.trans hclose, fun ws hws => (hnext ws hws).trans hclose⟩
  | @next given fields before cs after more hb hi ha _ ih =>
    have hnew := not_mem_of_nodup hnodup
    rw [← List.append_assoc] at hnodup
    obtain ⟨-, hmore⟩ := ih (fun m hm => hreads m (List.mem_append_right _ hm)) hnodup
    obtain ⟨hfirst, hnext⟩ := readMembers_member hb hi
      (fun m hm => hreads m (List.mem_append_left _ hm))
      (fun m hm => hnew m (List.mem_append_left _ hm)) (delimited_blank ha (delimited_comma _))
    have hrest := hmore after ha
    simp only [List.append_assoc, List.cons_append] at hrest ⊢
    exact ⟨hfirst.trans hrest, fun ws hws => (hnext ws hws).trans hrest⟩

theorem readRecord_object (hb : Blank before) (h : Enclosed .object (Member form spells) given cs)
    (hreads : ∀ m ∈ given, ∃ f, form.field? m.1 = some f ∧ f.ReadsSpelled spells m)
    (hnodup : (given.map Prod.fst).Nodup) (rest : List Char) :
    readRecord form (before ++ (cs ++ rest)) = closeObject form given rest := by
  cases h with
  | @empty ws hw =>
    have hclose : Json.readMembers form true [] (ws ++ '\x7d' :: rest) = closeObject form [] rest :=
      readMembers_close (skipSpace_blank_cons hw (by decide) rest)
    simp [readRecord, Bracket.opening, Bracket.close, skipSpace_blank_cons hb, isSpace, hclose]
  | @filled _ cs hs =>
    have hmembers : Json.readMembers form true [] (cs ++ '\x7d' :: rest) =
        closeObject form ([] ++ given) rest := (hs.readMembers hreads (by simpa) rest).1
    rw [List.nil_append] at hmembers
    simp [readRecord, Bracket.opening, Bracket.close, skipSpace_blank_cons hb, isSpace, hmembers]

end Object

/-! ### A list is read -/

section List

variable {form : Form} {spells : String × Value → List Char → Prop} {given got : Fields}
  {cs before rest : List Char}

theorem nextElement_first {c : Char} {tail : List Char} (h : skipSpace cs = c :: tail)
    (hc : c ≠ ']') : nextElement true cs = .ok (.member (c :: tail)) := by
  simp [nextElement, h, hc]

theorem nextElement_comma {ws : List Char} (hw : Blank ws) {c : Char} {tail : List Char}
    (h : skipSpace cs = c :: tail) (hc : c ≠ ']') :
    nextElement false (ws ++ ',' :: cs) = .ok (.member (c :: tail)) := by
  simp [nextElement, skipSpace_blank_cons hw, isSpace, h, hc]

theorem nextElement_close {ws : List Char} (hw : Blank ws) (first : Bool) (rest : List Char) :
    nextElement first (ws ++ ']' :: rest) = .ok .ended := by
  simp [nextElement, skipSpace_blank_cons hw, isSpace]

/-- A list may end before fields that need not be there. -/
theorem readElements_close {ws : List Char} (hw : Blank ws) {left : List Field}
    (hleft : ∀ f ∈ left, f.required = false) (count : Nat) (got : Fields) (rest : List Char) :
    readElements form count got left (ws ++ ']' :: rest) = .ok (got, rest) := by
  induction left with
  | nil => simp [readElements, closeList, skipSpace_blank_cons hw, isSpace, Except.map]
  | cons f left ih =>
    have hrest := ih fun g hg => hleft g (by simp [hg])
    simp [readElements, nextElement_close hw, hleft f (by simp), hrest]

/-- An element leads to what follows it, right after the bracket or after a comma. -/
theorem readElements_element (form : Form) (got : Fields) {f : Field} (fs : List Field)
    {m : String × Value} (hb : Blank before) (hd : Derives .value cs) (hname : f.name = m.1)
    (hread : readSlot f.slot (cs ++ rest) = .ok (m.2, rest)) :
    readElements form 0 got (f :: fs) (before ++ (cs ++ rest)) =
        readElements form 1 (got ++ [m]) fs rest ∧
      ∀ count ws, Blank ws →
        readElements form (count + 1) got (f :: fs) (ws ++ ',' :: (before ++ (cs ++ rest))) =
          readElements form (count + 2) (got ++ [m]) fs rest := by
  obtain ⟨-, c, tail, rfl, hspace, hclose⟩ := hd.passed
  rw [List.cons_append] at hread ⊢
  have hhead : skipSpace (before ++ c :: (tail ++ rest)) = c :: (tail ++ rest) :=
    skipSpace_blank_cons hb hspace _
  constructor
  · simp [readElements, nextElement_first hhead hclose, hread, hname]
  · intro count ws hws
    simp [readElements, nextElement_comma hws hhead hclose, hread, hname]

theorem Separated.readElements (h : Separated (Element spells) given cs) {fs left : List Field}
    (hspells : ∀ m cs, spells m cs → Derives .value cs)
    (hnames : fs.map (·.name) = given.map Prod.fst)
    (hreads : ∀ m ∈ given, ∀ f ∈ fs, f.name = m.1 → f.ReadsSpelled spells m)
    (hleft : ∀ f ∈ left, f.required = false) (rest : List Char) :
    readElements form 0 got (fs ++ left) (cs ++ ']' :: rest) = .ok (got ++ given, rest) ∧
      ∀ count ws, Blank ws →
        readElements form (count + 1) got (fs ++ left) (ws ++ ',' :: (cs ++ ']' :: rest)) =
          .ok (got ++ given, rest) := by
  induction h generalizing got fs with
  | @last _ before cs after hb hi ha =>
    cases hi with
    | @value m _ hv =>
      obtain ⟨f, fs, rfl, hname, hnone⟩ := List.map_eq_cons_iff.1 hnames
      obtain rfl := List.map_eq_nil_iff.1 hnone
      have hread := hreads m (by simp) f (by simp) hname cs (after ++ ']' :: rest) hv
        (delimited_blank ha (delimited_close .list rest))
      obtain ⟨hfirst, hnext⟩ := readElements_element form got ([] ++ left) hb (hspells m cs hv)
        hname hread
      simp only [List.append_assoc, List.cons_append, List.nil_append] at hfirst hnext ⊢
      exact ⟨hfirst.trans (readElements_close ha hleft _ _ rest),
        fun count ws hws => (hnext count ws hws).trans (readElements_close ha hleft _ _ rest)⟩
  | @next _ fields before cs after more hb hi ha _ ih =>
    cases hi with
    | @value m _ hv =>
      obtain ⟨f, fs, rfl, hname, hnames⟩ := List.map_eq_cons_iff.1 hnames
      have hread := hreads m (by simp) f (by simp) hname cs (after ++ ',' :: (more ++ ']' :: rest))
        hv (delimited_blank ha (delimited_comma _))
      obtain ⟨hfirst, hnext⟩ := readElements_element form got (fs ++ left) hb (hspells m cs hv)
        hname hread
      have hrest (count : Nat) := (@ih (got ++ [m]) fs hnames fun n hn g hg =>
        hreads n (by simp [hn]) g (by simp [hg])).2 count after ha
      simp only [List.append_assoc, List.cons_append, List.nil_append] at hfirst hnext hrest ⊢
      exact ⟨hfirst.trans (hrest 0), fun count ws hws =>
        (hnext count ws hws).trans (hrest (count + 1))⟩

theorem readRecord_list (hb : Blank before) (h : Enclosed .list (Element spells) given cs)
    {fs left : List Field} (hspells : ∀ m cs, spells m cs → Derives .value cs)
    (hfields : form.fields = fs ++ left) (hnames : fs.map (·.name) = given.map Prod.fst)
    (hreads : ∀ m ∈ given, ∀ f ∈ fs, f.name = m.1 → f.ReadsSpelled spells m)
    (hleft : ∀ f ∈ left, f.required = false) (rest : List Char) :
    readRecord form (before ++ (cs ++ rest)) = .ok (given, rest) := by
  cases h with
  | @empty ws hw =>
    obtain rfl := List.map_eq_nil_iff.1 hnames
    have hclose : readElements form 0 [] left (ws ++ ']' :: rest) = .ok ([], rest) :=
      readElements_close hw hleft 0 [] rest
    simp [readRecord, Bracket.opening, Bracket.close, skipSpace_blank_cons hb, isSpace, hfields,
      hclose]
  | @filled _ cs hs =>
    have helements : Json.readElements form 0 [] (fs ++ left) (cs ++ ']' :: rest) =
        .ok ([] ++ given, rest) := (hs.readElements hspells hnames hreads hleft rest).1
    rw [List.nil_append] at helements
    simp [readRecord, Bracket.opening, Bracket.close, skipSpace_blank_cons hb, isSpace, hfields,
      helements]

end List

/-! ### What is read means the same as the record -/

/-- Nothing but fields that mean the same as absent ones is missing. -/
def Fields.Agrees (given fields : Fields) : Prop :=
  ∀ name, given.get? name = fields.get? name ∨
    given.get? name = none ∧ ∃ v, fields.get? name = some v ∧ v.IsDefault

namespace Fields.Agrees

variable {given fields : Fields} (h : given.Agrees fields) (name : String)

include h

theorem text : given.text name = fields.text name := by
  rcases h name with hsame | ⟨hnone, v, hv, rfl | rfl⟩
  · rw [Fields.text, Fields.text, hsame]
  · rw [Fields.text, Fields.text, hnone, hv]
  · rw [Fields.text, Fields.text, hnone, hv]

theorem int : given.int name = fields.int name := by
  rcases h name with hsame | ⟨hnone, v, hv, rfl | rfl⟩
  · rw [Fields.int, Fields.int, hsame]
  · rw [Fields.int, Fields.int, hnone, hv]
  · rw [Fields.int, Fields.int, hnone, hv]

theorem flag : given.flag name = fields.flag name := by
  rcases h name with hsame | ⟨hnone, v, hv, rfl | rfl⟩
  · rw [Fields.flag, Fields.flag, hsame]
  · rw [Fields.flag, Fields.flag, hnone, hv]
  · rw [Fields.flag, Fields.flag, hnone, hv]

theorem raw? : given.raw? name = fields.raw? name := by
  rcases h name with hsame | ⟨hnone, v, hv, rfl | rfl⟩
  · rw [Fields.raw?, Fields.raw?, hsame]
  · rw [Fields.raw?, Fields.raw?, hnone, hv]
  · rw [Fields.raw?, Fields.raw?, hnone, hv]

end Fields.Agrees

theorem lookup_of_mem {fields : Fields} {name : String} {v : Value}
    (hnodup : (fields.map Prod.fst).Nodup) (hm : (name, v) ∈ fields) :
    fields.lookup name = some v := by
  induction fields with
  | nil => cases hm
  | cons n fields ih =>
    obtain ⟨other, w⟩ := n
    rw [List.map_cons, List.nodup_cons] at hnodup
    rcases List.mem_cons.1 hm with he | hm
    · cases he
      simp
    · have hmem : name ∈ fields.map Prod.fst := List.mem_map_of_mem hm
      have hne : name ≠ other := fun he => hnodup.1 (he ▸ hmem)
      rw [List.lookup_cons, beq_false_of_ne hne]
      exact ih hnodup.2 hm

theorem value_unique {fields : Fields} {name : String} {v w : Value}
    (hnodup : (fields.map Prod.fst).Nodup) (hv : (name, v) ∈ fields) (hw : (name, w) ∈ fields) :
    v = w :=
  Option.some.inj ((lookup_of_mem hnodup hv).symm.trans (lookup_of_mem hnodup hw))

theorem mem_of_lookup {fields : Fields} {name : String} {v : Value}
    (h : fields.lookup name = some v) : (name, v) ∈ fields := by
  obtain ⟨before, after, rfl, -⟩ := List.lookup_eq_some_iff.1 h
  simp

theorem nodup_given {given left fields : Fields} (hall : fields.Perm (given ++ left))
    (hnodup : (fields.map Prod.fst).Nodup) : (given.map Prod.fst).Nodup := by
  have hboth := (hall.map Prod.fst).nodup_iff.1 hnodup
  rw [List.map_append] at hboth
  exact (List.nodup_append.1 hboth).1

/-- The fields that were left out mean the same as absent ones. -/
theorem agrees_of_perm {given left fields : Fields} (hall : fields.Perm (given ++ left))
    (hnodup : (fields.map Prod.fst).Nodup) (hleft : ∀ m ∈ left, m.2.IsDefault) :
    given.Agrees fields := by
  intro name
  cases hg : given.lookup name with
  | some v =>
    have hmem : (name, v) ∈ fields :=
      hall.mem_iff.2 (List.mem_append_left _ (mem_of_lookup hg))
    exact .inl (hg.trans (lookup_of_mem hnodup hmem).symm)
  | none =>
    cases hf : fields.lookup name with
    | none => exact .inl (hg.trans hf.symm)
    | some v =>
      -- a field that was not given was left out
      rcases List.mem_append.1 (hall.mem_iff.1 (mem_of_lookup hf)) with hmem | hmem
      · rw [lookup_of_mem (nodup_given hall hnodup) hmem] at hg
        cases hg
      · exact .inr ⟨hg, v, hf, hleft _ hmem⟩

/-- The fields are those of a record of the form: each may be held by the field of its name, none
is there twice, and none that is required is missing. -/
structure Form.Writes (form : Form) (fields : Fields) : Prop where
  reads : ∀ m ∈ fields, ∃ f, form.field? m.1 = some f ∧ f.slot.Reads m.2
  nodup : (fields.map Prod.fst).Nodup
  complete : form.missing? fields = none

namespace Form

variable {form : Form} {fields given left : Fields}

theorem field?_of_mem (hnodup : (form.fields.map (·.name)).Nodup) {f : Field}
    (hf : f ∈ form.fields) : form.field? f.name = some f := by
  cases hfind : form.field? f.name with
  | none => exact absurd (beq_self_eq_true f.name) (List.find?_eq_none.1 hfind f hf)
  | some g =>
    have hname : g.name = f.name := by simpa using List.find?_some hfind
    rw [List.inj_on_of_nodup_map hnodup (List.mem_of_find?_eq_some hfind) hf hname]

/-- A record with all the fields of its form, in order. -/
theorem writes_of_map_fst (hnodup : (form.fields.map (·.name)).Nodup)
    (hnames : fields.map Prod.fst = form.fields.map (·.name))
    (hreads : ∀ m ∈ fields, ∀ f ∈ form.fields, f.name = m.1 → f.slot.Reads m.2) :
    form.Writes fields := by
  refine ⟨fun m hm => ?_, hnames ▸ hnodup, ?_⟩
  · have hmem : m.1 ∈ form.fields.map (·.name) := hnames ▸ List.mem_map_of_mem hm
    obtain ⟨f, hf, hname⟩ := List.mem_map.1 hmem
    exact ⟨f, hname ▸ field?_of_mem hnodup hf, hreads m hm f hf hname⟩
  · rw [Form.missing?, Option.map_eq_none_iff, List.find?_eq_none]
    intro f hf hmissing
    -- a field of the form is among those that were written
    have hmem : f.name ∈ fields.map Prod.fst := hnames ▸ List.mem_map_of_mem hf
    obtain ⟨m, hm, hname⟩ := List.mem_map.1 hmem
    simp only [Bool.and_eq_true, Option.isNone_iff_eq_none, List.lookup_eq_none_iff] at hmissing
    simpa [hname] using hmissing.2 m hm

/-- What may be left out is not missed. -/
theorem missing?_of_perm (hw : form.Writes fields) (hnodup : (form.fields.map (·.name)).Nodup)
    (hall : fields.Perm (given ++ left)) (hleft : ∀ m ∈ left, form.Omits m) :
    form.missing? given = none := by
  have hcomplete := hw.complete
  simp only [Form.missing?, Option.map_eq_none_iff, List.find?_eq_none, Bool.and_eq_true,
    Option.isNone_iff_eq_none, not_and] at hcomplete ⊢
  intro f hf hrequired hmissing
  obtain ⟨v, hv⟩ := Option.ne_none_iff_exists'.1 (hcomplete f hf hrequired)
  rcases List.mem_append.1 (hall.mem_iff.1 (mem_of_lookup hv)) with hmem | hmem
  · simpa using List.lookup_eq_none_iff.1 hmissing _ hmem
  · obtain ⟨⟨g, hg, hopt⟩, -⟩ := hleft _ hmem
    rw [field?_of_mem hnodup hf] at hg
    cases hg
    simp [hrequired] at hopt

/-- The field of a name reads what the record holds there. -/
theorem Writes.reads_of_name (hw : form.Writes fields)
    (hnodup : (form.fields.map (·.name)).Nodup) {m : String × Value} (hm : m ∈ fields) {f : Field}
    (hf : f ∈ form.fields) (hname : f.name = m.1) : f.slot.Reads m.2 := by
  obtain ⟨g, hg, hreads⟩ := hw.reads m hm
  rw [← hname, field?_of_mem hnodup hf] at hg
  cases hg
  exact hreads

/-- The fields of the form after those of a list are those that were left out. -/
theorem exists_left (hnodup : (form.fields.map (·.name)).Nodup)
    (hnames : (given ++ left).map Prod.fst = form.fields.map (·.name))
    (hleft : ∀ m ∈ left, form.Omits m) :
    ∃ fs rest, form.fields = fs ++ rest ∧ fs.map (·.name) = given.map Prod.fst ∧
      ∀ f ∈ rest, f.required = false := by
  rw [List.map_append] at hnames
  obtain ⟨fs, rest, hfields, hfs, hrest⟩ := List.map_eq_append_iff.1 hnames.symm
  refine ⟨fs, rest, hfields, hfs, fun f hf => ?_⟩
  have hmem : f.name ∈ left.map Prod.fst := hrest ▸ List.mem_map_of_mem hf
  obtain ⟨m, hm, hname⟩ := List.mem_map.1 hmem
  obtain ⟨⟨g, hg, hopt⟩, -⟩ := hleft m hm
  have hform : f ∈ form.fields := hfields ▸ List.mem_append_right fs hf
  rw [hname, field?_of_mem hnodup hform] at hg
  cases hg
  exact hopt

/-- **What is read from a spelling of a record means the same as the record.** -/
theorem Presents.parse {cs : List Char} (h : form.Presents fields cs) (hw : form.Writes fields)
    (hnames : fields.map Prod.fst = form.fields.map (·.name)) {before after : List Char}
    (hb : Blank before) (ha : Blank after) :
    ∃ given, form.parse (String.ofList (before ++ (cs ++ after))) = .ok given ∧
      given.Agrees fields := by
  have hnodup : (form.fields.map (·.name)).Nodup := hnames ▸ hw.nodup
  have hend : skipSpace after = [] := by simpa [skipSpace, Blank] using ha
  -- both spellings are read up to the white space after them
  suffices hread : ∃ given, readRecord form (before ++ (cs ++ after)) = .ok (given, after) ∧
      given.Agrees fields by
    obtain ⟨given, hread, hagrees⟩ := hread
    exact ⟨given, by simp [Form.parse, hread, hend], hagrees⟩
  cases h with
  | @object given left _ hall hleft hs =>
    refine ⟨given, ?_, agrees_of_perm hall hw.nodup fun m hm => (hleft m hm).2⟩
    have hreads : ∀ m ∈ given, ∃ f, form.field? m.1 = some f ∧
        f.ReadsSpelled (fun m => m.2.Spelled) m := by
      intro m hm
      obtain ⟨f, hf, hslot⟩ := hw.reads m (hall.mem_iff.2 (List.mem_append_left left hm))
      exact ⟨f, hf, fun _ _ => hslot.spelled⟩
    rw [readRecord_object hb hs hreads (nodup_given hall hw.nodup), closeObject,
      missing?_of_perm hw hnodup hall hleft]
  | @list given left _ hall hleft hs =>
    subst hall
    obtain ⟨fs, rest, hfields, hfs, hrest⟩ := exists_left hnodup hnames hleft
    refine ⟨given, ?_, agrees_of_perm (.refl _) hw.nodup fun m hm => (hleft m hm).2⟩
    refine readRecord_list hb hs (fun _ _ => Value.Spelled.derives) hfields hfs
      (fun m hm f hf hname _ _ => Slot.Reads.spelled ?_) hrest after
    exact hw.reads_of_name hnodup (List.mem_append_left left hm)
      (hfields ▸ List.mem_append_left rest hf) hname

end Form

end ResumableUpload.Json
