import ResumableUpload.Proofs.Acceptance
import ResumableUpload.Proofs.Reading

/-!
# Exactly the spellings of a record are read

If the fields of a form read exactly what is spelled in some way (`Form.Exact`), then records of the
form are read from their objects and lists (`Form.Admits`), and from nothing else.

While a record is read, a beginning of it has been passed over. `Remainder` says what the items of
a bracket look like from there.

* `members_of_readMembers`, `elements_of_readElements` : what was read from there, step by step.
* `Form.readRecord_eq_ok_iff`, `Form.parse_eq_ok_iff` : what records are read from.
-/

namespace ResumableUpload.Json

/-! ### Items -/

/-- The items of a bracket from its beginning, or from the end of an item. -/
inductive Remainder (item : Fields → List Char → Prop) : Bool → Fields → List Char → Prop
  | ended {first : Bool} {ws : List Char} (hw : Blank ws) : Remainder item first [] ws
  | first {given : Fields} {cs : List Char} (hs : Separated item given cs) :
      Remainder item true given cs
  | next {given : Fields} {ws cs : List Char} (hw : Blank ws) (hs : Separated item given cs) :
      Remainder item false given (ws ++ ',' :: cs)

section Items

variable {item : Fields → List Char → Prop} {given fields : Fields} {before cs more : List Char}

/-- An item with what comes after it. -/
theorem Remainder.separated (h : Remainder item false fields more) (hb : Blank before)
    (hi : item given cs) : Separated item (given ++ fields) (before ++ (cs ++ more)) := by
  cases h with
  | ended hw =>
    rw [List.append_nil]
    exact .last hb hi hw
  | next hw hs => exact .next hb hi hw hs

theorem Remainder.enclosed (h : Remainder item true given cs) (b : Bracket) :
    Enclosed b item given (b.opening :: (cs ++ [b.close])) := by
  cases h with
  | ended hw => exact .empty hw
  | first hs => exact .filled hs

end Items

/-! ### Where a field is spelled -/

/-- The field is spelled somewhere in the text. -/
def Contains (spells : String × Value → List Char → Prop) (cs : List Char)
    (m : String × Value) : Prop :=
  ∃ before used after, cs = before ++ (used ++ after) ∧ spells m used

section Containing

variable {spells : String × Value → List Char → Prop} {item : Fields → List Char → Prop}
  {given : Fields} {cs : List Char} {m : String × Value}

theorem Contains.between (h : Contains spells cs m) (before after : List Char) :
    Contains spells (before ++ (cs ++ after)) m := by
  obtain ⟨before', used, after', rfl, hs⟩ := h
  exact ⟨before ++ before', used, after' ++ after, by simp, hs⟩

theorem Element.contains (h : Element spells given cs) : ∀ m ∈ given, Contains spells cs m := by
  cases h with
  | @value m _ hv =>
    rintro _ hm
    obtain rfl := List.mem_singleton.1 hm
    exact ⟨[], cs, [], by simp, hv⟩

theorem Member.contains {form : Form} (h : Member form spells given cs) :
    ∀ m ∈ given, Contains spells cs m := by
  cases h with
  | @known m key ws between value hk hw hb hv =>
    rintro _ hm
    obtain rfl := List.mem_singleton.1 hm
    exact ⟨key ++ (ws ++ ':' :: between), value, [], by simp, hv⟩
  | unknown => exact fun _ hm => by cases hm

theorem Separated.contains (hitem : ∀ got cs, item got cs → ∀ m ∈ got, Contains spells cs m)
    (h : Separated item given cs) : ∀ m ∈ given, Contains spells cs m := by
  induction h with
  | @last got before cs after hb hi ha =>
    exact fun m hm => (hitem _ _ hi m hm).between before after
  | @next got fields before cs after rest hb hi ha _ ih =>
    intro m hm
    rcases List.mem_append.1 hm with hm | hm
    · exact (hitem _ _ hi m hm).between before _
    · simpa using (ih m hm).between (before ++ (cs ++ (after ++ [',']))) []

theorem Enclosed.contains {b : Bracket}
    (hitem : ∀ got cs, item got cs → ∀ m ∈ got, Contains spells cs m)
    (h : Enclosed b item given cs) : ∀ m ∈ given, Contains spells cs m := by
  cases h with
  | empty => exact fun _ hm => by cases hm
  | filled hs => exact fun m hm => (hs.contains hitem m hm).between [b.opening] [b.close]

end Containing

/-! ### Forms -/

/-- The fields of the form read exactly what is spelled in this way, up to white space. -/
structure Form.Exact (form : Form) (spells : String × Value → List Char → Prop) : Prop where
  nodup : (form.fields.map (·.name)).Nodup
  derives : ∀ m cs, spells m cs → Derives .value cs
  reads : ∀ f ∈ form.fields, ∀ v, f.ReadsSpelled spells (f.name, v)
  spelled : ∀ f ∈ form.fields, ∀ v cs rest, readSlot f.slot cs = .ok (v, rest) →
    ∃ ws used, cs = ws ++ (used ++ rest) ∧ Blank ws ∧ spells (f.name, v) used

/-- The objects and lists that hold a record of the form. -/
inductive Form.Admits (form : Form) (spells : String × Value → List Char → Prop) (got : Fields) :
    List Char → Prop
  /-- The fields in any order, each at most once. -/
  | object {cs : List Char} (hnames : ∀ m ∈ got, m.1 ∈ form.fields.map (·.name))
      (hnodup : (got.map Prod.fst).Nodup) (hcomplete : form.missing? got = none)
      (hs : Enclosed .object (Member form spells) got cs) : form.Admits spells got cs
  /-- The fields in the order of the form, those at its end left out if they may be. -/
  | list {fs left : List Field} {cs : List Char} (hfields : form.fields = fs ++ left)
      (hnames : fs.map (·.name) = got.map Prod.fst) (hleft : ∀ f ∈ left, f.required = false)
      (hs : Enclosed .list (Element spells) got cs) : form.Admits spells got cs

section Admitting

variable {form : Form} {spells : String × Value → List Char → Prop} {got : Fields} {cs : List Char}

theorem Form.Admits.contains (h : form.Admits spells got cs) :
    ∀ m ∈ got, Contains spells cs m := by
  cases h with
  | object _ _ _ hs => exact hs.contains fun _ _ => Member.contains
  | list _ _ _ hs => exact hs.contains fun _ _ => Element.contains

theorem Form.Admits.names (h : form.Admits spells got cs) :
    ∀ m ∈ got, m.1 ∈ form.fields.map (·.name) := by
  cases h with
  | object hnames => exact hnames
  | @list fs left _ hfields hnames =>
    intro m hm
    rw [hfields, List.map_append, hnames]
    exact List.mem_append_left _ (List.mem_map_of_mem hm)

theorem Form.Admits.nodup (h : form.Admits spells got cs)
    (hform : (form.fields.map (·.name)).Nodup) : (got.map Prod.fst).Nodup := by
  cases h with
  | object _ hnodup => exact hnodup
  | @list fs left _ hfields hnames =>
    rw [hfields, List.map_append, hnames] at hform
    exact hform.of_append_left

theorem Form.Admits.mem_of_required (h : form.Admits spells got cs) {f : Field}
    (hf : f ∈ form.fields) (hrequired : f.required = true) : ∃ v, (f.name, v) ∈ got := by
  cases h with
  | object _ _ hcomplete =>
    simp only [Form.missing?, Option.map_eq_none_iff, List.find?_eq_none, Bool.and_eq_true,
      Option.isNone_iff_eq_none, not_and] at hcomplete
    obtain ⟨v, hv⟩ := Option.ne_none_iff_exists'.1 (hcomplete f hf hrequired)
    exact ⟨v, mem_of_lookup hv⟩
  | @list fs left _ hfields hnames hleft =>
    have hmem : f ∈ fs := by
      rcases List.mem_append.1 (hfields ▸ hf) with hmem | hmem
      · exact hmem
      · simp [hleft f hmem] at hrequired
    have hname : f.name ∈ got.map Prod.fst := hnames ▸ List.mem_map_of_mem hmem
    obtain ⟨m, hm, hname⟩ := List.mem_map.1 hname
    exact ⟨m.2, hname ▸ hm⟩

end Admitting

/-! ### What is read of an object -/

/-- What was made of a result that is there. -/
theorem exists_of_map_eq_ok {ε α β : Type} {r : Except ε α} {f : α → β} {b : β}
    (h : r.map f = .ok b) : ∃ a, r = .ok a ∧ f a = b := by
  cases r with
  | error e => cases h
  | ok a => exact ⟨a, rfl, Except.ok.inj h⟩

section Reading

variable {form : Form} {spells : String × Value → List Char → Prop} {got all : Fields}
  {cs rest : List Char}

theorem exists_blank_of_readColon (h : readColon cs = .ok rest) :
    ∃ ws, cs = ws ++ ':' :: rest ∧ Blank ws := by
  unfold readColon at h
  split at h
  · cases h
  · rename_i hs
    split at h
    · rename_i hc
      cases h
      exact exists_blank_cons (hc ▸ hs)
    · cases h

theorem Form.name_of_field? {name : String} {f : Field} (h : form.field? name = some f) :
    f ∈ form.fields ∧ f.name = name :=
  ⟨List.mem_of_find?_eq_some h, by simpa using List.find?_some h⟩

/-- Fields of the form came to those that were there, each with a new name. -/
structure Form.Gains (form : Form) (got given all : Fields) : Prop where
  all_eq : all = got ++ given
  names : ∀ m ∈ given, m.1 ∈ form.fields.map (·.name)
  nodup : (got.map Prod.fst).Nodup → (all.map Prod.fst).Nodup

theorem Form.Gains.nil (form : Form) (got : Fields) : form.Gains got [] got :=
  ⟨(List.append_nil got).symm, by simp, id⟩

theorem Form.Gains.trans {given fields more : Fields} (h : form.Gains got given all)
    (h' : form.Gains all fields more) : form.Gains got (given ++ fields) more where
  all_eq := by rw [h'.all_eq, h.all_eq, List.append_assoc]
  names := List.forall_mem_append.2 ⟨h.names, h'.names⟩
  nodup := h'.nodup ∘ h.nodup

/-- What was read as a member is one. -/
theorem member_of_readMember (h : form.Exact spells)
    (hr : readMember form got cs = .ok (all, rest)) :
    ∃ given member, '"' :: cs = member ++ rest ∧ form.Gains got given all ∧
      Member form spells given member := by
  unfold readMember at hr
  split at hr
  · cases hr
  rename_i key after ht
  obtain ⟨body, rfl, hbody⟩ := spellsText_of_readText ht
  have hkey : SpellsString (String.ofList key) ('"' :: (body ++ ['"'])) :=
    .quoted (by rwa [String.toList_ofList])
  simp only at hr
  split at hr
  -- the form does not know the name
  · rename_i hunknown
    split at hr
    · cases hr
    rename_i hc
    obtain ⟨ws, rfl, hw⟩ := exists_blank_of_readColon hc
    obtain ⟨last, hv, he⟩ := exists_of_map_eq_ok hr
    cases he
    obtain ⟨between, value, rfl, hb, hd⟩ := derives_of_skipValue hv
    exact ⟨[], _, by simp, .nil form got, .unknown hunknown hkey hw hb hd⟩
  · rename_i f hf
    obtain ⟨hmem, hname⟩ := Form.name_of_field? hf
    split at hr
    · cases hr
    rename_i hnew
    split at hr
    · cases hr
    rename_i hc
    obtain ⟨ws, rfl, hw⟩ := exists_blank_of_readColon hc
    obtain ⟨⟨v, last⟩, hv, he⟩ := exists_of_map_eq_ok hr
    cases he
    obtain ⟨between, value, rfl, hb, hspells⟩ := h.spelled f hmem v _ _ hv
    have hnotin : String.ofList key ∉ got.map Prod.fst := by
      simpa [List.lookup_eq_none_iff] using hnew
    have hgains : form.Gains got [(String.ofList key, v)] (got ++ [(String.ofList key, v)]) := by
      refine ⟨rfl, fun m hm => ?_, fun hnodup => ?_⟩
      · obtain rfl := List.mem_singleton.1 hm
        exact hname ▸ List.mem_map_of_mem hmem
      · rw [List.map_append]
        exact hnodup.append (by simp) (by simpa using hnotin)
    rw [hname] at hspells
    exact ⟨_, _, by simp, hgains, .known (m := (String.ofList key, v)) hkey hw hb hspells⟩

/-- What was read of an object up to its brace, from its beginning or from the end of a member. -/
theorem members_of_readMembers (h : form.Exact spells) {first : Bool}
    (hr : readMembers form first got cs = .ok (all, rest)) :
    ∃ given used, cs = used ++ '\x7d' :: rest ∧ form.Gains got given all ∧
      Remainder (Member form spells) first given used ∧ form.missing? all = none := by
  fun_induction readMembers form first got cs with
  | case1 => cases hr
  | case2 first got cs after hs =>
    obtain ⟨ws, rfl, hw⟩ := exists_blank_cons hs
    unfold closeObject at hr
    split at hr
    · cases hr
    · rename_i hcomplete
      cases hr
      exact ⟨[], ws, rfl, .nil form _, .ended hw, hcomplete⟩
  | case3 => cases hr
  -- a member right after the brace
  | case4 got cs last now after hm _ hs _ _ ih =>
    obtain ⟨before, rfl, hb⟩ := exists_blank_cons hs
    obtain ⟨given, member, hmember, hgains, hitem⟩ := member_of_readMember h hm
    obtain ⟨fields, used, rfl, hgains', hused, hcomplete⟩ := ih hr
    exact ⟨given ++ fields, before ++ (member ++ used), by simp [hmember],
      hgains.trans hgains', .first (hused.separated hb hitem), hcomplete⟩
  | case5 => cases hr
  | case6 => cases hr
  | case7 => cases hr
  -- a member after a comma
  | case8 first got cs tail hfirst last now after hm _ hs _ _ hs' _ ih =>
    obtain ⟨ws, rfl, hw⟩ := exists_blank_cons hs
    obtain ⟨before, rfl, hb⟩ := exists_blank_cons hs'
    obtain ⟨given, member, hmember, hgains, hitem⟩ := member_of_readMember h hm
    obtain ⟨fields, used, rfl, hgains', hused, hcomplete⟩ := ih hr
    obtain rfl : first = false := by simpa using hfirst
    exact ⟨given ++ fields, ws ++ ',' :: (before ++ (member ++ used)), by simp [hmember],
      hgains.trans hgains', .next hw (hused.separated hb hitem), hcomplete⟩
  | case9 => cases hr
  | case10 => cases hr
  | case11 => cases hr

/-! ### What is read of a list -/

theorem exists_blank_of_nextElement_ended {first : Bool} (h : nextElement first cs = .ok .ended) :
    ∃ ws tail, cs = ws ++ ']' :: tail ∧ Blank ws := by
  unfold nextElement at h
  split at h
  · cases h
  rename_i hs
  split at h
  · rename_i hc
    obtain ⟨ws, hcs, hw⟩ := exists_blank_cons (hc ▸ hs)
    exact ⟨ws, _, hcs, hw⟩
  · split at h
    · cases h
    · split at h
      · split at h
        · cases h
        · split at h <;> cases h
      · cases h

/-- What stands before an element: white space, with a comma in it if the element is not the first
one. -/
theorem remainder_of_nextElement {item : Fields → List Char → Prop} {first : Bool}
    (h : nextElement first cs = .ok (.member rest)) :
    ∃ front, cs = front ++ rest ∧ ∀ given used,
      (∀ ws, Blank ws → Separated item given (ws ++ used)) →
        Remainder item first given (front ++ used) := by
  unfold nextElement at h
  split at h
  · cases h
  rename_i hs
  obtain ⟨ws, rfl, hw⟩ := exists_blank_cons hs
  split at h
  · cases h
  split at h
  · rename_i hfirst
    cases h
    refine ⟨ws, rfl, fun given used hused => ?_⟩
    rw [hfirst]
    exact .first (hused ws hw)
  rename_i hfirst
  obtain rfl : first = false := by simpa using hfirst
  split at h
  · rename_i hc
    subst hc
    split at h
    · cases h
    · rename_i hs'
      obtain ⟨between, rfl, hb⟩ := exists_blank_cons hs'
      split at h
      · cases h
      · cases h
        refine ⟨ws ++ ',' :: between, by simp, fun given used hused => ?_⟩
        rw [List.append_assoc, List.cons_append]
        exact .next hw (hused between hb)
  · cases h

theorem exists_blank_of_closeList (h : closeList cs = .ok rest) :
    ∃ ws, cs = ws ++ ']' :: rest ∧ Blank ws := by
  unfold closeList at h
  split at h
  · cases h
  rename_i hs
  split at h
  · rename_i hc
    cases h
    exact exists_blank_cons (hc ▸ hs)
  · split at h
    · split at h
      · split at h <;> cases h
      · cases h
    · cases h

/-- At the end of a list no more fields are read, and those that are left need not be there. -/
theorem left_of_readElements {ws : List Char} (hw : Blank ws) {tail : List Char} {fs : List Field}
    {count : Nat} (hr : readElements form count got fs (ws ++ ']' :: tail) = .ok (all, rest)) :
    (all = got ∧ rest = tail) ∧ ∀ f ∈ fs, f.required = false := by
  induction fs with
  | nil =>
    obtain ⟨last, hclose, he⟩ := exists_of_map_eq_ok hr
    cases he
    have hrest : tail = rest := by
      simpa [closeList, skipSpace_blank_cons hw, isSpace] using hclose
    exact ⟨⟨rfl, hrest.symm⟩, by simp⟩
  | cons f fs ih =>
    simp only [readElements, nextElement_close hw] at hr
    split at hr
    · cases hr
    · rename_i hrequired
      obtain ⟨hsame, hleft⟩ := ih hr
      exact ⟨hsame, List.forall_mem_cons.2 ⟨by simpa using hrequired, hleft⟩⟩

/-- What was read of a list up to its bracket, from its beginning or from the end of an element. -/
theorem elements_of_readElements (h : form.Exact spells) {fields : List Field}
    (hfields : ∀ f ∈ fields, f ∈ form.fields) {count : Nat}
    (hr : readElements form count got fields cs = .ok (all, rest)) :
    ∃ given used fs left, cs = used ++ ']' :: rest ∧ all = got ++ given ∧ fields = fs ++ left ∧
      fs.map (·.name) = given.map Prod.fst ∧ (∀ f ∈ left, f.required = false) ∧
      Remainder (Element spells) (count == 0) given used := by
  induction fields generalizing count got cs with
  | nil =>
    obtain ⟨last, hclose, he⟩ := exists_of_map_eq_ok hr
    cases he
    obtain ⟨ws, rfl, hw⟩ := exists_blank_of_closeList hclose
    exact ⟨[], ws, [], [], rfl, by simp, rfl, rfl, by simp, .ended hw⟩
  | cons f fields ih =>
    have hall := hr
    rw [readElements] at hr
    split at hr
    · cases hr
    · rename_i hnext
      obtain ⟨ws, tail, rfl, hw⟩ := exists_blank_of_nextElement_ended hnext
      obtain ⟨⟨rfl, rfl⟩, hleft⟩ := left_of_readElements hw hall
      exact ⟨[], ws, [], f :: fields, rfl, by simp, rfl, rfl, hleft, .ended hw⟩
    · rename_i hnext
      split at hr
      · cases hr
      rename_i v after hslot
      obtain ⟨between, value, rfl, hb, hv⟩ := h.spelled f (hfields f (by simp)) v _ _ hslot
      obtain ⟨given, used, fs, left, rfl, rfl, rfl, hnames, hleft, hused⟩ :=
        ih (fun g hg => hfields g (by simp [hg])) hr
      have hitem : Element spells [(f.name, v)] value := .value hv
      obtain ⟨front, rfl, hfront⟩ := remainder_of_nextElement hnext
      refine ⟨[(f.name, v)] ++ given, front ++ (between ++ (value ++ used)), f :: fs, left, by simp,
        by simp, rfl, by simp [hnames], hleft, hfront _ _ fun ws hw => ?_⟩
      rw [← List.append_assoc]
      exact hused.separated (hw.append hb) hitem

/-! ### What is read of a record -/

theorem Form.admits_of_readRecord (h : form.Exact spells)
    (hr : readRecord form cs = .ok (got, rest)) :
    ∃ before used, cs = before ++ (used ++ rest) ∧ Blank before ∧ form.Admits spells got used := by
  unfold readRecord at hr
  split at hr
  · cases hr
  rename_i hs
  obtain ⟨before, rfl, hb⟩ := exists_blank_cons hs
  split at hr
  · rename_i hc
    subst hc
    obtain ⟨given, used, fs, left, rfl, rfl, hfields, hnames, hleft, hused⟩ :=
      elements_of_readElements h (fun _ => id) hr
    exact ⟨before, _, by simp [Bracket.opening, Bracket.close], hb,
      .list hfields hnames hleft (hused.enclosed .list)⟩
  split at hr
  · rename_i hc
    subst hc
    obtain ⟨given, used, rfl, hgains, hused, hcomplete⟩ := members_of_readMembers h hr
    obtain rfl : got = given := hgains.all_eq
    exact ⟨before, _, by simp [Bracket.opening, Bracket.close], hb,
      .object hgains.names (hgains.nodup .nil) hcomplete (hused.enclosed .object)⟩
  · cases hr

/-- **Records are read from their objects and lists, and from nothing else.** -/
theorem Form.readRecord_eq_ok_iff (h : form.Exact spells) :
    readRecord form cs = .ok (got, rest) ↔
      ∃ before used, cs = before ++ (used ++ rest) ∧ Blank before ∧
        form.Admits spells got used := by
  refine ⟨admits_of_readRecord h, ?_⟩
  rintro ⟨before, used, rfl, hb, hadmits⟩
  cases hadmits with
  | object hnames hnodup hcomplete hs =>
    have hreads : ∀ m ∈ got, ∃ f, form.field? m.1 = some f ∧ f.ReadsSpelled spells m := by
      intro m hm
      obtain ⟨f, hf, hname⟩ := List.mem_map.1 (hnames m hm)
      refine ⟨f, hname ▸ form.field?_of_mem h.nodup hf, ?_⟩
      have hreads := h.reads f hf m.2
      rwa [hname] at hreads
    rw [readRecord_object hb hs hreads hnodup, closeObject, hcomplete]
  | list hfields hnames hleft hs =>
    refine readRecord_list hb hs h.derives hfields hnames (fun m _ f hf hname => ?_) hleft rest
    have hreads := h.reads f (hfields ▸ List.mem_append_left _ hf) m.2
    rwa [hname] at hreads

/-- What a whole text is read as, if it is a record with white space around it. -/
theorem Form.parse_eq_ok_iff (h : form.Exact spells) {text : String} :
    form.parse text = .ok got ↔
      ∃ before used after, text = String.ofList (before ++ (used ++ after)) ∧ Blank before ∧
        form.Admits spells got used ∧ Blank after := by
  constructor
  · intro hp
    unfold Form.parse at hp
    split at hp
    · cases hp
    rename_i got' after hr
    split at hp
    · rename_i hend
      cases hp
      obtain ⟨before, used, htext, hb, hadmits⟩ := (readRecord_eq_ok_iff h).1 hr
      refine ⟨before, used, after, ?_, hb, hadmits, ?_⟩
      · rw [← htext, String.ofList_toList]
      · simpa [skipSpace, Blank] using hend
    · cases hp
  · rintro ⟨before, used, after, rfl, hb, hadmits, ha⟩
    have hread : readRecord form (before ++ (used ++ after)) = .ok (got, after) :=
      (readRecord_eq_ok_iff h).2 ⟨before, used, rfl, hb, hadmits⟩
    have hend : skipSpace after = [] := by simpa [skipSpace, Blank] using ha
    simp [Form.parse, hread, hend]

end Reading

end ResumableUpload.Json
