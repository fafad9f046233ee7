import ResumableUpload.Proofs.Written

/-!
# Spellings of a record

A record may be spelled as an object, with its fields in any order among members that its form does
not know, or as a list of its fields in order. Its strings and keys may be escaped in any way, and
white space may stand between any two tokens. A field that need not be there may be left out if it
holds what an absent one means (`Form.Presents`).

* `Form.presents_renderFields` : the text that is written for a record is one of its spellings.
* `Form.Presents.derives` : what spells a record is a JSON value.
-/

namespace ResumableUpload.Json

/-! ### Values -/

/-- The spellings of a string with its quotes. -/
inductive SpellsString (s : String) : List Char → Prop
  | quoted {body : List Char} (hb : SpellsText s.toList body) :
      SpellsString s ('"' :: (body ++ ['"']))

/-- The spellings of a value. Only strings have more than one; a value that is kept as it is
spelled is any JSON value. -/
def Value.Spelled : Value → List Char → Prop
  | text s, cs => SpellsString s cs
  | raw json, cs => cs = json.toList ∧ Derives .value cs
  | v, cs => cs = v.render

theorem Value.Spelled.derives {v : Value} {cs : List Char} (h : v.Spelled cs) :
    Derives .value cs := by
  cases v with
  | null =>
    obtain rfl : cs = _ := h
    exact .null
  | flag b =>
    obtain rfl : cs = _ := h
    cases b with
    | true => exact .true
    | false => exact .false
  | int n =>
    obtain rfl : cs = _ := h
    exact .number (isNumber_renderInt n)
  | text s =>
    cases h with
    | quoted hb => exact .text hb.isTextBody
  | raw json => exact h.2

/-! ### Records -/

/-- Items between commas, with white space around each, and the fields that they give. -/
inductive Separated (item : Fields → List Char → Prop) : Fields → List Char → Prop
  | last {got : Fields} {before cs after : List Char} (hb : Blank before) (hi : item got cs)
      (ha : Blank after) : Separated item got (before ++ (cs ++ after))
  | next {got fields : Fields} {before cs after rest : List Char} (hb : Blank before)
      (hi : item got cs) (ha : Blank after) (hr : Separated item fields rest) :
      Separated item (got ++ fields) (before ++ (cs ++ (after ++ ',' :: rest)))

/-- Items inside a bracket. -/
inductive Enclosed (b : Bracket) (item : Fields → List Char → Prop) : Fields → List Char → Prop
  | empty {ws : List Char} (hw : Blank ws) : Enclosed b item [] (b.opening :: (ws ++ [b.close]))
  | filled {fields : Fields} {cs : List Char} (hs : Separated item fields cs) :
      Enclosed b item fields (b.opening :: (cs ++ [b.close]))

/-- An element of a list, where `spells` says how a field is spelled. -/
inductive Element (spells : String × Value → List Char → Prop) : Fields → List Char → Prop
  | value {m : String × Value} {cs : List Char} (hv : spells m cs) : Element spells [m] cs

/-- A member of an object, where `spells` says how the fields of the form are spelled. -/
inductive Member (form : Form) (spells : String × Value → List Char → Prop) :
    Fields → List Char → Prop
  | known {m : String × Value} {key ws between cs : List Char} (hk : SpellsString m.1 key)
      (hw : Blank ws) (hb : Blank between) (hv : spells m cs) :
      Member form spells [m] (key ++ (ws ++ ':' :: (between ++ cs)))
  | unknown {s : String} {key ws between cs : List Char} (hs : form.field? s = none)
      (hk : SpellsString s key) (hw : Blank ws) (hb : Blank between) (hv : Derives .value cs) :
      Member form spells [] (key ++ (ws ++ ':' :: (between ++ cs)))

/-- An element of a list. -/
def SpellsElement : Fields → List Char → Prop := Element fun m => m.2.Spelled

/-- A member of an object. One that the form does not know gives no field, and may hold any JSON
value. -/
def SpellsMember (form : Form) : Fields → List Char → Prop := Member form fun m => m.2.Spelled

/-- The value means the same as no value. -/
def Value.IsDefault (v : Value) : Prop := v = .int 0 ∨ v = .text ""

/-- A field that may be left out. -/
def Form.Omits (form : Form) (m : String × Value) : Prop :=
  (∃ f, form.field? m.1 = some f ∧ f.required = false) ∧ m.2.IsDefault

/-- The text spells a record with these fields. -/
inductive Form.Presents (form : Form) (fields : Fields) : List Char → Prop
  /-- Some fields in any order, and the others left out. -/
  | object {given left : Fields} {cs : List Char} (hall : fields.Perm (given ++ left))
      (hleft : ∀ m ∈ left, form.Omits m) (hs : Enclosed .object (SpellsMember form) given cs) :
      form.Presents fields cs
  /-- Some fields in the order of the form, and those after them left out. -/
  | list {given left : Fields} {cs : List Char} (hall : fields = given ++ left)
      (hleft : ∀ m ∈ left, form.Omits m) (hs : Enclosed .list SpellsElement given cs) :
      form.Presents fields cs

/-! ### What is written is a spelling -/

theorem spellsString_quoteText (s : String) : SpellsString s (quoteText s.toList) :=
  .quoted (spellsText_writeChar s.toList)

theorem Value.spelled_render {v : Value} (h : ∀ json, v = .raw json → Derives .value json.toList) :
    v.Spelled v.render := by
  cases v with
  | null | flag | int => rfl
  | text s => exact spellsString_quoteText s
  | raw json => exact ⟨rfl, h json rfl⟩

/-- The members of an object after the first, each with the comma before it. -/
def renderRest (fields : Fields) : List Char := fields.flatMap fun m => ',' :: renderMember m

theorem flatten_intersperse_cons (sep x : List Char) (xs : List (List Char)) :
    (List.intersperse sep (x :: xs)).flatten = x ++ xs.flatMap (sep ++ ·) := by
  induction xs generalizing x with
  | nil => simp
  | cons y ys ih => simp [ih]

theorem renderFields_cons (m : String × Value) (fields : Fields) :
    renderFields (m :: fields) = '\x7b' :: (renderMember m ++ (renderRest fields ++ ['\x7d'])) := by
  simp [renderFields, renderRest, flatten_intersperse_cons, List.flatMap_map]

theorem separated_renderMember {item : Fields → List Char → Prop} {m : String × Value}
    {fields : Fields} (h : ∀ n ∈ m :: fields, item [n] (renderMember n)) :
    Separated item (m :: fields) (renderMember m ++ renderRest fields) := by
  have hmember := h m (by simp)
  induction fields generalizing m with
  | nil => simpa [renderRest] using Separated.last blank_nil hmember blank_nil
  | cons n fields ih =>
    have hrest := ih (fun k hk => h k (List.mem_cons_of_mem m hk)) (h n (by simp))
    simpa [renderRest] using Separated.next blank_nil hmember blank_nil hrest

/-- What is written for a record is an object, whatever counts as a member. -/
theorem enclosed_renderFields {item : Fields → List Char → Prop} {fields : Fields}
    (h : ∀ m ∈ fields, item [m] (renderMember m)) :
    Enclosed .object item fields (renderFields fields) := by
  cases fields with
  | nil => exact .empty blank_nil
  | cons m fields =>
    rw [renderFields_cons, ← List.append_assoc]
    exact .filled (separated_renderMember h)

theorem Form.presents_renderFields (form : Form) {fields : Fields}
    (h : ∀ m ∈ fields, m.2.Spelled m.2.render) : form.Presents fields (renderFields fields) := by
  have hall : fields.Perm (fields ++ []) := by simp
  refine .object hall (fun _ hm => by cases hm) (enclosed_renderFields fun m hm => ?_)
  exact .known (spellsString_quoteText m.1) blank_nil blank_nil (h m hm)

/-! ### A spelling of a record is a value -/

/-- The item is a member of a bracket: its name, and a value. -/
def IsMember (b : Bracket) (cs : List Char) : Prop :=
  ∃ name between value, cs = name ++ (between ++ value) ∧ IsName b name ∧ Blank between ∧
    Derives .value value

section Derivation

variable {b : Bracket} {item : Fields → List Char → Prop} {fields : Fields} {cs : List Char}

theorem Separated.derives (hitem : ∀ got cs, item got cs → IsMember b cs)
    (h : Separated item fields cs) : Derives (.members b) cs := by
  induction h with
  | last hb hi ha =>
    obtain ⟨name, between, value, rfl, hn, hw, hv⟩ := hitem _ _ hi
    simpa only [List.append_assoc] using Derives.last hb hn hw hv ha
  | next hb hi ha _ ih =>
    obtain ⟨name, between, value, rfl, hn, hw, hv⟩ := hitem _ _ hi
    simpa only [List.append_assoc] using Derives.next hb hn hw hv ha ih

theorem Enclosed.derives (hitem : ∀ got cs, item got cs → IsMember b cs)
    (h : Enclosed b item fields cs) : Derives .value cs := by
  cases h with
  | empty hw => exact .empty hw
  | filled hs => exact .filled (hs.derives hitem)

theorem Element.isMember {spells : String × Value → List Char → Prop}
    (hspells : ∀ m cs, spells m cs → Derives .value cs) (h : Element spells fields cs) :
    IsMember .list cs := by
  cases h with
  | value hv => exact ⟨[], [], cs, rfl, .list, blank_nil, hspells _ _ hv⟩

theorem Member.isMember {form : Form} {spells : String × Value → List Char → Prop}
    (hspells : ∀ m cs, spells m cs → Derives .value cs) (h : Member form spells fields cs) :
    IsMember .object cs := by
  have hmember {s : String} {key ws between value : List Char} (hk : SpellsString s key)
      (hw : Blank ws) (hb : Blank between) (hv : Derives .value value) :
      IsMember .object (key ++ (ws ++ ':' :: (between ++ value))) := by
    cases hk with
    | quoted hbody =>
      exact ⟨_, between, value, by simp, .object hbody.isTextBody hw, hb, hv⟩
  cases h with
  | known hk hw hb hv => exact hmember hk hw hb (hspells _ _ hv)
  | unknown _ hk hw hb hv => exact hmember hk hw hb hv

/-- **What spells a record is a JSON value.** -/
theorem Form.Presents.derives {form : Form} (h : form.Presents fields cs) :
    Derives .value cs := by
  cases h with
  | object _ _ hs => exact hs.derives fun _ _ => Member.isMember fun _ _ => Value.Spelled.derives
  | list _ _ hs => exact hs.derives fun _ _ => Element.isMember fun _ _ => Value.Spelled.derives

end Derivation

end ResumableUpload.Json
