import ResumableUpload.Proofs.Exactness

/-!
# Names, and values that are kept as they are spelled

A name may be spelled as a string or as an object with that one key (`SpellsTag`). A field that
keeps a value as it is spelled holds the text of the value without the white space around it, and
nothing for null (`Value.kept`). Both are read exactly from their spellings.

* `readTag_spelled`, `spellsTag_of_readTag` : names.
* `readSlot_kept`, `kept_of_readSlot` : values that are kept.
* `trimmed_of_derives` : no white space belongs to the ends of a value.
-/

namespace ResumableUpload.Json

variable {cs rest : List Char} {s : String}

/-! ### Names -/

/-- The spellings of one of some names: a string, or an object with that one key and the value
null. -/
inductive SpellsTag (s : String) : List Char → Prop
  | name {cs : List Char} (hs : SpellsString s cs) : SpellsTag s cs
  | object {before key ws between after : List Char} (hb : Blank before) (hk : SpellsString s key)
      (hw : Blank ws) (hn : Blank between) (ha : Blank after) :
      SpellsTag s ('\x7b' :: (before ++ (key ++ (ws ++ ':' :: (between ++
        'n' :: 'u' :: 'l' :: 'l' :: (after ++ ['\x7d']))))))

theorem SpellsString.derives (h : SpellsString s cs) : Derives .value cs :=
  Value.Spelled.derives (v := .text s) h

theorem SpellsTag.derives (h : SpellsTag s cs) : Derives .value cs := by
  cases h with
  | name hs => exact hs.derives
  | object hb hk hw hn ha =>
    cases hk with
    | quoted hbody =>
      have hmembers := Derives.last hb (.object hbody.isTextBody hw) hn .null ha
      simpa [Bracket.opening, Bracket.close] using Derives.filled hmembers

section Tags

variable {names : List String}

theorem spellsString_of_readName (h : readName names cs = .ok (s, rest)) :
    s ∈ names ∧ ∃ used, '"' :: cs = used ++ rest ∧ SpellsString s used := by
  unfold readName at h
  split at h
  · cases h
  rename_i text after ht
  simp only at h
  split at h
  · rename_i hs
    cases h
    obtain ⟨body, rfl, hbody⟩ := spellsText_of_readText ht
    exact ⟨hs, '"' :: (body ++ ['"']), by simp, .quoted (by rwa [String.toList_ofList])⟩
  · cases h

theorem spellsString_of_readTagKey (h : readTagKey names cs = .ok (s, rest)) :
    s ∈ names ∧ ∃ before key, cs = before ++ (key ++ rest) ∧ Blank before ∧ SpellsString s key := by
  unfold readTagKey at h
  split at h
  · cases h
  rename_i hs
  obtain ⟨before, rfl, hb⟩ := exists_blank_cons hs
  split at h
  · rename_i hc
    obtain ⟨hmem, key, hkey, hspells⟩ := spellsString_of_readName h
    exact ⟨hmem, before, key, by rw [← hkey, hc], hb, hspells⟩
  · split at h <;> cases h

theorem exists_blank_of_readNull (h : readNull cs = .ok rest) :
    ∃ ws, cs = ws ++ 'n' :: 'u' :: 'l' :: 'l' :: rest ∧ Blank ws := by
  unfold readNull at h
  split at h
  · rename_i hs
    obtain rfl := eq_of_readLetters h
    exact exists_blank_cons hs
  · cases h

theorem spellsTag_of_readTagObject (h : readTagObject names cs = .ok (s, rest)) :
    s ∈ names ∧ ∃ used, '\x7b' :: cs = used ++ rest ∧ SpellsTag s used := by
  unfold readTagObject at h
  split at h
  · cases h
  rename_i hkey
  obtain ⟨hmem, before, key, rfl, hb, hk⟩ := spellsString_of_readTagKey hkey
  split at h
  · cases h
  rename_i hcolon
  obtain ⟨ws, rfl, hw⟩ := exists_blank_of_readColon hcolon
  split at h
  · cases h
  rename_i hnull
  obtain ⟨between, rfl, hn⟩ := exists_blank_of_readNull hnull
  split at h
  · cases h
  rename_i hs
  obtain ⟨after, rfl, ha⟩ := exists_blank_cons hs
  split at h
  · rename_i hc
    cases h
    exact ⟨hmem, _, by simp [hc], .object hb hk hw hn ha⟩
  · cases h

/-- A name is read only from one of its spellings. -/
theorem spellsTag_of_readTag (h : readTag names cs = .ok (s, rest)) :
    s ∈ names ∧ ∃ ws used, cs = ws ++ (used ++ rest) ∧ Blank ws ∧ SpellsTag s used := by
  unfold readTag at h
  split at h
  · cases h
  rename_i hs
  obtain ⟨ws, rfl, hw⟩ := exists_blank_cons hs
  split at h
  · rename_i hc
    subst hc
    obtain ⟨hmem, used, hused, hspells⟩ := spellsString_of_readName h
    exact ⟨hmem, ws, used, by rw [hused], hw, .name hspells⟩
  split at h
  · rename_i hc
    subst hc
    obtain ⟨hmem, used, hused, hspells⟩ := spellsTag_of_readTagObject h
    exact ⟨hmem, ws, used, by rw [hused], hw, hspells⟩
  · cases h

theorem readName_spelled {body : List Char} (hs : s ∈ names) (hb : SpellsText s.toList body)
    (rest : List Char) : readName names (body ++ '"' :: rest) = .ok (s, rest) := by
  simp [readName, readText_spelled hb, hs]

/-- A name is read from each of its spellings. -/
theorem readTag_spelled (hs : s ∈ names) (h : SpellsTag s cs) (rest : List Char) :
    readTag names (cs ++ rest) = .ok (s, rest) := by
  cases h with
  | name h =>
    cases h with
    | quoted hb =>
      simp [readTag, skipSpace_cons, isSpace, readName_spelled hs hb]
  | @object before key ws between after hb hk hw hn ha =>
    cases hk with
    | @quoted body hbody =>
      have hkey (tail : List Char) :
          readTagKey names (before ++ '"' :: (body ++ '"' :: tail)) = .ok (s, tail) := by
        simp [readTagKey, skipSpace_blank_cons hb, isSpace, readName_spelled hs hbody]
      have hnull (tail : List Char) :
          readNull (between ++ 'n' :: 'u' :: 'l' :: 'l' :: tail) = .ok tail := by
        simp only [readNull, skipSpace_blank_cons hn (c := 'n') (by decide)]
        exact readLetters_append ['u', 'l', 'l'] tail
      simp [readTag, skipSpace_cons, isSpace, readTagObject, hkey, readColon_blank hw, hnull,
        skipSpace_blank_cons ha]

end Tags

/-! ### Values that are kept -/

/-- What a field holds that keeps a value as it is spelled. -/
def Value.kept (json : String) : Value := if json = "null" then .null else .raw json

theorem Value.kept_injective {json json' : String} (h : kept json = kept json') : json = json' := by
  unfold kept at h
  split at h <;> split at h
  · simp_all
  · cases h
  · cases h
  · exact raw.inj h

theorem Value.render_kept (json : String) : (kept json).render = json.toList := by
  unfold kept
  split
  · rename_i hjson
    rw [hjson]
    rfl
  · rfl

/-- A value that begins as null does is null. -/
theorem Derives.eq_null {tail : List Char} (h : Derives .value ('n' :: tail)) :
    tail = ['u', 'l', 'l'] := by
  generalize hcs : 'n' :: tail = cs at h
  cases h with
  | null => exact List.tail_eq_of_cons_eq hcs
  | number hn =>
    obtain ⟨c, digits, rfl, hc⟩ := hn.head
    obtain rfl := List.head_eq_of_cons_eq hcs
    simp at hc
  | @empty b | @filled b => cases b <;> cases hcs
  | _ => cases hcs

theorem Value.kept_eq_raw {c : Char} {tail : List Char} (h : c ≠ 'n') :
    kept (String.ofList (c :: tail)) = .raw (String.ofList (c :: tail)) := by
  refine if_neg fun hnull => h ?_
  have hlist := congrArg String.toList hnull
  rw [String.toList_ofList] at hlist
  exact List.head_eq_of_cons_eq hlist

/-- A field that keeps a value is read from each value. -/
theorem readSlot_kept (hd : Derives .value cs) (hr : Delimited rest) :
    readSlot .rawOrNull (cs ++ rest) = .ok (.kept (String.ofList cs), rest) := by
  obtain ⟨hspells, c, tail, rfl, hspace, -⟩ := hd.passed
  by_cases hc : c = 'n'
  · subst hc
    obtain rfl := hd.eq_null
    have hletters := readLetters_append ['u', 'l', 'l'] rest
    simp only [List.cons_append, List.nil_append] at hletters
    simp [readSlot, skipSpace_cons, isSpace, hletters, Except.map, Value.kept]
  · have hread := Slot.reads_raw hspells hspace hc rest hr
    rwa [Value.render, String.toList_ofList, ← Value.kept_eq_raw hc] at hread

/-- A field that keeps a value is read only from a value. -/
theorem kept_of_readSlot {v : Value} (h : readSlot .rawOrNull cs = .ok (v, rest)) :
    ∃ ws used, cs = ws ++ (used ++ rest) ∧ Blank ws ∧ Derives .value used ∧
      v = .kept (String.ofList used) := by
  simp only [readSlot] at h
  split at h
  · rename_i hs
    obtain ⟨last, hl, he⟩ := exists_of_map_eq_ok h
    cases he
    obtain rfl := eq_of_readLetters hl
    obtain ⟨ws, rfl, hw⟩ := exists_blank_cons hs
    exact ⟨ws, ['n', 'u', 'l', 'l'], by simp, hw, .null, by decide⟩
  · rename_i hnull
    obtain ⟨⟨used, last⟩, ht, he⟩ := exists_of_map_eq_ok h
    cases he
    obtain ⟨ws, hcs, hw⟩ := exists_blank cs
    have hd := derives_of_takeValue ht
    have happend := takeValue_append ht
    rw [skipSpace, skipSpace, List.dropWhile_idempotent, ← skipSpace] at happend
    obtain ⟨-, c, tail, rfl, -⟩ := hd.passed
    have hc : c ≠ 'n' := by
      rintro rfl
      exact hnull _ happend.symm
    exact ⟨ws, c :: tail, by rw [happend, ← hcs], hw, hd, (Value.kept_eq_raw hc).symm⟩

/-! ### No white space around a value -/

/-- There is no white space at either end. -/
def Trimmed (cs : List Char) : Prop :=
  (∀ c ∈ cs.head?, isSpace c = false) ∧ ∀ c ∈ cs.getLast?, isSpace c = false

theorem IsDigits.exists_last (h : IsDigits cs) :
    ∃ front d, cs = front ++ [d] ∧ d.isDigit = true := by
  obtain ⟨hne, hall⟩ := h
  obtain rfl | ⟨front, d, rfl⟩ := cs.eq_nil_or_concat
  · exact absurd rfl hne
  · exact ⟨front, d, List.concat_eq_append, hall d (by simp)⟩

theorem IsNumber.exists_last (h : IsNumber cs) :
    ∃ front d, cs = front ++ [d] ∧ d.isDigit = true := by
  have hafter (front : List Char) {ds : List Char} (hd : IsDigits ds) :
      ∃ front' d, front ++ ds = front' ++ [d] ∧ d.isDigit = true := by
    obtain ⟨digits, d, rfl, hdigit⟩ := hd.exists_last
    exact ⟨front ++ digits, d, by simp, hdigit⟩
  cases h with
  | @number sign whole fraction exponent _ hw hf he =>
    cases he with
    | @letter e esign ds _ _ hd =>
      simpa using hafter (sign ++ (whole ++ (fraction ++ e :: esign))) hd
    | none =>
      cases hf with
      | point hd => simpa using hafter (sign ++ (whole ++ ['.'])) hd
      | none =>
        cases hw with
        | zero => exact ⟨sign, '0', by simp, by decide⟩
        | digits _ hd => simpa using hafter sign hd

theorem exists_last_of_derives (h : Derives .value cs) :
    ∃ front c, cs = front ++ [c] ∧ isSpace c = false := by
  cases h with
  | null => exact ⟨['n', 'u', 'l'], 'l', rfl, by decide⟩
  | true => exact ⟨['t', 'r', 'u'], 'e', rfl, by decide⟩
  | false => exact ⟨['f', 'a', 'l', 's'], 'e', rfl, by decide⟩
  | number hn =>
    obtain ⟨front, d, hcs, hd⟩ := hn.exists_last
    exact ⟨front, d, hcs, isSpace_of_isDigit hd⟩
  | @text body => exact ⟨'"' :: body, '"', rfl, by decide⟩
  | @empty b ws => exact ⟨b.opening :: ws, b.close, rfl, b.isSpace_close⟩
  | @filled b members => exact ⟨b.opening :: members, b.close, rfl, b.isSpace_close⟩

theorem trimmed_of_derives (h : Derives .value cs) : Trimmed cs := by
  obtain ⟨-, c, tail, hfirst, hspace, -⟩ := h.passed
  obtain ⟨front, d, hlast, hspace'⟩ := exists_last_of_derives h
  constructor
  · simp [hfirst, hspace]
  · simp [hlast, hspace']

end ResumableUpload.Json
