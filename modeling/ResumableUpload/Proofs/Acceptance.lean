import ResumableUpload.Proofs.Grammar

/-!
# Only JSON is passed over

The grammar says what is passed over (`Derives.spells`), and here is the converse: whatever a reader
passes over as a string, a number or a value is derived by the grammar, and what it leaves begins
right after it. The text of a string is read only from one of its spellings.

While a value is passed over, some brackets are open. `Finishes` says what has to follow a complete
value in all of them, and `Due.Covers` what was passed over when something else is due.

* `spellsText_of_readText`, `isTextBody_of_skipText` : strings.
* `isNumber_of_skipNumber` : numbers.
* `derives_of_skipValue`, `derives_of_takeValue` : values, at any depth.
-/

namespace ResumableUpload.Json

variable {cs rest : List Char}

/-! ### White space -/

theorem exists_blank (cs : List Char) : ∃ ws, cs = ws ++ skipSpace cs ∧ Blank ws := by
  refine ⟨cs.takeWhile isSpace, (List.takeWhile_append_dropWhile).symm, fun c hc => ?_⟩
  exact List.mem_takeWhile_imp hc

theorem exists_blank_cons {c : Char} (h : skipSpace cs = c :: rest) :
    ∃ ws, cs = ws ++ c :: rest ∧ Blank ws := by
  obtain ⟨ws, hcs, hw⟩ := exists_blank cs
  rw [h] at hcs
  exact ⟨ws, hcs, hw⟩

theorem Blank.append {ws ws' : List Char} (h : Blank ws) (h' : Blank ws') : Blank (ws ++ ws') :=
  List.forall_mem_append.2 ⟨h, h'⟩

/-- White space is passed over as a whole. -/
theorem isSpace_of_skipSpace {c : Char} (h : skipSpace cs = c :: rest) : isSpace c = false := by
  have hhead := List.head?_dropWhile_not isSpace cs
  rw [← skipSpace, h] at hhead
  simpa using hhead

/-! ### Strings -/

theorem isHexDigit_of_hexValue? {c : Char} {n : Nat} (h : hexValue? c = some n) :
    IsHexDigit n c := by
  have hle {a b : Char} : a ≤ b ↔ a.toNat ≤ b.toNat := by
    rw [Char.le_def, UInt32.le_iff_toNat_le]
    rfl
  simp only [hexValue?, hle, Char.reduceToNat] at h
  split at h
  · obtain rfl := Option.some.inj h
    refine ⟨by omega, .inl ?_⟩
    have hvalue : 48 + (c.toNat - 48) = c.toNat := by omega
    rw [hexDigit, if_pos (by omega), hvalue, Char.ofNat_toNat]
  · split at h
    · obtain rfl := Option.some.inj h
      refine ⟨by omega, .inl ?_⟩
      have hvalue : 87 + (c.toNat - 97 + 10) = c.toNat := by omega
      rw [hexDigit, if_neg (by omega), hvalue, Char.ofNat_toNat]
    · split at h
      · obtain rfl := Option.some.inj h
        have hupper : ∀ k < 6, (hexDigit (k + 10)).toUpper = Char.ofNat (65 + k) := by decide
        have hvalue : 65 + (c.toNat - 65) = c.toNat := by omega
        refine ⟨by omega, .inr ?_⟩
        rw [hupper _ (by omega), hvalue, Char.ofNat_toNat]
      · cases h

theorem spellsUnit_of_unit? {a b c d : Char} {n : Nat} (h : unit? a b c d = some n) :
    SpellsUnit n [a, b, c, d] := by
  unfold unit? at h
  split at h
  · rename_i ha hb hc hd
    obtain rfl := Option.some.inj h
    exact .digits (isHexDigit_of_hexValue? ha) (isHexDigit_of_hexValue? hb)
      (isHexDigit_of_hexValue? hc) (isHexDigit_of_hexValue? hd)
  · cases h

theorem spellsUnit_of_readUnit {n : Nat} (h : readUnit cs = .ok (n, rest)) :
    ∃ ds, cs = ds ++ rest ∧ SpellsUnit n ds := by
  unfold readUnit at h
  split at h
  · rename_i a b c d _
    split at h
    · rename_i hu
      cases h
      exact ⟨[a, b, c, d], rfl, spellsUnit_of_unit? hu⟩
    · cases h
  · split at h <;> cases h

theorem SpellsUnit.lt {n : Nat} {ds : List Char} (h : SpellsUnit n ds) : n < 0x10000 := by
  cases h with
  | digits ha hb hc hd =>
    have ha := ha.1
    have hb := hb.1
    have hc := hc.1
    have hd := hd.1
    omega

theorem mem_escapeLetters_of_letterEscape? {e c : Char} (h : letterEscape? e = some c) :
    (e, c) ∈ escapeLetters := by
  unfold letterEscape? at h
  split at h <;> cases h <;> decide

/-- A number that is no half of a pair is that of a character. -/
theorem toNat_ofNat_of_unit {n : Nat} (hn : n < 0x10000) (hl : isLeading n = false)
    (ht : isTrailing n = false) : (Char.ofNat n).toNat = n := by
  simp only [isLeading, isTrailing, Bool.and_eq_false_iff, decide_eq_false_iff_not] at hl ht
  have hvalid : n.isValidChar := by
    unfold Nat.isValidChar
    omega
  rw [Char.ofNat, dif_pos hvalid]
  rfl

/-- The character of a pair is found again in its halves. -/
theorem fromPair_spec {leading trailing : Nat} (hl : isLeading leading = true)
    (ht : isTrailing trailing = true) :
    0x10000 ≤ (fromPair leading trailing).toNat ∧
      leading = 0xd800 + ((fromPair leading trailing).toNat - 0x10000) / 0x400 ∧
      trailing = 0xdc00 + ((fromPair leading trailing).toNat - 0x10000) % 0x400 := by
  simp only [isLeading, isTrailing, Bool.and_eq_true, decide_eq_true_eq] at hl ht
  have hvalid : Nat.isValidChar (0x10000 + (leading - 0xd800) * 0x400 + (trailing - 0xdc00)) := by
    unfold Nat.isValidChar
    omega
  have hnat : (fromPair leading trailing).toNat =
      0x10000 + (leading - 0xd800) * 0x400 + (trailing - 0xdc00) := by
    rw [fromPair, Char.ofNat, dif_pos hvalid]
    rfl
  rw [hnat]
  omega

theorem spells_of_readTrailing {leading : Nat} {c : Char} (hl : isLeading leading = true)
    (h : readTrailing leading cs = .ok (c, rest)) :
    ∃ ds, cs = '\\' :: 'u' :: (ds ++ rest) ∧ 0x10000 ≤ c.toNat ∧
      leading = 0xd800 + (c.toNat - 0x10000) / 0x400 ∧
      SpellsUnit (0xdc00 + (c.toNat - 0x10000) % 0x400) ds := by
  unfold readTrailing at h
  split at h
  · cases h
  · cases h
  · split at h
    · cases h
    · rename_i hu
      split at h
      · rename_i ht
        simp only [Except.ok.injEq, Prod.mk.injEq] at h
        obtain ⟨rfl, rfl⟩ := h
        obtain ⟨ds, rfl, hds⟩ := spellsUnit_of_readUnit hu
        obtain ⟨hc, hleading, htrailing⟩ := fromPair_spec hl ht
        rw [htrailing] at hds
        exact ⟨ds, rfl, hc, hleading, hds⟩
      · cases h
  · cases h

theorem spellsChar_of_readNumeric {c : Char} (h : readNumeric cs = .ok (c, rest)) :
    ∃ ds, cs = ds ++ rest ∧ SpellsChar c ('\\' :: 'u' :: ds) := by
  unfold readNumeric at h
  split at h
  · cases h
  · rename_i n after hu
    obtain ⟨ds, rfl, hds⟩ := spellsUnit_of_readUnit hu
    split at h
    · cases h
    · rename_i ht
      split at h
      · rename_i hl
        obtain ⟨trailing, rfl, hc, rfl, htrailing⟩ := spells_of_readTrailing hl h
        exact ⟨ds ++ '\\' :: 'u' :: trailing, by simp, .pair hc hds htrailing⟩
      · rename_i hl
        cases h
        have hnat := toNat_ofNat_of_unit hds.lt (by simpa using hl) (by simpa using ht)
        exact ⟨ds, rfl, .unit (hnat.symm ▸ hds)⟩

theorem spellsChar_of_readEscape {c : Char} (h : readEscape cs = .ok (c, rest)) :
    ∃ e, cs = e ++ rest ∧ SpellsChar c ('\\' :: e) := by
  unfold readEscape at h
  split at h
  · cases h
  · obtain ⟨ds, rfl, hds⟩ := spellsChar_of_readNumeric h
    exact ⟨'u' :: ds, rfl, hds⟩
  · rename_i e after _
    split at h
    · rename_i he
      cases h
      exact ⟨[e], rfl, .letter (mem_escapeLetters_of_letterEscape? he)⟩
    · cases h

theorem spellsText_of_readTextFrom {done text : List Char}
    (h : readTextFrom done cs = .ok (text, rest)) :
    ∃ chars body, text = done.reverse ++ chars ∧ cs = body ++ '"' :: rest ∧
      SpellsText chars body := by
  fun_induction readTextFrom done cs with
  | case1 => cases h
  | case2 =>
    cases h
    exact ⟨[], [], by simp, rfl, .nil⟩
  | case3 => cases h
  | case4 done cs c after he _ _ ih =>
    obtain ⟨e, rfl, hspells⟩ := spellsChar_of_readEscape he
    obtain ⟨chars, body, rfl, rfl, hbody⟩ := ih h
    exact ⟨c :: chars, '\\' :: e ++ body, by simp, by simp, .cons hspells hbody⟩
  | case5 => cases h
  | case6 done c cs hquote hbackslash hcontrol ih =>
    obtain ⟨chars, body, rfl, rfl, hbody⟩ := ih h
    have hplain : SpellsChar c [c] := .plain hquote hbackslash (Nat.not_lt.1 hcontrol)
    exact ⟨c :: chars, [c] ++ body, by simp, by simp, .cons hplain hbody⟩

/-- **The text of a string is read only from one of its spellings.** -/
theorem spellsText_of_readText {text : List Char} (h : readText cs = .ok (text, rest)) :
    ∃ body, cs = body ++ '"' :: rest ∧ SpellsText text body := by
  obtain ⟨chars, body, rfl, hcs, hbody⟩ := spellsText_of_readTextFrom h
  exact ⟨body, hcs, hbody⟩

theorem isTextBody_of_skipEscape (h : skipEscape cs = .ok rest) :
    ∃ e, cs = e ++ rest ∧ ∀ body, IsTextBody body → IsTextBody ('\\' :: (e ++ body)) := by
  unfold skipEscape at h
  split at h
  · cases h
  · split at h
    · cases h
    · rename_i hu
      cases h
      obtain ⟨ds, rfl, hds⟩ := spellsUnit_of_readUnit hu
      exact ⟨'u' :: ds, rfl, fun _ => .unit hds⟩
  · rename_i e after _
    split at h
    · rename_i he
      cases h
      have hletter : SpellsChar _ ['\\', e] := .letter (mem_escapeLetters_of_letterEscape? he)
      exact ⟨[e], rfl, fun _ => .char hletter⟩
    · cases h

/-- What is passed over as a string is the body of one. -/
theorem isTextBody_of_skipText (h : skipText cs = .ok rest) :
    ∃ body, cs = body ++ '"' :: rest ∧ IsTextBody body := by
  fun_induction skipText cs with
  | case1 => cases h
  | case2 =>
    cases h
    exact ⟨[], rfl, .nil⟩
  | case3 => cases h
  | case4 cs after he _ _ ih =>
    obtain ⟨e, rfl, hescape⟩ := isTextBody_of_skipEscape he
    obtain ⟨body, rfl, hbody⟩ := ih h
    exact ⟨'\\' :: (e ++ body), by simp, hescape body hbody⟩
  | case5 => cases h
  | case6 c cs hquote hbackslash hcontrol ih =>
    obtain ⟨body, rfl, hbody⟩ := ih h
    have hplain : SpellsChar c [c] := .plain hquote hbackslash (Nat.not_lt.1 hcontrol)
    exact ⟨[c] ++ body, by simp, .char hplain hbody⟩

/-! ### Numbers -/

theorem leadingDigits_afterDigits (cs : List Char) : leadingDigits cs ++ afterDigits cs = cs :=
  List.takeWhile_append_dropWhile

theorem isDigit_of_mem_leadingDigits {c : Char} (h : c ∈ leadingDigits cs) : c.isDigit = true :=
  List.mem_takeWhile_imp h

theorem isDigits_cons {d : Char} (hd : d.isDigit = true) (cs : List Char) :
    IsDigits (d :: leadingDigits cs) :=
  ⟨List.cons_ne_nil _ _, List.forall_mem_cons.2 ⟨hd, fun _ => isDigit_of_mem_leadingDigits⟩⟩

theorem exists_exponentSign (cs : List Char) :
    ∃ sign, cs = sign ++ (exponentSign cs).2 ∧ (sign = [] ∨ sign = ['+'] ∨ sign = ['-']) := by
  unfold exponentSign
  split
  · exact ⟨['+'], rfl, .inr (.inl rfl)⟩
  · exact ⟨['-'], rfl, .inr (.inr rfl)⟩
  · exact ⟨[], rfl, .inl rfl⟩

theorem isExponent_of_skipExponent {e : Char} (he : e = 'e' ∨ e = 'E')
    (h : skipExponent cs = .ok rest) :
    ∃ exponent, e :: cs = exponent ++ rest ∧ IsExponent exponent := by
  obtain ⟨sign, hcs, hs⟩ := exists_exponentSign cs
  unfold skipExponent at h
  split at h
  · cases h
  · rename_i d after hd
    rw [hd] at hcs
    split at h
    · rename_i hdigit
      cases h
      refine ⟨e :: (sign ++ d :: leadingDigits after), ?_, .letter he hs (isDigits_cons hdigit _)⟩
      rw [hcs]
      simp [leadingDigits_afterDigits]
    · cases h

theorem isExponent_of_skipExponent? (h : skipExponent? cs = .ok rest) :
    ∃ exponent, cs = exponent ++ rest ∧ IsExponent exponent := by
  unfold skipExponent? at h
  split at h
  · cases h
    exact ⟨[], rfl, .none⟩
  · split at h
    · rename_i he
      exact isExponent_of_skipExponent he h
    · cases h
      exact ⟨[], rfl, .none⟩

theorem isFraction_of_skipTail (h : skipTail cs = .ok rest) :
    ∃ fraction exponent, cs = fraction ++ (exponent ++ rest) ∧ IsFraction fraction ∧
      IsExponent exponent := by
  unfold skipTail at h
  split at h
  · rename_i after
    split at h
    · cases h
    · rename_i hd
      obtain ⟨exponent, hafter, he⟩ := isExponent_of_skipExponent? h
      have hdigits : IsDigits (leadingDigits after) :=
        ⟨by simpa using hd, fun _ => isDigit_of_mem_leadingDigits⟩
      refine ⟨'.' :: leadingDigits after, exponent, ?_, .point hdigits, he⟩
      rw [← hafter, List.cons_append, leadingDigits_afterDigits]
  · obtain ⟨exponent, rfl, he⟩ := isExponent_of_skipExponent? h
    exact ⟨[], exponent, rfl, .none, he⟩

theorem isWhole_of_skipNumber (h : skipNumber cs = .ok rest) :
    ∃ whole tail, cs = whole ++ tail ∧ IsWhole whole ∧ skipTail tail = .ok rest := by
  unfold skipNumber at h
  split at h
  · cases h
  · rename_i c after
    split at h
    · rename_i hzero
      split at h
      · exact ⟨['0'], after, by rw [hzero]; rfl, .zero, h⟩
      · cases h
    · rename_i hzero
      split at h
      · rename_i hd
        refine ⟨c :: leadingDigits after, afterDigits after, ?_,
          .digits hzero (isDigits_cons hd _), h⟩
        rw [List.cons_append, leadingDigits_afterDigits]
      · cases h

/-- What is passed over as a number is one. -/
theorem isNumber_of_skipNumber (h : skipNumber cs = .ok rest) {sign : List Char}
    (hs : sign = [] ∨ sign = ['-']) :
    ∃ number, sign ++ cs = number ++ rest ∧ IsNumber number := by
  obtain ⟨whole, tail, rfl, hw, htail⟩ := isWhole_of_skipNumber h
  obtain ⟨fraction, exponent, rfl, hf, he⟩ := isFraction_of_skipTail htail
  exact ⟨sign ++ (whole ++ (fraction ++ exponent)), by simp, .number hs hw hf he⟩

/-! ### Values -/

theorem eq_of_readLetters {ls : List Char} (h : readLetters ls cs = .ok rest) :
    cs = ls ++ rest := by
  fun_induction readLetters ls cs with
  | case1 =>
    cases h
    rfl
  | case2 => cases h
  | case3 _ _ _ ih => rw [List.cons_append, ih h]
  | case4 => cases h

theorem derives_of_skipScalar (h : skipScalar cs = .ok rest) :
    ∃ value, cs = value ++ rest ∧ Derives .value value := by
  unfold skipScalar at h
  split at h
  · exact ⟨['n', 'u', 'l', 'l'], congrArg _ (eq_of_readLetters h), .null⟩
  · exact ⟨['t', 'r', 'u', 'e'], congrArg _ (eq_of_readLetters h), .true⟩
  · exact ⟨['f', 'a', 'l', 's', 'e'], congrArg _ (eq_of_readLetters h), .false⟩
  · obtain ⟨body, rfl, hbody⟩ := isTextBody_of_skipText h
    exact ⟨'"' :: (body ++ ['"']), by simp, .text hbody⟩
  · obtain ⟨number, hcs, hn⟩ := isNumber_of_skipNumber h (.inr rfl)
    exact ⟨number, hcs, .number hn⟩
  · split at h
    · obtain ⟨number, hcs, hn⟩ := isNumber_of_skipNumber h (.inl rfl)
      exact ⟨number, hcs, .number hn⟩
    · cases h
  · cases h

theorem isName_of_skipKey (h : skipKey cs = .ok rest) :
    ∃ before name, cs = before ++ (name ++ rest) ∧ Blank before ∧ IsName .object name := by
  unfold skipKey at h
  split at h
  · cases h
  · rename_i hquote
    obtain ⟨before, rfl, hb⟩ := exists_blank_cons hquote
    split at h
    · rename_i hc
      subst hc
      split at h
      · cases h
      · rename_i ht
        obtain ⟨body, rfl, hbody⟩ := isTextBody_of_skipText ht
        split at h
        · cases h
        · rename_i hcolon
          obtain ⟨ws, rfl, hw⟩ := exists_blank_cons hcolon
          split at h
          · rename_i hc
            subst hc
            cases h
            exact ⟨before, '"' :: (body ++ '"' :: (ws ++ [':'])), by simp, hb, .object hbody hw⟩
          · cases h
    · cases h

theorem isName_of_skipMemberName {b : Bracket} (h : skipMemberName b cs = .ok rest) :
    ∃ before name, cs = before ++ (name ++ rest) ∧ Blank before ∧ IsName b name := by
  cases b with
  | list =>
    cases h
    exact ⟨[], [], rfl, blank_nil, .list⟩
  | object => exact isName_of_skipKey h

/-- What follows a complete value up to the end of all open brackets, the innermost first. -/
inductive Finishes : List Bracket → List Char → Prop
  | done : Finishes [] []
  | close {b : Bracket} {outer : List Bracket} {ws more : List Char} (hw : Blank ws)
      (ho : Finishes outer more) : Finishes (b :: outer) (ws ++ b.close :: more)
  | next {b : Bracket} {outer : List Bracket} {ws members more : List Char} (hw : Blank ws)
      (hm : Derives (.members b) members) (ho : Finishes outer more) :
      Finishes (b :: outer) (ws ++ ',' :: (members ++ b.close :: more))

/-- What was passed over from where something was due up to the end of all open brackets. -/
def Due.Covers : Due → List Bracket → List Char → Prop
  | complete, bs, used => Finishes bs used
  | opened, b :: outer, used => ∃ inner more, used = inner ++ b.close :: more ∧
      (Blank inner ∨ Derives (.members b) inner) ∧ Finishes outer more
  | _, bs, used => ∃ ws value more, used = ws ++ (value ++ more) ∧ Blank ws ∧
      Derives .value value ∧ Finishes bs more

/-- A member that is passed over, with what follows its value: the members of the bracket up to its
end, and what follows that. -/
theorem members_of_skipMemberName {b : Bracket} {outer : List Bracket} {ws used : List Char}
    (hw : Blank ws) (hm : skipMemberName b cs = .ok (used ++ rest))
    (hu : Due.value.Covers (b :: outer) used) :
    ∃ members last, ws ++ cs = members ++ b.close :: (last ++ rest) ∧
      Derives (.members b) members ∧ Finishes outer last := by
  obtain ⟨before, name, rfl, hb, hn⟩ := isName_of_skipMemberName hm
  obtain ⟨between, value, more, rfl, hbetween, hv, hmore⟩ := hu
  cases hmore with
  | @close _ _ after last ha ho =>
    exact ⟨(ws ++ before) ++ (name ++ (between ++ (value ++ after))), last, by simp,
      .last (hw.append hb) hn hbetween hv ha, ho⟩
  | @next _ _ after members last ha hms ho =>
    exact ⟨(ws ++ before) ++ (name ++ (between ++ (value ++ (after ++ ',' :: members)))), last,
      by simp, .next (hw.append hb) hn hbetween hv ha hms, ho⟩

/-- A bracket with what it holds is a value. -/
theorem covers_bracket {b : Bracket} {outer : List Bracket} {ws used : List Char} (hw : Blank ws)
    (hu : Due.opened.Covers (b :: outer) used) :
    Due.value.Covers outer (ws ++ b.opening :: used) := by
  obtain ⟨inner, more, rfl, hinner, hmore⟩ := hu
  refine ⟨ws, b.opening :: (inner ++ [b.close]), more, by simp, hw, ?_, hmore⟩
  rcases hinner with hblank | hmembers
  · exact .empty hblank
  · exact .filled hmembers

theorem covers_of_skipFrom {due : Due} {opened : List Bracket}
    (h : skipFrom due opened cs = .ok rest) :
    ∃ used, cs = used ++ rest ∧ due.Covers opened used := by
  fun_induction skipFrom due opened cs with
  | case1 =>
    cases h
    exact ⟨[], rfl, .done⟩
  | case2 => cases h
  | case3 cs b outer after hs hlt ih =>
    obtain ⟨ws, rfl, hw⟩ := exists_blank_cons hs
    obtain ⟨used, rfl, hused⟩ := ih h
    exact ⟨ws ++ b.close :: used, by simp, .close hw hused⟩
  | case4 => cases h
  | case5 cs b outer after value hm hle hs hlt hclose ih =>
    obtain ⟨ws, rfl, hw⟩ := exists_blank_cons hs
    obtain ⟨used, rfl, hused⟩ := ih h
    obtain ⟨members, last, rfl, hmembers, hlast⟩ := members_of_skipMemberName blank_nil hm hused
    exact ⟨ws ++ ',' :: (members ++ b.close :: last), by simp, .next hw hmembers hlast⟩
  | case6 => cases h
  | case7 cs ih => exact ih h
  | case8 => cases h
  | case9 cs b outer after hs hlt ih =>
    obtain ⟨ws, rfl, hw⟩ := exists_blank_cons hs
    obtain ⟨used, rfl, hused⟩ := ih h
    exact ⟨ws ++ b.close :: used, by simp, ws, used, rfl, .inl hw, hused⟩
  | case10 => cases h
  | case11 cs b outer c after hs hlt hclose value hm hle ih =>
    obtain ⟨ws, rfl, hw⟩ := exists_blank_cons hs
    obtain ⟨used, rfl, hused⟩ := ih h
    obtain ⟨members, last, hcs, hmembers, hlast⟩ := members_of_skipMemberName hw hm hused
    exact ⟨members ++ b.close :: last, by simp [hcs], members, last, rfl, .inr hmembers, hlast⟩
  | case12 => cases h
  | case13 cs opened after hs hlt ih =>
    obtain ⟨ws, rfl, hw⟩ := exists_blank_cons hs
    obtain ⟨used, rfl, hused⟩ := ih h
    exact ⟨ws ++ '[' :: used, by simp, covers_bracket hw hused⟩
  | case14 cs opened after hs hlt hlist ih =>
    obtain ⟨ws, rfl, hw⟩ := exists_blank_cons hs
    obtain ⟨used, rfl, hused⟩ := ih h
    exact ⟨ws ++ '\x7b' :: used, by simp, covers_bracket hw hused⟩
  | case15 => cases h
  | case16 cs opened c after hs hlt hlist hobject last hv hle ih =>
    obtain ⟨ws, rfl, hw⟩ := exists_blank_cons hs
    obtain ⟨value, hvalue, hd⟩ := derives_of_skipScalar hv
    obtain ⟨used, rfl, hused⟩ := ih h
    exact ⟨ws ++ (value ++ used), by simp [hvalue], ws, value, used, rfl, hw, hd, hused⟩

/-- **What is passed over as a value is derived by the grammar**, up to the white space before
it. -/
theorem derives_of_skipValue (h : skipValue cs = .ok rest) :
    ∃ ws value, cs = ws ++ (value ++ rest) ∧ Blank ws ∧ Derives .value value := by
  obtain ⟨used, rfl, ws, value, more, rfl, hw, hv, hmore⟩ := covers_of_skipFrom h
  cases hmore with
  | done => exact ⟨ws, value, by simp, hw, hv⟩

/-- The text that is taken as a value is derived by the grammar. -/
theorem derives_of_takeValue {value : List Char} (h : takeValue cs = .ok (value, rest)) :
    Derives .value value := by
  have happend := takeValue_append h
  unfold takeValue at h
  split at h
  · cases h
  · rename_i hs
    cases h
    obtain ⟨ws, taken, hskip, hw, hv⟩ := derives_of_skipValue hs
    -- no white space is left before the value
    have hnil : ws = [] := by
      cases ws with
      | nil => rfl
      | cons w ws =>
        have hspace : isSpace w = false := isSpace_of_skipSpace hskip
        rw [hw w (by simp)] at hspace
        cases hspace
    subst hnil
    have htaken := happend.trans hskip
    rw [List.nil_append, List.append_cancel_right_eq] at htaken
    rwa [htaken]

end ResumableUpload.Json
