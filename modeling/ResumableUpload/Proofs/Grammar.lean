import Mathlib.Data.List.DropRight
import ResumableUpload.Json.Skip

/-!
# JSON texts, and how they are passed over

What counts as a JSON value is said here without regard to any reader: `Derives` is the grammar of
values and of the members of a bracket, with white space between tokens. Strings are spelled
character by character, as themselves or by an escape (`SpellsText`); where the text of a string
does not matter, an escape may also be half of a pair (`IsTextBody`).

* `readText_spelled` : a string is read from each of its spellings.
* `IsNumber.skips` : numbers are passed over, whatever their size.
* `Derives.spells` : a derived value is passed over as a whole, at any depth.
-/

namespace ResumableUpload.Json

/-! ### White space -/

/-- White space that may stand between two tokens. -/
def Blank (cs : List Char) : Prop := ∀ c ∈ cs, isSpace c = true

theorem blank_nil : Blank [] := by simp [Blank]

/-- White space does not hide a character that is none. -/
theorem skipSpace_cons {c : Char} (h : isSpace c = false) (cs : List Char) :
    skipSpace (c :: cs) = c :: cs := by
  simp [skipSpace, h]

theorem skipSpace_blank {ws : List Char} (h : Blank ws) (cs : List Char) :
    skipSpace (ws ++ cs) = skipSpace cs :=
  List.dropWhile_append_of_pos h

theorem skipSpace_blank_cons {ws : List Char} (h : Blank ws) {c : Char} (hc : isSpace c = false)
    (cs : List Char) : skipSpace (ws ++ c :: cs) = c :: cs := by
  rw [skipSpace_blank h, skipSpace_cons hc]

/-! ### What follows a value -/

/-- No number goes on here. -/
def Delimited (rest : List Char) : Prop :=
  ∀ c ∈ rest.head?, c.isDigit = false ∧ c ≠ '.' ∧ c ≠ 'e' ∧ c ≠ 'E'

theorem delimited_comma (rest : List Char) : Delimited (',' :: rest) := by
  simp [Delimited]

theorem delimited_close (b : Bracket) (rest : List Char) : Delimited (b.close :: rest) := by
  cases b <;> simp [Delimited, Bracket.close]

theorem delimited_blank {ws rest : List Char} (h : Blank ws) (hr : Delimited rest) :
    Delimited (ws ++ rest) := by
  cases ws with
  | nil => exact hr
  | cons w ws =>
    intro c hc
    obtain rfl : w = c := by simpa using hc
    have hspace := h w (by simp)
    simp only [isSpace, Bool.or_eq_true, beq_iff_eq] at hspace
    rcases hspace with ((rfl | rfl) | rfl) | rfl <;> decide

/-! ### Strings -/

theorem hexValue?_hexDigit {n : Nat} (h : n < 16) : hexValue? (hexDigit n) = some n := by
  revert n
  decide

/-- A hexadecimal digit of either case. -/
def IsHexDigit (n : Nat) (c : Char) : Prop :=
  n < 16 ∧ (c = hexDigit n ∨ c = (hexDigit n).toUpper)

theorem hexValue?_of_isHexDigit {n : Nat} {c : Char} (h : IsHexDigit n c) :
    hexValue? c = some n := by
  have hupper : ∀ n < 16, hexValue? (hexDigit n).toUpper = some n := by decide
  obtain ⟨hn, rfl | rfl⟩ := h
  · exact hexValue?_hexDigit hn
  · exact hupper n hn

/-- Four hexadecimal digits. -/
inductive SpellsUnit : Nat → List Char → Prop
  | digits {a b c d : Nat} {w x y z : Char} (ha : IsHexDigit a w) (hb : IsHexDigit b x)
      (hc : IsHexDigit c y) (hd : IsHexDigit d z) :
      SpellsUnit (((a * 16 + b) * 16 + c) * 16 + d) [w, x, y, z]

theorem readUnit_append {n : Nat} {ds : List Char} (h : SpellsUnit n ds) (rest : List Char) :
    readUnit (ds ++ rest) = .ok (n, rest) := by
  cases h with
  | digits ha hb hc hd =>
    simp [readUnit, unit?, hexValue?_of_isHexDigit ha, hexValue?_of_isHexDigit hb,
      hexValue?_of_isHexDigit hc, hexValue?_of_isHexDigit hd]

/-- The letters that stand for a character after a backslash. -/
def escapeLetters : List (Char × Char) :=
  [('"', '"'), ('\\', '\\'), ('/', '/'), ('b', '\x08'), ('f', '\x0c'), ('n', '\n'), ('r', '\r'),
    ('t', '\t')]

/-- The spellings of a character inside a string. A character beyond the first 65536 is escaped by
the two halves of a pair. -/
inductive SpellsChar (c : Char) : List Char → Prop
  | plain (hquote : c ≠ '"') (hbackslash : c ≠ '\\') (hcontrol : 0x20 ≤ c.toNat) :
      SpellsChar c [c]
  | letter {e : Char} (he : (e, c) ∈ escapeLetters) : SpellsChar c ['\\', e]
  | unit {ds : List Char} (hd : SpellsUnit c.toNat ds) : SpellsChar c ('\\' :: 'u' :: ds)
  | pair {leading trailing : List Char} (hc : 0x10000 ≤ c.toNat)
      (hl : SpellsUnit (0xd800 + (c.toNat - 0x10000) / 0x400) leading)
      (ht : SpellsUnit (0xdc00 + (c.toNat - 0x10000) % 0x400) trailing) :
      SpellsChar c ('\\' :: 'u' :: (leading ++ '\\' :: 'u' :: trailing))

/-- The spellings of the characters of a string. -/
inductive SpellsText : List Char → List Char → Prop
  | nil : SpellsText [] []
  | cons {c : Char} {cs spelling body : List Char} (hc : SpellsChar c spelling)
      (hcs : SpellsText cs body) : SpellsText (c :: cs) (spelling ++ body)

/-- What may stand in a string whose text does not matter. -/
inductive IsTextBody : List Char → Prop
  | nil : IsTextBody []
  | char {c : Char} {spelling body : List Char} (hc : SpellsChar c spelling)
      (hb : IsTextBody body) : IsTextBody (spelling ++ body)
  /-- The number may be half of a pair without the other. -/
  | unit {n : Nat} {ds body : List Char} (hd : SpellsUnit n ds) (hb : IsTextBody body) :
      IsTextBody ('\\' :: 'u' :: (ds ++ body))

theorem SpellsText.isTextBody {cs body : List Char} (h : SpellsText cs body) :
    IsTextBody body := by
  induction h with
  | nil => exact .nil
  | cons hc _ ih => exact .char hc ih

/-- Most characters stand for themselves. -/
theorem SpellsText.plain {cs : List Char}
    (h : ∀ c ∈ cs, c ≠ '"' ∧ c ≠ '\\' ∧ 0x20 ≤ c.toNat) : SpellsText cs cs := by
  induction cs with
  | nil => exact .nil
  | cons c cs ih =>
    obtain ⟨⟨hquote, hbackslash, hcontrol⟩, hcs⟩ := List.forall_mem_cons.1 h
    exact .cons (.plain hquote hbackslash hcontrol) (ih hcs)

theorem letterEscape?_of_mem {e c : Char} (h : (e, c) ∈ escapeLetters) :
    letterEscape? e = some c := by
  simp only [escapeLetters, List.mem_cons, Prod.mk.injEq, List.not_mem_nil, or_false] at h
  rcases h with ⟨rfl, rfl⟩ | ⟨rfl, rfl⟩ | ⟨rfl, rfl⟩ | ⟨rfl, rfl⟩ | ⟨rfl, rfl⟩ | ⟨rfl, rfl⟩ |
    ⟨rfl, rfl⟩ | ⟨rfl, rfl⟩ <;> rfl

/-- What is written after a backslash stands for the character. -/
def Escapes (escape : List Char) (c : Char) : Prop :=
  ∀ cs, readEscape (escape ++ cs) = .ok (c, cs) ∧ skipEscape (escape ++ cs) = .ok cs

theorem escapes_letter {e c : Char} (h : letterEscape? e = some c) : Escapes [e] c := by
  have hu : e ≠ 'u' := by
    rintro rfl
    cases h
  intro cs
  constructor
  · simp [readEscape, h]
  · simp [skipEscape, h]

/-- No character is half of a pair. -/
theorem toNat_not_surrogate (c : Char) :
    isLeading c.toNat = false ∧ isTrailing c.toNat = false := by
  have hvalid : c.toNat < 0xd800 ∨ 0xdfff < c.toNat ∧ c.toNat < 0x110000 := c.valid
  simp only [isLeading, isTrailing, Bool.and_eq_false_iff, decide_eq_false_iff_not]
  omega

theorem readNumeric_unit {c : Char} {ds : List Char} (h : SpellsUnit c.toNat ds)
    (rest : List Char) : readNumeric (ds ++ rest) = .ok (c, rest) := by
  obtain ⟨hleading, htrailing⟩ := toNat_not_surrogate c
  simp [readNumeric, readUnit_append h, hleading, htrailing, Char.ofNat_toNat]

theorem readNumeric_pair {c : Char} {leading trailing : List Char} (hc : 0x10000 ≤ c.toNat)
    (hl : SpellsUnit (0xd800 + (c.toNat - 0x10000) / 0x400) leading)
    (ht : SpellsUnit (0xdc00 + (c.toNat - 0x10000) % 0x400) trailing) (rest : List Char) :
    readNumeric (leading ++ '\\' :: 'u' :: (trailing ++ rest)) = .ok (c, rest) := by
  have hvalid : c.toNat < 0xd800 ∨ 0xdfff < c.toNat ∧ c.toNat < 0x110000 := c.valid
  have hleading : isLeading (0xd800 + (c.toNat - 0x10000) / 0x400) = true := by
    simp only [isLeading, Bool.and_eq_true, decide_eq_true_eq]
    omega
  have hnot : isTrailing (0xd800 + (c.toNat - 0x10000) / 0x400) = false := by
    simp only [isTrailing, Bool.and_eq_false_iff, decide_eq_false_iff_not]
    omega
  have htrailing : isTrailing (0xdc00 + (c.toNat - 0x10000) % 0x400) = true := by
    simp only [isTrailing, Bool.and_eq_true, decide_eq_true_eq]
    omega
  have hpair : fromPair (0xd800 + (c.toNat - 0x10000) / 0x400)
      (0xdc00 + (c.toNat - 0x10000) % 0x400) = c := by
    have hnat : 0x10000 + (0xd800 + (c.toNat - 0x10000) / 0x400 - 0xd800) * 0x400 +
        (0xdc00 + (c.toNat - 0x10000) % 0x400 - 0xdc00) = c.toNat := by omega
    rw [fromPair, hnat, Char.ofNat_toNat]
  simp [readNumeric, readTrailing, readUnit_append hl, readUnit_append ht, hleading, hnot,
    htrailing, hpair]

theorem readTextFrom_of_readEscape {c : Char} {done cs rest : List Char}
    (h : readEscape cs = .ok (c, rest)) :
    readTextFrom done ('\\' :: cs) = readTextFrom (c :: done) rest := by
  rw [readTextFrom]
  simp only [Char.reduceEq, ↓reduceIte]
  split <;> simp_all

theorem skipText_of_skipEscape {cs rest : List Char} (h : skipEscape cs = .ok rest) :
    skipText ('\\' :: cs) = skipText rest := by
  rw [skipText]
  simp only [Char.reduceEq, ↓reduceIte]
  split <;> simp_all

theorem skipText_unit {n : Nat} {ds : List Char} (h : SpellsUnit n ds) (rest : List Char) :
    skipText ('\\' :: 'u' :: (ds ++ rest)) = skipText rest :=
  skipText_of_skipEscape (by simp [skipEscape, readUnit_append h])

/-- A character is read from each of its spellings. -/
theorem readTextFrom_char {c : Char} {spelling : List Char} (h : SpellsChar c spelling)
    (done rest : List Char) :
    readTextFrom done (spelling ++ rest) = readTextFrom (c :: done) rest := by
  cases h with
  | plain hquote hbackslash hcontrol =>
    rw [List.singleton_append, readTextFrom]
    simp only [hquote, hbackslash, Nat.not_lt.2 hcontrol, ↓reduceIte]
  | letter he =>
    obtain ⟨hread, -⟩ := escapes_letter (letterEscape?_of_mem he) rest
    exact readTextFrom_of_readEscape hread
  | unit hd => exact readTextFrom_of_readEscape (readNumeric_unit hd rest)
  | pair hc hl ht =>
    rw [List.cons_append, List.cons_append, List.append_assoc]
    exact readTextFrom_of_readEscape (readNumeric_pair hc hl ht rest)

theorem skipText_char {c : Char} {spelling : List Char} (h : SpellsChar c spelling)
    (rest : List Char) : skipText (spelling ++ rest) = skipText rest := by
  cases h with
  | plain hquote hbackslash hcontrol =>
    rw [List.singleton_append, skipText]
    simp only [hquote, hbackslash, Nat.not_lt.2 hcontrol, ↓reduceIte]
  | letter he =>
    obtain ⟨-, hskip⟩ := escapes_letter (letterEscape?_of_mem he) rest
    exact skipText_of_skipEscape hskip
  | unit hd => exact skipText_unit hd rest
  | pair hc hl ht =>
    rw [List.cons_append, List.cons_append, List.append_assoc, skipText_unit hl]
    exact skipText_unit ht rest

theorem readTextFrom_spelled {cs body : List Char} (h : SpellsText cs body)
    (done rest : List Char) :
    readTextFrom done (body ++ '"' :: rest) = .ok (done.reverse ++ cs, rest) := by
  induction h generalizing done with
  | nil => simp [readTextFrom]
  | cons hc _ ih =>
    rw [List.append_assoc, readTextFrom_char hc, ih]
    simp

/-- **A string is read from each of its spellings.** -/
theorem readText_spelled {cs body : List Char} (h : SpellsText cs body) (rest : List Char) :
    readText (body ++ '"' :: rest) = .ok (cs, rest) :=
  readTextFrom_spelled h [] rest

theorem skipText_body {body : List Char} (h : IsTextBody body) (rest : List Char) :
    skipText (body ++ '"' :: rest) = .ok rest := by
  induction h with
  | nil => simp [skipText]
  | char hc _ ih => rw [List.append_assoc, skipText_char hc, ih]
  | unit hd _ ih =>
    rw [List.cons_append, List.cons_append, List.append_assoc, skipText_unit hd, ih]

/-! ### Numbers -/

theorem ne_of_isDigit {c d : Char} (hc : c.isDigit = true) (hd : d.isDigit = false) : c ≠ d := by
  rintro rfl
  simp [hc] at hd

theorem isSpace_of_isDigit {c : Char} (hc : c.isDigit = true) : isSpace c = false := by
  cases hs : isSpace c with
  | false => rfl
  | true =>
    simp only [isSpace, Bool.or_eq_true, beq_iff_eq] at hs
    rcases hs with ((rfl | rfl) | rfl) | rfl <;> cases hc

/-- At least one digit. -/
def IsDigits (cs : List Char) : Prop := cs ≠ [] ∧ ∀ c ∈ cs, c.isDigit = true

/-- A character that is no digit is none of them. -/
theorem IsDigits.ne_of_mem {cs : List Char} (h : IsDigits cs) {c d : Char} (hc : c ∈ cs)
    (hd : d.isDigit = false) : c ≠ d := by
  rintro rfl
  simp [h.2 c hc] at hd

/-- The digits before the point, without leading zeros. -/
inductive IsWhole : List Char → Prop
  | zero : IsWhole ['0']
  | digits {d : Char} {ds : List Char} (hzero : d ≠ '0') (hd : IsDigits (d :: ds)) :
      IsWhole (d :: ds)

/-- The point and the digits after it, if they are there. -/
inductive IsFraction : List Char → Prop
  | none : IsFraction []
  | point {ds : List Char} (hd : IsDigits ds) : IsFraction ('.' :: ds)

/-- The exponent with its letter and its sign, if it is there. -/
inductive IsExponent : List Char → Prop
  | none : IsExponent []
  | letter {e : Char} {sign ds : List Char} (he : e = 'e' ∨ e = 'E')
      (hs : sign = [] ∨ sign = ['+'] ∨ sign = ['-']) (hd : IsDigits ds) :
      IsExponent (e :: (sign ++ ds))

/-- A number of any size and precision. -/
inductive IsNumber : List Char → Prop
  | number {sign whole fraction exponent : List Char} (hs : sign = [] ∨ sign = ['-'])
      (hw : IsWhole whole) (hf : IsFraction fraction) (he : IsExponent exponent) :
      IsNumber (sign ++ (whole ++ (fraction ++ exponent)))

/-- No digit goes on here. -/
def NoDigit (rest : List Char) : Prop := ∀ c ∈ rest.head?, c.isDigit = false

theorem Delimited.noDigit {rest : List Char} (h : Delimited rest) : NoDigit rest :=
  fun c hc => (h c hc).1

theorem noDigit_cons {c : Char} (h : c.isDigit = false) (rest : List Char) :
    NoDigit (c :: rest) := by
  simp [NoDigit, h]

section

variable {ds rest fraction exponent : List Char}

theorem leadingDigits_of_noDigit (h : NoDigit rest) : leadingDigits rest = [] := by
  cases rest with
  | nil => rfl
  | cons c cs => simp [leadingDigits, h c rfl]

theorem afterDigits_of_noDigit (hd : ∀ c ∈ ds, c.isDigit = true) (hr : NoDigit rest) :
    afterDigits (ds ++ rest) = rest := by
  rw [afterDigits, List.dropWhile_append_of_pos hd]
  cases rest with
  | nil => rfl
  | cons c cs => simp [hr c rfl]

theorem IsExponent.noDigit (h : IsExponent exponent) (hr : Delimited rest) :
    NoDigit (exponent ++ rest) := by
  cases h with
  | none => exact hr.noDigit
  | letter he => rcases he with rfl | rfl <;> exact noDigit_cons (by decide) _

theorem IsFraction.noDigit (h : IsFraction fraction) (he : IsExponent exponent)
    (hr : Delimited rest) : NoDigit (fraction ++ (exponent ++ rest)) := by
  cases h with
  | none => exact he.noDigit hr
  | point => exact noDigit_cons (by decide) _

/-- A digit is no sign. -/
theorem exponentSign_digit {d : Char} (hd : d.isDigit = true) {sign : List Char}
    (hs : sign = [] ∨ sign = ['+'] ∨ sign = ['-']) (cs : List Char) :
    (exponentSign (sign ++ d :: cs)).2 = d :: cs := by
  have hplus : d ≠ '+' := ne_of_isDigit hd (by decide)
  have hminus : d ≠ '-' := ne_of_isDigit hd (by decide)
  rcases hs with rfl | rfl | rfl
  · simp [exponentSign, hplus, hminus]
  · rfl
  · rfl

theorem skipExponent_digits {sign : List Char} (hs : sign = [] ∨ sign = ['+'] ∨ sign = ['-'])
    (hd : IsDigits ds) (hr : NoDigit rest) : skipExponent (sign ++ (ds ++ rest)) = .ok rest := by
  obtain ⟨hne, hall⟩ := hd
  obtain ⟨d, ds, rfl⟩ := List.exists_cons_of_ne_nil hne
  obtain ⟨hd, hds⟩ := List.forall_mem_cons.1 hall
  rw [skipExponent, List.cons_append, exponentSign_digit hd hs]
  simp only [hd, afterDigits_of_noDigit hds hr, ↓reduceIte]

theorem IsExponent.skips (h : IsExponent exponent) (hr : Delimited rest) :
    skipExponent? (exponent ++ rest) = .ok rest := by
  cases h with
  | none =>
    cases rest with
    | nil => rfl
    | cons c cs =>
      obtain ⟨-, -, he, hE⟩ := hr c rfl
      simp [skipExponent?, he, hE]
  | letter he hs hd =>
    rw [List.cons_append, List.append_assoc, skipExponent?, if_pos he]
    exact skipExponent_digits hs hd hr.noDigit

theorem IsFraction.skips (h : IsFraction fraction) (he : IsExponent exponent)
    (hr : Delimited rest) : skipTail (fraction ++ (exponent ++ rest)) = .ok rest := by
  have hexponent := he.skips hr
  cases h with
  | none =>
    rw [List.nil_append]
    unfold skipTail
    split
    -- neither an exponent nor what follows it begins with a point
    · rename_i cs heq
      cases he with
      | none => exact absurd rfl (hr '.' (by simp_all)).2.1
      | letter he => rcases he with rfl | rfl <;> simp at heq
    · exact hexponent
  | point hd =>
    obtain ⟨hne, hall⟩ := hd
    rw [List.cons_append, skipTail, afterDigits_of_noDigit hall (he.noDigit hr), hexponent]
    obtain ⟨d, ds, rfl⟩ := List.exists_cons_of_ne_nil hne
    simp [leadingDigits, hall d (by simp)]

theorem IsWhole.skips {whole : List Char} (h : IsWhole whole) (hf : IsFraction fraction)
    (he : IsExponent exponent) (hr : Delimited rest) :
    skipNumber (whole ++ (fraction ++ (exponent ++ rest))) = .ok rest := by
  have htail := hf.skips he hr
  have hnone := hf.noDigit he hr
  cases h with
  | zero => simp [skipNumber, leadingDigits_of_noDigit hnone, htail]
  | digits hzero hd =>
    obtain ⟨hd, hds⟩ := List.forall_mem_cons.1 hd.2
    rw [List.cons_append, skipNumber]
    simp only [hzero, hd, afterDigits_of_noDigit hds hnone, htail, ↓reduceIte]

end

theorem IsWhole.head {whole : List Char} (h : IsWhole whole) :
    ∃ d ds, whole = d :: ds ∧ d.isDigit = true := by
  cases h with
  | zero => exact ⟨'0', [], rfl, by decide⟩
  | digits hzero hd => exact ⟨_, _, rfl, hd.2 _ (by simp)⟩

/-- A number is passed over, whatever its size. -/
theorem IsNumber.skips {cs rest : List Char} (h : IsNumber cs) (hr : Delimited rest) :
    skipScalar (cs ++ rest) = .ok rest := by
  cases h with
  | number hs hw hf he =>
    have hskip := hw.skips hf he hr
    rcases hs with rfl | rfl
    · obtain ⟨d, ds, rfl, hd⟩ := hw.head
      simp only [List.nil_append, List.append_assoc, List.cons_append] at hskip ⊢
      simpa [skipScalar, ne_of_isDigit hd, hd] using hskip
    · simpa [skipScalar] using hskip

theorem IsNumber.head {cs : List Char} (h : IsNumber cs) :
    ∃ c tail, cs = c :: tail ∧ (c = '-' ∨ c.isDigit = true) := by
  cases h with
  | number hs hw hf he =>
    rcases hs with rfl | rfl
    · obtain ⟨d, ds, rfl, hd⟩ := hw.head
      exact ⟨d, _, rfl, .inr hd⟩
    · exact ⟨'-', _, rfl, .inl rfl⟩

/-! ### Values -/

/-- The character that opens a bracket. -/
def Bracket.opening : Bracket → Char
  | list => '['
  | object => '\x7b'

/-- What stands before the value of a member: in an object a key and a colon. -/
inductive IsName : Bracket → List Char → Prop
  | list : IsName .list []
  | object {body ws : List Char} (hb : IsTextBody body) (hw : Blank ws) :
      IsName .object ('"' :: (body ++ '"' :: (ws ++ [':'])))

/-- What a text may be derived as. -/
inductive Part
  | value
  /-- The members of a bracket, of which there is at least one. -/
  | members (b : Bracket)

/-- The grammar of JSON values. -/
inductive Derives : Part → List Char → Prop
  | null : Derives .value ['n', 'u', 'l', 'l']
  | true : Derives .value ['t', 'r', 'u', 'e']
  | false : Derives .value ['f', 'a', 'l', 's', 'e']
  | number {cs : List Char} (hn : IsNumber cs) : Derives .value cs
  | text {body : List Char} (hb : IsTextBody body) : Derives .value ('"' :: (body ++ ['"']))
  | empty {b : Bracket} {ws : List Char} (hw : Blank ws) :
      Derives .value (b.opening :: (ws ++ [b.close]))
  | filled {b : Bracket} {cs : List Char} (hm : Derives (.members b) cs) :
      Derives .value (b.opening :: (cs ++ [b.close]))
  | last {b : Bracket} {before name between cs after : List Char} (hb : Blank before)
      (hn : IsName b name) (hw : Blank between) (hv : Derives .value cs) (ha : Blank after) :
      Derives (.members b) (before ++ (name ++ (between ++ (cs ++ after))))
  | next {b : Bracket} {before name between cs after rest : List Char} (hb : Blank before)
      (hn : IsName b name) (hw : Blank between) (hv : Derives .value cs) (ha : Blank after)
      (hr : Derives (.members b) rest) :
      Derives (.members b) (before ++ (name ++ (between ++ (cs ++ (after ++ ',' :: rest)))))

/-! ### Values are passed over -/

theorem readLetters_append (ls rest : List Char) : readLetters ls (ls ++ rest) = .ok rest := by
  induction ls with
  | nil => rfl
  | cons l ls ih => simpa [readLetters] using ih

/-- The text is passed over as one value, whatever is open around it. -/
def Spells (cs : List Char) : Prop :=
  ∀ opened rest, Delimited rest →
    skipFrom .value opened (cs ++ rest) = skipFrom .complete opened rest

theorem skipFrom_of_skipScalar {c : Char} {cs rest : List Char} (hspace : isSpace c = false)
    (hlist : c ≠ '[') (hobject : c ≠ '\x7b') (h : skipScalar (c :: cs) = .ok rest)
    (opened : List Bracket) :
    skipFrom .value opened (c :: cs) = skipFrom .complete opened rest := by
  have hskip := skipSpace_cons hspace cs
  rw [skipFrom]
  split
  · simp_all
  · rename_i hs
    rw [hskip] at hs
    cases hs
    simp only [hlist, hobject, ↓reduceIte]
    split
    · simp_all
    · simp_all

theorem spells_of_skipScalar {c : Char} {cs : List Char} (hspace : isSpace c = false)
    (hlist : c ≠ '[') (hobject : c ≠ '\x7b')
    (h : ∀ rest, Delimited rest → skipScalar (c :: (cs ++ rest)) = .ok rest) :
    Spells (c :: cs) := by
  intro opened rest hr
  exact skipFrom_of_skipScalar hspace hlist hobject (h rest hr) opened

section Brackets

variable {b : Bracket} {outer : List Bracket} {cs rest after : List Char}

theorem skipFrom_close (h : skipSpace cs = b.close :: rest) :
    skipFrom .complete (b :: outer) cs = skipFrom .complete outer rest := by
  rw [skipFrom]
  split
  · simp_all
  · rename_i hs
    rw [h] at hs
    cases hs
    simp only [↓reduceIte]

theorem skipFrom_next (h : skipSpace cs = ',' :: rest) (hm : skipMemberName b rest = .ok after) :
    skipFrom .complete (b :: outer) cs = skipFrom .value (b :: outer) after := by
  have hclose : ',' ≠ b.close := by cases b <;> decide
  rw [skipFrom]
  split
  · simp_all
  · rename_i hs
    rw [h] at hs
    cases hs
    simp only [hclose, ↓reduceIte]
    split <;> simp_all

theorem skipFrom_empty (h : skipSpace cs = b.close :: rest) :
    skipFrom .opened (b :: outer) cs = skipFrom .complete outer rest := by
  rw [skipFrom]
  split
  · simp_all
  · rename_i hs
    rw [h] at hs
    cases hs
    simp only [↓reduceIte]

theorem skipFrom_first {c : Char} (h : skipSpace cs = c :: rest) (hc : c ≠ b.close)
    (hm : skipMemberName b (c :: rest) = .ok after) :
    skipFrom .opened (b :: outer) cs = skipFrom .value (b :: outer) after := by
  rw [skipFrom]
  split
  · simp_all
  · rename_i hs
    rw [h] at hs
    cases hs
    simp only [hc, ↓reduceIte]
    split <;> simp_all

end Brackets

theorem skipFrom_value_congr {cs ds : List Char} (h : skipSpace cs = skipSpace ds)
    (opened : List Bracket) : skipFrom .value opened cs = skipFrom .value opened ds := by
  rw [skipFrom, skipFrom]
  dsimp only
  rw [h]

theorem skipFrom_complete_congr {cs ds : List Char} (h : skipSpace cs = skipSpace ds)
    (b : Bracket) (outer : List Bracket) :
    skipFrom .complete (b :: outer) cs = skipFrom .complete (b :: outer) ds := by
  rw [skipFrom, skipFrom]
  dsimp only
  rw [h]

theorem skipFrom_bracket (b : Bracket) (opened : List Bracket) (rest : List Char) :
    skipFrom .value opened (b.opening :: rest) = skipFrom .opened (b :: opened) rest := by
  have hskip : skipSpace (b.opening :: rest) = b.opening :: rest :=
    skipSpace_cons (by cases b <;> decide) rest
  conv => lhs; rw [skipFrom]
  split
  · simp_all
  · rename_i hs
    rw [hskip] at hs
    cases hs
    cases b <;> simp [Bracket.opening]

section Members

variable {b : Bracket} {before name between cs after rest : List Char}

/-- A name is passed over, with the white space before it. -/
theorem skipMemberName_name (hn : IsName b name) (hb : Blank before) (rest : List Char) :
    ∃ last, skipMemberName b (before ++ (name ++ rest)) = .ok last ∧
      skipSpace last = skipSpace rest := by
  cases hn with
  | list => exact ⟨_, rfl, skipSpace_blank hb _⟩
  | @object body ws hbody hws =>
    refine ⟨rest, ?_, rfl⟩
    have hkey : '"' :: (body ++ '"' :: (ws ++ [':'])) ++ rest =
        '"' :: (body ++ '"' :: (ws ++ ':' :: rest)) := by simp
    have hcolon : skipSpace (ws ++ ':' :: rest) = ':' :: rest :=
      skipSpace_blank_cons hws (by decide) rest
    rw [hkey, skipMemberName, skipKey, skipSpace_blank_cons hb (by decide)]
    simp only [↓reduceIte, skipText_body hbody, hcolon]

/-- A comma and a name lead to the value. -/
theorem skipFrom_comma_name (hn : IsName b name) (hb : Blank before) (opened : List Bracket)
    (rest : List Char) :
    skipFrom .complete (b :: opened) (',' :: (before ++ (name ++ rest))) =
      skipFrom .value (b :: opened) rest := by
  obtain ⟨last, hname, hlast⟩ := skipMemberName_name hn hb rest
  rw [skipFrom_next (skipSpace_cons (by decide) _) hname, skipFrom_value_congr hlast]

/-- A name right after the bracket leads to the value. In a list the value itself tells that the
bracket is not closed. -/
theorem skipFrom_opened_name (hn : IsName b name) (hb : Blank before) (opened : List Bracket)
    {c : Char} {tail : List Char} (hrest : skipSpace rest = c :: tail) (hc : c ≠ ']') :
    skipFrom .opened (b :: opened) (before ++ (name ++ rest)) =
      skipFrom .value (b :: opened) rest := by
  cases hn with
  | list =>
    have hskip : skipSpace (before ++ ([] ++ rest)) = c :: tail :=
      (skipSpace_blank hb _).trans hrest
    have hspace : skipSpace (c :: tail) = skipSpace rest := by
      rw [← hrest]
      exact List.dropWhile_idempotent _ _
    rw [skipFrom_first (b := .list) hskip hc rfl, skipFrom_value_congr hspace]
  | @object body ws hbody hws =>
    obtain ⟨last, hname, hlast⟩ := skipMemberName_name (.object hbody hws) blank_nil rest
    have hskip := skipSpace_blank_cons hb (c := '"') (by decide)
      (body ++ '"' :: (ws ++ [':']) ++ rest)
    rw [List.nil_append, List.cons_append] at hname
    rw [List.cons_append, skipFrom_first hskip (by decide) hname, skipFrom_value_congr hlast]

/-- A member is passed over, up to what follows it. -/
theorem skipFrom_member (hw : Blank between) (hv : Spells cs) (ha : Blank after)
    (hr : Delimited rest) (opened : List Bracket) :
    skipFrom .value (b :: opened) (between ++ (cs ++ (after ++ rest))) =
      skipFrom .complete (b :: opened) rest := by
  rw [skipFrom_value_congr (skipSpace_blank hw _), hv _ _ (delimited_blank ha hr),
    skipFrom_complete_congr (skipSpace_blank ha _)]

end Members

/-- What the derivation of a part says about a text that goes on after it. -/
def Part.Passed : Part → List Char → Prop
  | value, cs => Spells cs ∧ ∃ c tail, cs = c :: tail ∧ isSpace c = false ∧ c ≠ ']'
  | members b, cs => ∀ opened rest,
    skipFrom .opened (b :: opened) (cs ++ b.close :: rest) = skipFrom .complete opened rest ∧
      skipFrom .complete (b :: opened) (',' :: (cs ++ b.close :: rest)) =
        skipFrom .complete opened rest

theorem Part.passed_scalar {c : Char} {cs : List Char} (hspace : isSpace c = false)
    (hlist : c ≠ '[') (hobject : c ≠ '\x7b') (hclose : c ≠ ']')
    (h : ∀ rest, Delimited rest → skipScalar (c :: (cs ++ rest)) = .ok rest) :
    Part.value.Passed (c :: cs) :=
  ⟨spells_of_skipScalar hspace hlist hobject h, c, cs, rfl, hspace, hclose⟩

theorem Bracket.isSpace_close (b : Bracket) : isSpace b.close = false := by cases b <;> decide

/-- The derivation of members, whether they come right after the bracket or after a comma, leads to
what follows the first of them. -/
theorem Part.passed_members {b : Bracket} {before name between cs after more : List Char}
    (hb : Blank before) (hn : IsName b name) (hw : Blank between) (hv : Part.value.Passed cs)
    (ha : Blank after)
    (hmore : ∀ opened rest, Delimited (more ++ b.close :: rest) ∧
      skipFrom .complete (b :: opened) (more ++ b.close :: rest) =
        skipFrom .complete opened rest) :
    (Part.members b).Passed (before ++ (name ++ (between ++ (cs ++ (after ++ more))))) := by
  intro opened rest
  obtain ⟨hspells, c, tail, rfl, hspace, hclose⟩ := hv
  obtain ⟨hdelimited, hrest⟩ := hmore opened rest
  have hvalue := skipFrom_member (b := b) hw hspells ha hdelimited opened
  have hhead : skipSpace (between ++ (c :: tail ++ (after ++ (more ++ b.close :: rest)))) =
      c :: (tail ++ (after ++ (more ++ b.close :: rest))) :=
    skipSpace_blank_cons hw hspace _
  simp only [List.append_assoc]
  constructor
  · rw [skipFrom_opened_name hn hb opened hhead hclose, hvalue, hrest]
  · rw [skipFrom_comma_name hn hb, hvalue, hrest]

theorem Derives.passed {part : Part} {cs : List Char} (h : Derives part cs) :
    part.Passed cs := by
  induction h with
  | null =>
    exact Part.passed_scalar (by decide) (by decide) (by decide) (by decide) fun rest _ =>
      readLetters_append ['u', 'l', 'l'] rest
  | true =>
    exact Part.passed_scalar (by decide) (by decide) (by decide) (by decide) fun rest _ =>
      readLetters_append ['r', 'u', 'e'] rest
  | false =>
    exact Part.passed_scalar (by decide) (by decide) (by decide) (by decide) fun rest _ =>
      readLetters_append ['a', 'l', 's', 'e'] rest
  | number hn =>
    obtain ⟨c, tail, rfl, hc⟩ := hn.head
    have hskip : ∀ rest, Delimited rest → skipScalar (c :: tail ++ rest) = .ok rest :=
      fun _ hr => hn.skips hr
    rcases hc with rfl | hc
    · exact Part.passed_scalar (by decide) (by decide) (by decide) (by decide) hskip
    · exact Part.passed_scalar (isSpace_of_isDigit hc) (ne_of_isDigit hc (by decide))
        (ne_of_isDigit hc (by decide)) (ne_of_isDigit hc (by decide)) hskip
  | text hb =>
    refine Part.passed_scalar (by decide) (by decide) (by decide) (by decide) fun rest _ => ?_
    rw [List.append_assoc]
    exact skipText_body hb rest
  | @empty b ws hw =>
    refine ⟨fun opened rest _ => ?_, b.opening, _, rfl, by cases b <;> decide,
      by cases b <;> decide⟩
    have hclose := skipSpace_blank_cons hw b.isSpace_close rest
    rw [List.cons_append, List.append_assoc, skipFrom_bracket]
    exact skipFrom_empty hclose
  | @filled b cs _ ih =>
    refine ⟨fun opened rest _ => ?_, b.opening, _, rfl, by cases b <;> decide,
      by cases b <;> decide⟩
    rw [List.cons_append, List.append_assoc, skipFrom_bracket]
    exact (ih opened rest).1
  | @last b before name between cs after hb hn hw _ ha ihv =>
    have hpassed : (Part.members b).Passed
        (before ++ (name ++ (between ++ (cs ++ (after ++ []))))) :=
      Part.passed_members hb hn hw ihv ha fun opened rest =>
        ⟨delimited_close b rest, skipFrom_close (skipSpace_cons b.isSpace_close rest)⟩
    rwa [List.append_nil] at hpassed
  | next hb hn hw _ ha _ ihv ihr =>
    exact Part.passed_members hb hn hw ihv ha fun opened rest =>
      ⟨delimited_comma _, (ihr opened rest).2⟩

/-- **A derived value is passed over as a whole**, whatever its type, depth and size. -/
theorem Derives.spells {cs : List Char} (h : Derives .value cs) : Spells cs := h.passed.1

end ResumableUpload.Json
