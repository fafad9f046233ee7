import Mathlib.Tactic.SplitIfs
import ResumableUpload.Json.Form
import ResumableUpload.Proofs.Grammar

/-!
# Values written in JSON are read back

A value is written without regard to what comes after it, and read without regard to what came
before. The two agree wherever the text goes on with something that is no part of a number
(`Delimited`): then a field reads exactly what was written (`Slot.Reads`).

* `spellsText_writeChar`, `isNumber_renderInt` : what is written for a string or an integer is
  derived by the grammar.
* `readNumber_toDigits` : numbers are read as integers up to the words of 64 bits.
* `Slot.reads_text`, `Slot.reads_flag`, `Slot.reads_int`, `Slot.reads_tag`, `Slot.reads_raw` : what
  the fields of a record hold.
-/

namespace ResumableUpload.Json

/-! ### Strings -/

theorem spellsChar_writeChar (c : Char) : SpellsChar c (writeChar c) := by
  unfold writeChar
  split_ifs with hquote hbackslash hb hf hn hr ht hcontrol
  · exact .letter (by simp [hquote, escapeLetters])
  · exact .letter (by simp [hbackslash, escapeLetters])
  · exact .letter (by simp [hb, escapeLetters])
  · exact .letter (by simp [hf, escapeLetters])
  · exact .letter (by simp [hn, escapeLetters])
  · exact .letter (by simp [hr, escapeLetters])
  · exact .letter (by simp [ht, escapeLetters])
  · have hzero : IsHexDigit 0 '0' := ⟨by decide, .inl rfl⟩
    have hhigh : IsHexDigit (c.toNat / 16) (hexDigit (c.toNat / 16)) := ⟨by omega, .inl rfl⟩
    have hlow : IsHexDigit (c.toNat % 16) (hexDigit (c.toNat % 16)) := ⟨by omega, .inl rfl⟩
    have hunit := SpellsUnit.digits hzero hzero hhigh hlow
    have hvalue : ((0 * 16 + 0) * 16 + c.toNat / 16) * 16 + c.toNat % 16 = c.toNat := by omega
    rw [hvalue] at hunit
    exact .unit hunit
  · exact .plain hquote hbackslash (Nat.not_lt.1 hcontrol)

theorem spellsText_writeChar (cs : List Char) : SpellsText cs (cs.flatMap writeChar) := by
  induction cs with
  | nil => exact .nil
  | cons c cs ih => exact .cons (spellsChar_writeChar c) ih

theorem readText_written (cs rest : List Char) :
    readText (cs.flatMap writeChar ++ '"' :: rest) = .ok (cs, rest) :=
  readText_spelled (spellsText_writeChar cs) rest

theorem quoteText_append (cs rest : List Char) :
    quoteText cs ++ rest = '"' :: (cs.flatMap writeChar ++ '"' :: rest) := by
  simp [quoteText]

/-! ### Numbers -/

theorem leadingDigits_append {ds rest : List Char} (hd : ∀ c ∈ ds, c.isDigit = true)
    (hr : NoDigit rest) : leadingDigits (ds ++ rest) = ds := by
  have hnil := leadingDigits_of_noDigit hr
  rw [leadingDigits] at hnil ⊢
  rw [List.takeWhile_append_of_pos hd, hnil, List.append_nil]

theorem isDigit_of_mem_toDigits {n : Nat} : ∀ c ∈ Nat.toDigits 10 n, c.isDigit = true :=
  fun _ => Nat.isDigit_of_mem_toDigits (by decide) (by decide)

theorem digitChar_ne_zero {n : Nat} (h : 0 < n) (hn : n < 10) : n.digitChar ≠ '0' := by
  have hall : ∀ n < 10, 0 < n → n.digitChar ≠ '0' := by decide
  exact hall n hn h

/-- A number other than zero is written without leading zeros. -/
theorem toDigits_eq_cons {n : Nat} (h : 0 < n) :
    ∃ d ds, Nat.toDigits 10 n = d :: ds ∧ d ≠ '0' := by
  induction n using Nat.strongRecOn with
  | ind n ih =>
    by_cases hn : n < 10
    · exact ⟨n.digitChar, [], Nat.toDigits_of_lt_base hn, digitChar_ne_zero h hn⟩
    · obtain ⟨d, ds, hds, hd⟩ := ih (n / 10) (by omega) (by omega)
      refine ⟨d, ds ++ [(n % 10).digitChar], ?_, hd⟩
      rw [Nat.toDigits_of_base_le (by decide) (by omega), hds, List.cons_append]

theorem isNumber_renderInt (n : Int) : IsNumber (renderInt n) := by
  have hwhole : IsWhole (Nat.toDigits 10 n.natAbs) := by
    rcases Nat.eq_zero_or_pos n.natAbs with hn | hn
    · rw [hn]
      exact .zero
    · obtain ⟨d, ds, hds, hd⟩ := toDigits_eq_cons hn
      rw [hds]
      refine .digits hd ⟨List.cons_ne_nil d ds, ?_⟩
      rw [← hds]
      exact isDigit_of_mem_toDigits
  have hnumber {sign : List Char} (hs : sign = [] ∨ sign = ['-']) :
      IsNumber (sign ++ Nat.toDigits 10 n.natAbs) := by
    simpa using IsNumber.number hs hwhole .none .none
  rw [renderInt]
  split
  · exact hnumber (.inr rfl)
  · exact hnumber (.inl rfl)

theorem le_ofDigitChars (ds : List Char) (n : Nat) : n ≤ Nat.ofDigitChars 10 ds n := by
  induction ds generalizing n with
  | nil => simp
  | cons d ds ih =>
    rw [Nat.ofDigitChars_cons]
    exact Nat.le_trans (by omega) (ih _)

/-- No digit is dropped from a number that is a word of 64 bits. -/
theorem absorb_eq {ds : List Char} {n : Nat} (taken : Nat)
    (h : Nat.ofDigitChars 10 ds n < UInt64.size) :
    absorb n taken ds = (Nat.ofDigitChars 10 ds n, taken + ds.length, 0) := by
  induction ds generalizing n taken with
  | nil => simp [absorb]
  | cons d ds ih =>
    have hnext : n * 10 + digitValue d = 10 * n + (d.toNat - '0'.toNat) := by
      rw [Nat.mul_comm, digitValue]
    rw [Nat.ofDigitChars_cons, ← hnext] at h ⊢
    have hlt : n * 10 + digitValue d < UInt64.size := Nat.lt_of_le_of_lt (le_ofDigitChars ds _) h
    simp only [absorb, hlt, ↓reduceIte]
    rw [ih (taken + 1) h, List.length_cons, Nat.add_assoc, Nat.add_comm 1]

theorem readTail_delimited (negative : Bool) (n : Nat) {rest : List Char} (hr : Delimited rest) :
    readTail negative n 0 rest = .ok (makeInteger negative n, rest) := by
  cases rest with
  | nil => simp [readTail]
  | cons c cs =>
    obtain ⟨-, hpoint, he, hE⟩ := hr c rfl
    simp [readTail, he, hE]

theorem readNumber_toDigits {n : Nat} (hn : n < UInt64.size) (negative : Bool)
    {rest : List Char} (hr : Delimited rest) :
    readNumber negative (Nat.toDigits 10 n ++ rest) = .ok (makeInteger negative n, rest) := by
  rcases Nat.eq_zero_or_pos n with rfl | hpos
  · simp [readNumber, leadingDigits_of_noDigit hr.noDigit, readTail_delimited negative 0 hr]
  · obtain ⟨d, ds, hds, hd⟩ := toDigits_eq_cons hpos
    have hdigits := isDigit_of_mem_toDigits (n := n)
    have hvalue : Nat.ofDigitChars 10 (Nat.toDigits 10 n) 0 = n := Nat.ofDigitChars_ten_toDigits
    rw [hds] at hdigits hvalue ⊢
    have habsorb := absorb_eq 0 (by rwa [hvalue])
    have hlead := leadingDigits_append hdigits hr.noDigit
    have hafter := afterDigits_of_noDigit hdigits hr.noDigit
    rw [List.cons_append] at hlead hafter ⊢
    simp only [readNumber, hd, hdigits d (by simp), hlead, hafter, habsorb, hvalue, ↓reduceIte]
    exact readTail_delimited negative n hr

/-! ### What the fields of a record hold -/

/-- A field of this kind reads a value back from what is written for it. -/
def Slot.Reads (slot : Slot) (v : Value) : Prop :=
  ∀ rest, Delimited rest → readSlot slot (v.render ++ rest) = .ok (v, rest)

theorem takeValue_append_of_spells {c : Char} {cs rest : List Char} (h : Spells (c :: cs))
    (hspace : isSpace c = false) (hr : Delimited rest) :
    takeValue (c :: cs ++ rest) = .ok (c :: cs, rest) := by
  have hskip : skipSpace (c :: cs ++ rest) = c :: cs ++ rest := skipSpace_cons hspace _
  have hvalue : skipValue (c :: cs ++ rest) = .ok rest := by
    rw [skipValue, h [] rest hr, skipFrom]
  have hlength : (c :: cs ++ rest).length - rest.length = (c :: cs).length := by
    rw [List.length_append, Nat.add_sub_cancel]
  simp only [takeValue, hskip, hvalue, hlength, List.take_left]

namespace Slot

theorem reads_text (s : String) : text.Reads (.text s) := by
  intro rest _
  have hread := readText_written s.toList rest
  rw [Value.render, quoteText_append]
  simp [readSlot, readString, skipSpace_cons, isSpace, hread, Except.map]

theorem reads_flag (b : Bool) : flag.Reads (.flag b) := by
  intro rest _
  cases b with
  | false =>
    have hread : readLetters ['a', 'l', 's', 'e'] ('a' :: 'l' :: 's' :: 'e' :: rest) = .ok rest :=
      readLetters_append ['a', 'l', 's', 'e'] rest
    simp [readSlot, readFlag, Value.render, skipSpace_cons, isSpace, hread, Except.map]
  | true =>
    have hread : readLetters ['r', 'u', 'e'] ('r' :: 'u' :: 'e' :: rest) = .ok rest :=
      readLetters_append ['r', 'u', 'e'] rest
    simp [readSlot, readFlag, Value.render, skipSpace_cons, isSpace, hread, Except.map]

theorem reads_tag {names : List String} {s : String} (h : s ∈ names) :
    (tag names).Reads (.text s) := by
  intro rest _
  have hread := readText_written s.toList rest
  rw [Value.render, quoteText_append]
  simp [readSlot, readTag, readName, skipSpace_cons, isSpace, hread, h, Except.map]

theorem reads_raw {c : Char} {cs : List Char} (h : Spells (c :: cs)) (hspace : isSpace c = false)
    (hnull : c ≠ 'n') : rawOrNull.Reads (.raw (String.ofList (c :: cs))) := by
  intro rest hr
  have htake := takeValue_append_of_spells h hspace hr
  have hskip : skipSpace (c :: cs ++ rest) = c :: cs ++ rest := skipSpace_cons hspace _
  rw [Value.render, String.toList_ofList]
  simp only [readSlot, hskip]
  split
  · simp_all
  · rw [htake]
    rfl

end Slot

theorem toDigits_eq_digit_cons (n : Nat) :
    ∃ d ds, Nat.toDigits 10 n = d :: ds ∧ d.isDigit = true := by
  cases h : Nat.toDigits 10 n with
  | nil => exact absurd h Nat.toDigits_ne_nil
  | cons d ds => exact ⟨d, ds, rfl, isDigit_of_mem_toDigits (n := n) d (by simp [h])⟩

/-- The integers of the range are words of 64 bits. -/
def IntRange.InWords (range : IntRange) : Prop :=
  Int64.minValue.toInt ≤ range.low ∧ range.high < UInt64.size

theorem makeInteger_of_neg {n : Int} (hn : n < 0) (hword : Int64.minValue.toInt ≤ n) :
    makeInteger true n.natAbs = .integer n := by
  have hmin : Int64.minValue.toInt = -9223372036854775808 := rfl
  have hfits : ¬(n.natAbs = 0 ∨ 1 <<< 63 < n.natAbs) := by omega
  have habs : -(n.natAbs : Int) = n := by omega
  simp only [makeInteger, hfits, habs, ↓reduceIte]

theorem makeInteger_of_nonneg {n : Int} (hn : 0 ≤ n) :
    makeInteger false n.natAbs = .integer n := by
  have habs : (n.natAbs : Int) = n := by omega
  simp only [makeInteger, habs, Bool.false_eq_true, ↓reduceIte]

theorem readInt_renderInt {range : IntRange} (hrange : range.InWords) {n : Int}
    (hlow : range.low ≤ n) (hhigh : n ≤ range.high) {rest : List Char} (hr : Delimited rest) :
    readInt range (renderInt n ++ rest) = .ok (n, rest) := by
  have hword : Int64.minValue.toInt ≤ n := Int.le_trans hrange.1 hlow
  have hsize : n.natAbs < UInt64.size := by
    have hmin : Int64.minValue.toInt = -9223372036854775808 := rfl
    have hmax : n < UInt64.size := Int.lt_of_le_of_lt hhigh hrange.2
    simp only [UInt64.size] at hmax ⊢
    omega
  have hfit : fit range (.integer n) = .ok n := if_pos ⟨hlow, hhigh⟩
  rw [renderInt]
  by_cases hn : n < 0
  · have hread := readNumber_toDigits hsize true hr
    rw [makeInteger_of_neg hn hword] at hread
    rw [if_pos hn]
    simp [readInt, readFitting, skipSpace_cons, isSpace, hread, hfit, Except.map]
  · have hread := readNumber_toDigits hsize false hr
    rw [makeInteger_of_nonneg (Int.not_lt.1 hn)] at hread
    obtain ⟨d, ds, hds, hd⟩ := toDigits_eq_digit_cons n.natAbs
    rw [if_neg hn]
    rw [hds] at hread ⊢
    have hskip : skipSpace (d :: ds ++ rest) = d :: ds ++ rest :=
      skipSpace_cons (isSpace_of_isDigit hd) _
    -- a digit is no sign
    have hminus : d ≠ '-' := ne_of_isDigit hd (by decide)
    rw [List.cons_append] at hskip hread ⊢
    simp only [readInt, hskip, hd, readFitting, hread, hfit, ↓reduceIte]
    rfl

theorem Slot.reads_int {range : IntRange} (hrange : range.InWords) {n : Int}
    (hlow : range.low ≤ n) (hhigh : n ≤ range.high) : (Slot.int range).Reads (.int n) := by
  intro rest hr
  simp [readSlot, Value.render, readInt_renderInt hrange hlow hhigh hr, Except.map]

end ResumableUpload.Json
