import Mathlib.Tactic.SplitIfs
import ResumableUpload.Toml.Text

/-!
# Strings in TOML are read back

Whatever spelling is chosen for a text, the reader finds the text again and stops right after it.
The spellings share one grammar: characters spell themselves, an escape spells one character, and
only so many quotes in a row may stand for themselves, so that they are not taken for the end.

* `Toml.Spells` : what spells a text between its quotes.
* `Toml.spells_basic`, `Toml.spells_self` : what is written is derived by the grammar.
* `Toml.readLine_spelled`, `Toml.readLines_spelled` : what is derived by the grammar is read back.
* `Toml.readString_writeString` : every text is read back in the spelling chosen for it.
-/

namespace ResumableUpload.Toml

/-! ### Escapes -/

theorem hexDigit?_upperHex {n : Nat} (h : n < 16) : hexDigit? (upperHex n) = some n := by
  have hall : ∀ n < 16, hexDigit? (upperHex n) = some n := by decide
  exact hall n h

theorem hexNumber?_control {n : Nat} (h : n < 256) :
    hexNumber? ['0', '0', upperHex (n / 16), upperHex (n % 16)] = some n := by
  have hzero : hexDigit? '0' = some 0 := by decide
  have hhigh := hexDigit?_upperHex (n := n / 16) (by omega)
  have hlow := hexDigit?_upperHex (n := n % 16) (by omega)
  simp only [hexNumber?, List.foldl, hzero, hhigh, hlow, Option.bind_eq_bind, Option.bind_some]
  congr 1
  omega

theorem scalar?_toNat (c : Char) : scalar? c.toNat = some c := by
  have hvalid : c.toNat.isValidChar := c.valid
  rw [scalar?, if_pos hvalid, Char.ofNat_toNat]

theorem readEscape_control {c : Char} (h : c.toNat < 256) (rest : List Char) :
    readEscape ('u' :: '0' :: '0' :: upperHex (c.toNat / 16) :: upperHex (c.toNat % 16) :: rest) =
      some (c, rest) := by
  rw [readEscape, readCodePoint, if_neg (by simp)]
  simp only [List.take, List.drop, hexNumber?_control h, Option.bind_some, scalar?_toNat,
    Option.map_some]

/-! ### The grammar -/

/-- A spelling of one character between quotes; `multi` if on several lines. -/
inductive SpellsChar (quote : Char) (multi : Bool) : Char → List Char → Prop
  | plain {c : Char} (hquote : c ≠ quote) (hbackslash : ¬(c = '\\' ∧ quote = '"'))
      (hplain : isPlain c = true) : SpellsChar quote multi c [c]
  | escape {c : Char} {w : List Char} (hquote : quote = '"')
      (hread : ∀ rest, readEscape (w ++ rest) = some (c, rest)) :
      SpellsChar quote multi c ('\\' :: w)
  | newline (hmulti : multi = true) : SpellsChar quote multi '\n' ['\n']

/-- The number of quotes in a row that stand for themselves. -/
def quotesInRow (multi : Bool) : Nat := if multi then 2 else 0

/-- A spelling of a text between quotes, of which no more than `run` come first. -/
inductive Spells (quote : Char) (multi : Bool) : Nat → List Char → List Char → Prop
  | nil {run : Nat} : Spells quote multi run [] []
  | quote {run : Nat} {cs ws : List Char} (h : Spells quote multi run cs ws) :
      Spells quote multi (run + 1) (quote :: cs) (quote :: ws)
  | char {run : Nat} {c : Char} {w cs ws : List Char} (hc : SpellsChar quote multi c w)
      (h : Spells quote multi (quotesInRow multi) cs ws) :
      Spells quote multi run (c :: cs) (w ++ ws)

/-! ### What is written -/

variable {quote : Char} {multi : Bool} {c : Char} {cs ws w rest done : List Char} {run fuel : Nat}

/-- What `writeBasic` adds for a text. -/
def basic (multi : Bool) (run : Nat) : List Char → List Char
  | [] => []
  | c :: cs =>
    if c = '"' then
      if multi ∧ run < 2 then '"' :: basic multi (run + 1) cs
      else '\\' :: '"' :: basic multi 0 cs
    else writeChar multi c ++ basic multi 0 cs

theorem writeBasic_eq (multi : Bool) (run : Nat) (done cs : List Char) :
    writeBasic multi run done cs = done.reverse ++ basic multi run cs := by
  induction cs generalizing run done with
  | nil => simp [writeBasic, basic]
  | cons c cs ih =>
    unfold writeBasic basic
    split_ifs <;> simp [ih]

theorem spellsChar_writeChar (h : c ≠ '"') : SpellsChar '"' multi c (writeChar multi c) := by
  unfold writeChar
  split_ifs with hb ht hn hm hf hr hbackslash hcontrol
  · exact .escape rfl fun rest => by simp [hb, readEscape]
  · exact .escape rfl fun rest => by simp [ht, readEscape]
  · subst hn
    exact .newline hm
  · exact .escape rfl fun rest => by simp [hn, readEscape]
  · exact .escape rfl fun rest => by simp [hf, readEscape]
  · exact .escape rfl fun rest => by simp [hr, readEscape]
  · exact .escape rfl fun rest => by simp [hbackslash, readEscape]
  · exact .escape rfl fun rest => readEscape_control (by omega) rest
  · refine .plain h (by simp [hbackslash]) ?_
    simp only [isPlain, Bool.or_eq_true, Bool.and_eq_true, decide_eq_true_eq, bne_iff_ne,
      beq_iff_eq]
    omega

theorem spells_basic (multi : Bool) (run : Nat) (cs : List Char) :
    Spells '"' multi (quotesInRow multi - run) cs (basic multi run cs) := by
  induction cs generalizing run with
  | nil => exact .nil
  | cons c cs ih =>
    unfold basic
    split_ifs with hquote hraw
    · subst hquote
      obtain ⟨rfl, hrun⟩ := hraw
      have hnext : quotesInRow true - run = (quotesInRow true - (run + 1)) + 1 := by
        simp only [quotesInRow, if_true]
        omega
      rw [hnext]
      exact .quote (ih (run + 1))
    · exact .char (w := ['\\', '"']) (.escape rfl fun rest => by simp [hquote, readEscape]) (ih 0)
    · exact .char (spellsChar_writeChar hquote) (ih 0)

theorem le_longestRunFrom (c : Char) (run best : Nat) (cs : List Char) :
    run ≤ longestRunFrom c run best cs ∧ best ≤ longestRunFrom c run best cs := by
  induction cs generalizing run best with
  | nil => exact ⟨Nat.le_max_left _ _, Nat.le_max_right _ _⟩
  | cons d cs ih =>
    unfold longestRunFrom
    split
    · have := ih (run + 1) best
      omega
    · have := ih 0 (max run best)
      omega

theorem isPlain_of_needsEscape (hc : needsEscape c = false) (hline : c ≠ '\n') :
    isPlain c = true := by
  simp only [needsEscape, Bool.or_eq_false_iff, Bool.and_eq_false_iff, decide_eq_false_iff_not,
    bne_eq_false_iff_eq, beq_eq_false_iff_ne] at hc
  simp only [isPlain, Bool.or_eq_true, Bool.and_eq_true, decide_eq_true_eq, bne_iff_ne, beq_iff_eq]
  obtain ⟨(hlow | htab) | hnewline, hdelete⟩ := hc
  · exact .inr ⟨Nat.not_lt.1 hlow, hdelete⟩
  · exact .inl htab
  · exact absurd hnewline hline

theorem spellsChar_self (hquote : c ≠ quote) (hliteral : quote ≠ '"')
    (hc : needsEscape c = false) (hline : multi = true ∨ c ≠ '\n') :
    SpellsChar quote multi c [c] := by
  by_cases hnewline : c = '\n'
  · subst hnewline
    exact .newline (hline.resolve_right fun h => h rfl)
  · exact .plain hquote (fun h => hliteral h.2) (isPlain_of_needsEscape hc hnewline)

/-- A text without too many quotes in a row, and without what needs an escape, spells itself. -/
theorem spells_self {best : Nat} (hliteral : quote ≠ '"')
    (hcs : ∀ c ∈ cs, needsEscape c = false ∧ (multi = true ∨ c ≠ '\n'))
    (hrun : longestRunFrom quote run best cs ≤ quotesInRow multi) :
    Spells quote multi (quotesInRow multi - run) cs cs := by
  induction cs generalizing run best with
  | nil => exact .nil
  | cons c cs ih =>
    have htail (d : Char) (hd : d ∈ cs) := hcs d (List.mem_cons_of_mem c hd)
    unfold longestRunFrom at hrun
    split at hrun
    · rename_i hc
      subst hc
      have hle := (le_longestRunFrom c (run + 1) best cs).1
      have hnext : quotesInRow multi - run = (quotesInRow multi - (run + 1)) + 1 := by omega
      rw [hnext]
      exact .quote (ih htail hrun)
    · rename_i hc
      obtain ⟨hplain, hline⟩ := hcs c List.mem_cons_self
      exact .char (spellsChar_self hc hliteral hplain hline) (ih htail hrun)

theorem spells_literal (hliteral : quote ≠ '"')
    (hcs : ∀ c ∈ cs, needsEscape c = false ∧ (multi = true ∨ c ≠ '\n'))
    (hrun : longestRun quote cs ≤ quotesInRow multi) :
    Spells quote multi (quotesInRow multi) cs cs := by
  have hfrom : longestRunFrom quote 0 0 cs ≤ quotesInRow multi := hrun
  exact spells_self hliteral hcs hfrom

/-! ### What is read -/

theorem readBackslash_escape (h : readEscape (w ++ rest) = some (c, rest)) (multi : Bool) :
    readBackslash multi (w ++ rest) = some ([c], rest) := by
  rw [readBackslash, h]

theorem afterNewline?_of_isPlain (hc : isPlain c = true) (cs : List Char) :
    afterNewline? (c :: cs) = none := by
  unfold afterNewline?
  split
  · rename_i h
    cases h
    simp [isPlain] at hc
  · rename_i h
    cases h
    simp [isPlain] at hc
  · rfl

theorem readLine_char (h : SpellsChar quote false c w) :
    readLine quote done (fuel + 1) (w ++ rest) = readLine quote (c :: done) fuel rest := by
  cases h with
  | plain hquote hbackslash hplain =>
    rw [List.singleton_append, readLine, if_neg hquote, if_neg hbackslash, if_pos hplain]
  | escape hquote hread =>
    subst hquote
    rw [List.cons_append, readLine, if_neg (by decide), if_pos ⟨rfl, rfl⟩,
      readBackslash_escape (hread rest)]
    rfl
  | newline hmulti => cases hmulti

theorem readLines_char (h : SpellsChar quote true c w) (hquote : quote ≠ '\n') :
    readLines quote done (fuel + 1) (w ++ rest) = readLines quote (c :: done) fuel rest := by
  cases h with
  | plain hquote hbackslash hplain =>
    rw [List.singleton_append, readLines, if_neg hquote, if_neg hbackslash,
      afterNewline?_of_isPlain hplain]
    exact if_pos hplain
  | escape hquote hread =>
    subst hquote
    rw [List.cons_append, readLines, if_neg (by decide), if_pos ⟨rfl, rfl⟩,
      readBackslash_escape (hread rest)]
    rfl
  | newline =>
    rw [List.singleton_append, readLines, if_neg hquote.symm, if_neg (by simp)]
    rfl

theorem SpellsChar.length_pos (h : SpellsChar quote multi c w) : 0 < w.length := by
  cases h <;> simp

/-- A string on one line is read up to its closing quote. -/
theorem readLine_spelled (h : Spells quote false 0 cs ws) (hfuel : ws.length < fuel) :
    readLine quote done fuel (ws ++ quote :: rest) = some (done.reverse ++ cs, rest) := by
  generalize hrun : 0 = run at h
  induction h generalizing done fuel with
  | nil =>
    obtain ⟨fuel, rfl⟩ : ∃ n, fuel = n + 1 := ⟨fuel - 1, by omega⟩
    rw [List.nil_append, readLine, if_pos rfl, List.append_nil]
  | quote => omega
  | @char run c w cs ws hc h ih =>
    have hw := hc.length_pos
    rw [List.length_append] at hfuel
    obtain ⟨fuel, rfl⟩ : ∃ n, fuel = n + 1 := ⟨fuel - 1, by omega⟩
    rw [List.append_assoc, readLine_char hc, ih (by omega) rfl]
    simp

/-- The first character of what spells another one than the quote is none either. -/
theorem SpellsChar.takeWhile_eq_nil (h : SpellsChar quote multi c w)
    (hquote : quote = '"' ∨ quote = '\'') (rest : List Char) :
    (w ++ rest).takeWhile (· == quote) = [] := by
  cases h with
  | plain hne => simp [hne]
  | escape => rcases hquote with rfl | rfl <;> rfl
  | newline => rcases hquote with rfl | rfl <;> rfl

/-- Either all of a text is quotes that stand for themselves, or there are no more of them at the
front than there may be, whatever comes after the text. -/
theorem Spells.quotes_ahead (h : Spells quote multi run cs ws)
    (hquote : quote = '"' ∨ quote = '\'') :
    (∃ n ≤ run, cs = List.replicate n quote ∧ ws = List.replicate n quote) ∨
      ∀ rest, ((ws ++ rest).takeWhile (· == quote)).length ≤ run := by
  induction h with
  | nil => exact .inl ⟨0, by omega, rfl, rfl⟩
  | quote _ ih =>
    rcases ih with ⟨n, hn, rfl, rfl⟩ | hle
    · exact .inl ⟨n + 1, by omega, rfl, rfl⟩
    · exact .inr fun rest => by simpa using hle rest
  | char hc => exact .inr fun rest => by simp [List.append_assoc, hc.takeWhile_eq_nil hquote]

theorem takeWhile_quotes (n : Nat) (hrest : ∀ c ∈ rest.head?, c ≠ quote) :
    (List.replicate n quote ++ rest).takeWhile (· == quote) = List.replicate n quote := by
  rw [List.takeWhile_append_of_pos (by simp)]
  cases rest with
  | nil => simp
  | cons c rest => simp [hrest c rfl]

/-- The quotes at the end of a string on several lines are told from those that close it. -/
theorem readLines_quotes {n : Nat} (hn : n ≤ 2) (hrest : ∀ c ∈ rest.head?, c ≠ quote)
    (hfuel : 0 < fuel) :
    readLines quote done fuel (List.replicate n quote ++ quote :: quote :: quote :: rest) =
      some (done.reverse ++ List.replicate n quote, rest) := by
  have hshift : List.replicate n quote ++ quote :: quote :: quote :: rest =
      quote :: (List.replicate (n + 2) quote ++ rest) := by
    obtain rfl | rfl | rfl : n = 0 ∨ n = 1 ∨ n = 2 := by omega
    all_goals rfl
  have hrun : ((List.replicate (n + 2) quote ++ rest).takeWhile (· == quote)).length = n + 2 := by
    rw [takeWhile_quotes _ hrest, List.length_replicate]
  have hkept : min (1 + (n + 2) - 3) 2 = n := by omega
  have hdrop : (List.replicate (n + 2) quote ++ rest).drop (n + 2) = rest :=
    List.drop_left' (List.length_replicate)
  obtain ⟨fuel, rfl⟩ : ∃ n, fuel = n + 1 := ⟨fuel - 1, by omega⟩
  rw [hshift, readLines, if_pos rfl]
  simp only [hrun, hkept, hdrop, if_neg (show ¬1 + (n + 2) < 3 by omega)]
  simp

/-- A string on several lines is read up to its closing quotes. -/
theorem readLines_spelled (h : Spells quote true run cs ws) (hrun : run ≤ 2)
    (hquote : quote = '"' ∨ quote = '\'') (hrest : ∀ c ∈ rest.head?, c ≠ quote)
    (hfuel : ws.length < fuel) :
    readLines quote done fuel (ws ++ quote :: quote :: quote :: rest) =
      some (done.reverse ++ cs, rest) := by
  induction h generalizing done fuel with
  | nil => simpa using readLines_quotes (n := 0) (by omega) hrest hfuel
  | @quote run cs ws h ih =>
    -- the quotes of the text may run on into those that close it
    rcases h.quotes_ahead hquote with ⟨n, hn, rfl, rfl⟩ | hle
    · have hread : readLines quote done fuel
          (List.replicate (n + 1) quote ++ quote :: quote :: quote :: rest) =
            some (done.reverse ++ List.replicate (n + 1) quote, rest) :=
        readLines_quotes (by omega) hrest (by omega)
      simpa [List.replicate_succ] using hread
    · have hahead := hle (quote :: quote :: quote :: rest)
      rw [List.length_cons] at hfuel
      obtain ⟨fuel, rfl⟩ : ∃ n, fuel = n + 1 := ⟨fuel - 1, by omega⟩
      have hlt :
          1 + ((ws ++ quote :: quote :: quote :: rest).takeWhile (· == quote)).length < 3 := by
        omega
      rw [List.cons_append, readLines, if_pos rfl]
      simp only [hlt, if_true]
      rw [ih (by omega) (by omega)]
      simp
  | @char run c w cs ws hc h ih =>
    have hw := hc.length_pos
    rw [List.length_append] at hfuel
    obtain ⟨fuel, rfl⟩ : ∃ n, fuel = n + 1 := ⟨fuel - 1, by omega⟩
    have hnewline : quote ≠ '\n' := by rcases hquote with rfl | rfl <;> decide
    rw [List.append_assoc, readLines_char hc hnewline, ih (by simp [quotesInRow]) (by omega)]
    simp

/-! ### Strings -/

/-- What follows a string does not look like more of it. -/
def NoQuoteAhead (rest : List Char) : Prop := ∀ c ∈ rest.head?, c ≠ '"' ∧ c ≠ '\''

theorem readString_one {body : List Char} (hquote : quote = '"' ∨ quote = '\'')
    (h : ∀ tail, body ≠ quote :: quote :: tail) :
    readString fuel (quote :: body) = readLine quote [] fuel body := by
  rcases hquote with rfl | rfl <;> unfold readString <;> split <;> simp_all

theorem readString_three (body : List Char) (hquote : quote = '"' ∨ quote = '\'') :
    readString fuel (quote :: quote :: quote :: body) =
      readLines quote [] fuel (dropNewline body) := by
  rcases hquote with rfl | rfl <;> rfl

theorem readString_line (h : Spells quote false 0 cs ws) (hquote : quote = '"' ∨ quote = '\'')
    (hrest : ∀ c ∈ rest.head?, c ≠ quote) (hfuel : ws.length < fuel) :
    readString fuel (quote :: (ws ++ quote :: rest)) = some (cs, rest) := by
  -- the opening quote is not the first of three
  have hone : ∀ tail, ws ++ quote :: rest ≠ quote :: quote :: tail := by
    intro tail heq
    cases h with
    | nil =>
      obtain ⟨-, rfl⟩ := List.cons.inj heq
      exact hrest quote rfl rfl
    | char hc =>
      have hahead := congrArg (List.takeWhile (· == quote)) heq
      rw [List.append_assoc, hc.takeWhile_eq_nil hquote] at hahead
      simp at hahead
  rw [readString_one hquote hone]
  exact readLine_spelled h hfuel

theorem afterNewline?_spelled (h : Spells quote multi run cs ws) (hline : '\n' ∉ cs)
    (hquote : quote = '"' ∨ quote = '\'') (tail : List Char) :
    afterNewline? (ws ++ quote :: tail) = none := by
  have hfirst (tail : List Char) : afterNewline? (quote :: tail) = none := by
    rcases hquote with rfl | rfl <;> rfl
  cases h with
  | nil => exact hfirst tail
  | quote => exact hfirst _
  | char hc =>
    cases hc with
    | plain _ _ hplain => exact afterNewline?_of_isPlain hplain _
    | escape => rfl
    | newline => simp at hline

/-- The end of line that is put before a text with more than one line is dropped. -/
theorem dropNewline_spelled (h : Spells quote multi run cs ws)
    (hquote : quote = '"' ∨ quote = '\'') (tail : List Char) :
    dropNewline ((if cs.any (· == '\n') then ['\n'] else []) ++ (ws ++ quote :: tail)) =
      ws ++ quote :: tail := by
  by_cases hline : '\n' ∈ cs
  · have hany : cs.any (· == '\n') = true := by simpa using hline
    rw [hany]
    rfl
  · have hany : cs.any (· == '\n') = false := by
      simpa using fun c hc (h : c = '\n') => hline (h ▸ hc)
    rw [hany, dropNewline, if_neg Bool.false_ne_true, List.nil_append,
      afterNewline?_spelled h hline hquote]
    rfl

theorem readString_lines (h : Spells quote true 2 cs ws) (hquote : quote = '"' ∨ quote = '\'')
    (hrest : ∀ c ∈ rest.head?, c ≠ quote) (hfuel : ws.length < fuel) :
    readString fuel (quote :: quote :: quote ::
      ((if cs.any (· == '\n') then ['\n'] else []) ++
        (ws ++ quote :: quote :: quote :: rest))) = some (cs, rest) := by
  rw [readString_three _ hquote, dropNewline_spelled h hquote]
  exact readLines_spelled h (Nat.le_refl 2) hquote hrest hfuel

/-- A text may be spelled in a style. -/
def Suits (cs : List Char) : Style → Prop
  | .basic | .multiBasic => True
  | .literal => (∀ c ∈ cs, needsEscape c = false ∧ c ≠ '\n') ∧ longestRun '\'' cs = 0
  | .multiLiteral => (∀ c ∈ cs, needsEscape c = false) ∧ longestRun '\'' cs ≤ 2

theorem suits_styleFor (cs : List Char) : Suits cs (styleFor cs) := by
  unfold styleFor
  dsimp only
  split_ifs with hbasic hliteral hmultiBasic hmultiLiteral hnewline
  · trivial
  · obtain ⟨⟨hplain, hrun⟩, hline⟩ : ((∀ c ∈ cs, needsEscape c = false) ∧
        longestRun '\'' cs = 0) ∧ ∀ c ∈ cs, c ≠ '\n' := by simpa using hliteral
    exact ⟨fun c hc => ⟨hplain c hc, hline c hc⟩, hrun⟩
  · trivial
  · exact (by simpa using hmultiLiteral :
      (∀ c ∈ cs, needsEscape c = false) ∧ longestRun '\'' cs ≤ 2)
  · trivial
  · trivial

theorem readString_writeIn {style : Style} (hstyle : Suits cs style) (hrest : NoQuoteAhead rest)
    (hfuel : (writeIn style cs).length ≤ fuel) :
    readString fuel (writeIn style cs ++ rest) = some (cs, rest) := by
  have hdouble : ∀ c ∈ rest.head?, c ≠ '"' := fun c hc => (hrest c hc).1
  have hsingle : ∀ c ∈ rest.head?, c ≠ '\'' := fun c hc => (hrest c hc).2
  cases style with
  | basic =>
    rw [writeIn, writeBasic_eq] at hfuel ⊢
    have hlength : (basic false 0 cs).length < fuel := by
      simp at hfuel
      omega
    simpa using readString_line (spells_basic false 0 cs) (.inl rfl) hdouble hlength
  | literal =>
    obtain ⟨hplain, hrun⟩ := hstyle
    have hspells : Spells '\'' false 0 cs cs :=
      spells_literal (by decide) (fun c hc => ⟨(hplain c hc).1, .inr (hplain c hc).2⟩)
        (Nat.le_of_eq hrun)
    rw [writeIn] at hfuel ⊢
    have hlength : cs.length < fuel := by
      simp at hfuel
      omega
    simpa using readString_line hspells (.inr rfl) hsingle hlength
  | multiBasic =>
    rw [writeIn, writeBasic_eq] at hfuel ⊢
    have hlength : (basic true 0 cs).length < fuel := by
      simp at hfuel
      omega
    simpa using readString_lines (spells_basic true 0 cs) (.inl rfl) hdouble hlength
  | multiLiteral =>
    obtain ⟨hplain, hrun⟩ := hstyle
    have hspells : Spells '\'' true 2 cs cs :=
      spells_literal (by decide) (fun c hc => ⟨hplain c hc, .inl rfl⟩) hrun
    rw [writeIn] at hfuel ⊢
    have hlength : cs.length < fuel := by
      simp at hfuel
      omega
    simpa using readString_lines hspells (.inr rfl) hsingle hlength

/-- Every text is read back from the spelling chosen for it. -/
theorem readString_writeString (hrest : NoQuoteAhead rest)
    (hfuel : (writeString cs).length ≤ fuel) :
    readString fuel (writeString cs ++ rest) = some (cs, rest) :=
  readString_writeIn (suits_styleFor cs) hrest hfuel

end ResumableUpload.Toml
