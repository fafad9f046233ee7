import Mathlib.Algebra.GroupWithZero.Nat
import ResumableUpload.Proofs.Quotation
import ResumableUpload.Proofs.Written
import ResumableUpload.Toml.Document

/-!
# Documents of plain lines

A document with one line for each key, none of which is dotted or quoted, is read into the table of
its entries. A string is read back in any spelling, a flag and a number are no other kind of word;
so each value is read up to the end of its line.

* `Toml.wordValue?_toDigits` : the digits of a number spell nothing else.
* `Toml.ReadBack` : what is read back at the end of a line.
* `Toml.PlainLine.readOneLine_text`, `Toml.parse_plain` : lines and documents.
-/

namespace ResumableUpload.Toml

open Json (IsDigits)

/-! ### Words -/

variable {ds cs rest : List Char} {v : Value} {n fuel : Nat}

/-- A character of some kind is none that is not of that kind. -/
theorem ne_of_kind {p : Char → Bool} {c d : Char} (hc : p c = true) (hd : p d = false) :
    c ≠ d := by
  rintro rfl
  simp [hc] at hd

theorem takeWhile_kind {p : Char → Bool} {d : Char} (h : ∀ c ∈ cs, p c = true)
    (hd : p d = false) (rest : List Char) : (cs ++ d :: rest).takeWhile p = cs := by
  rw [List.takeWhile_append_of_pos h, List.takeWhile_cons_of_neg (by simp [hd]), List.append_nil]

theorem dropWhile_kind {p : Char → Bool} {d : Char} (h : ∀ c ∈ cs, p c = true)
    (hd : p d = false) (rest : List Char) : (cs ++ d :: rest).dropWhile p = d :: rest := by
  rw [List.dropWhile_append_of_pos h, List.dropWhile_cons_of_neg (by simp [hd])]

theorem isDigits_toDigits (n : Nat) : IsDigits (Nat.toDigits 10 n) :=
  ⟨Nat.toDigits_ne_nil, Json.isDigit_of_mem_toDigits⟩

theorem digits?_of_isDigits (h : IsDigits ds) : digits? Char.isDigit ds = some ds := by
  induction ds with
  | nil => exact absurd rfl h.1
  | cons c ds ih =>
    have hc : c.isDigit = true := h.2 c List.mem_cons_self
    cases ds with
    | nil => exact if_pos hc
    | cons d ds =>
      have hd : d ≠ '_' := h.ne_of_mem (by simp) (by decide)
      have hrest : digits? Char.isDigit (d :: ds) = some (d :: ds) :=
        ih ⟨List.cons_ne_nil d ds, fun c hc => h.2 c (List.mem_cons_of_mem _ hc)⟩
      have hcons : digits? Char.isDigit (c :: d :: ds) =
          if c.isDigit then (digits? Char.isDigit (d :: ds)).map (c :: ·) else none :=
        digits?.eq_4 _ _ _ (by simp) (by simp [hd])
      rw [hcons, if_pos hc, hrest]
      rfl

/-- A number is written without leading zeros. -/
theorem decimal?_toDigits (n : Nat) :
    decimal? (Nat.toDigits 10 n) = some (Nat.toDigits 10 n) := by
  rw [decimal?, digits?_of_isDigits (isDigits_toDigits n)]
  rcases Nat.eq_zero_or_pos n with rfl | hn
  · rfl
  · obtain ⟨d, ds, hds, hd⟩ := Json.toDigits_eq_cons hn
    rw [hds]
    split
    · rename_i heq
      simp_all
    · rfl

theorem hexDigit?_of_isDigit {c : Char} (h : c.isDigit = true) :
    hexDigit? c = some (c.toNat - '0'.toNat) := by
  simp only [Char.isDigit, Bool.and_eq_true, decide_eq_true_eq] at h
  exact if_pos h

theorem numberOf_toDigits (n : Nat) : numberOf 10 (Nat.toDigits 10 n) = n := by
  have hfold (ds : List Char) (hds : ∀ c ∈ ds, c.isDigit = true) (k : Nat) :
      ds.foldl (fun n d => n * 10 + (hexDigit? d).getD 0) k = Nat.ofDigitChars 10 ds k := by
    induction ds generalizing k with
    | nil => simp
    | cons c ds ih =>
      rw [List.foldl_cons, ih fun d hd => hds d (List.mem_cons_of_mem c hd),
        hexDigit?_of_isDigit (hds c List.mem_cons_self), Nat.ofDigitChars_cons, Nat.mul_comm]
      rfl
  rw [numberOf, hfold _ Json.isDigit_of_mem_toDigits, Nat.ofDigitChars_ten_toDigits]

/-! ### Digits are no moment and no float -/

theorem signOf_of_isDigits (h : IsDigits ds) : signOf ds = (false, ds) := by
  unfold signOf
  split
  · exact absurd rfl (h.ne_of_mem (d := '+') (by simp) (by decide))
  · exact absurd rfl (h.ne_of_mem (d := '-') (by simp) (by decide))
  · rfl

theorem mem_of_fixedDigits? {count : Nat} {c : Char}
    (h : fixedDigits? count cs = some (n, rest)) (hc : c ∈ rest) : c ∈ cs := by
  unfold fixedDigits? at h
  dsimp only at h
  split at h
  · cases h
    exact List.mem_of_mem_drop hc
  · cases h

/-- No mark follows the year. -/
theorem afterDate?_of_isDigits (h : IsDigits ds) : afterDate? ds = none := by
  unfold afterDate?
  cases hyear : fixedDigits? 4 ds with
  | none => rfl
  | some year =>
    obtain ⟨y, rest⟩ := year
    cases rest with
    | nil => rfl
    | cons c cs =>
      have hmem : c ∈ ds := mem_of_fixedDigits? hyear List.mem_cons_self
      simp [h.ne_of_mem hmem (d := '-') (by decide)]

/-- No mark follows the hour. -/
theorem afterMinutes?_of_isDigits (h : IsDigits ds) : afterMinutes? ds = none := by
  unfold afterMinutes?
  cases hhour : fixedDigits? 2 ds with
  | none => rfl
  | some hour =>
    obtain ⟨n, rest⟩ := hour
    cases rest with
    | nil => rfl
    | cons c cs =>
      have hmem : c ∈ ds := mem_of_fixedDigits? hhour List.mem_cons_self
      simp [h.ne_of_mem hmem (d := ':') (by decide)]

theorem isMoment_of_isDigits (h : IsDigits ds) : isMoment ds = false := by
  have htime : afterTime? ds = none := by
    rw [afterTime?, afterMinutes?_of_isDigits h]
    rfl
  rw [isMoment, afterDate?_of_isDigits h, htime]
  rfl

theorem isFloat_of_isDigits (h : IsDigits ds) : isFloat ds = false := by
  have hwhole (c : Char) (hc : c ∈ ds) : (c != '.' && !isExponentMark c) = true := by
    have hpoint := h.ne_of_mem hc (d := '.') (by decide)
    have he := h.ne_of_mem hc (d := 'e') (by decide)
    have hE := h.ne_of_mem hc (d := 'E') (by decide)
    simp [isExponentMark, hpoint, he, hE]
  have hparts : floatParts? ds = none := by
    rw [floatParts?, List.dropWhile_eq_nil_iff.2 hwhole]
    cases decimal? _ <;> rfl
  have hinf : ¬(ds = ['i', 'n', 'f'] ∨ ds = ['n', 'a', 'n']) := by
    rintro (rfl | rfl)
    · simpa using h.2 'i' (by simp)
    · simpa using h.2 'n' (by simp)
  rw [isFloat, signOf_of_isDigits h]
  simp only [hinf, if_false, hparts]

/-! ### Words at the end of a line -/

theorem integer?_of_isDigits (h : IsDigits ds) :
    integer? ds = (signed? ds).filter fun n =>
      Int64.minValue.toInt ≤ n ∧ n ≤ Int64.maxValue.toInt := by
  unfold integer?
  split
  · exact absurd rfl (h.ne_of_mem (d := 'x') (by simp) (by decide))
  · exact absurd rfl (h.ne_of_mem (d := 'o') (by simp) (by decide))
  · exact absurd rfl (h.ne_of_mem (d := 'b') (by simp) (by decide))
  · rfl

theorem integer?_toDigits (hn : n < 2 ^ 63) :
    integer? (Nat.toDigits 10 n) = some (n : Int) := by
  have hdigits := isDigits_toDigits n
  have hsigned : signed? (Nat.toDigits 10 n) = some (n : Int) := by
    simp [signed?, signOf_of_isDigits hdigits, decimal?_toDigits, numberOf_toDigits]
  have hmin : Int64.minValue.toInt = -9223372036854775808 := rfl
  have hmax : Int64.maxValue.toInt = 9223372036854775807 := rfl
  rw [integer?_of_isDigits hdigits, hsigned, Option.filter_some, if_pos]
  simp only [hmin, hmax, decide_eq_true_eq]
  omega

/-- The digits of a number are read as that number and as nothing else. -/
theorem wordValue?_toDigits (hn : n < 2 ^ 63) :
    wordValue? (Nat.toDigits 10 n) = some (.integer n) := by
  have hdigits := isDigits_toDigits n
  have htrue : Nat.toDigits 10 n ≠ ['t', 'r', 'u', 'e'] := fun h => by
    simpa using hdigits.2 't' (by simp [h])
  have hfalse : Nat.toDigits 10 n ≠ ['f', 'a', 'l', 's', 'e'] := fun h => by
    simpa using hdigits.2 'f' (by simp [h])
  rw [wordValue?, if_neg htrue, if_neg hfalse, isMoment_of_isDigits hdigits,
    isFloat_of_isDigits hdigits, integer?_toDigits hn]
  rfl

theorem takeWord_line (h : ∀ c ∈ cs, isWordChar c = true) :
    takeWord (cs ++ '\n' :: rest) = cs := by
  rw [takeWord, takeWhile_kind h (by decide), dropWhile_kind h (by decide)]
  rfl

theorem readScalar_line (h : ∀ c ∈ cs, isWordChar c = true) (hv : wordValue? cs = some v) :
    readScalar (cs ++ '\n' :: rest) = some (v, '\n' :: rest) := by
  rw [readScalar, takeWord_line h, hv, List.drop_left]
  rfl

/-! ### Values -/

/-- A value, spelled, that is read back at the end of a line. -/
structure ReadBack (ws : List Char) (v : Value) : Prop where
  /-- It does not begin with a blank. -/
  skips : ∀ rest, skipBlanks (ws ++ rest) = ws ++ rest
  reads : ∀ fuel rest, ws.length ≤ fuel →
    readValue depthLimit fuel (ws ++ '\n' :: rest) = some (v, '\n' :: rest)

theorem skipBlanks_cons {c : Char} (hc : isLineBlank c = false) (cs : List Char) :
    skipBlanks (c :: cs) = c :: cs := by
  rw [skipBlanks, List.dropWhile_cons_of_neg (by simp [hc])]

theorem writeIn_eq_cons (style : Style) (cs : List Char) :
    ∃ quote ws, (quote = '"' ∨ quote = '\'') ∧ writeIn style cs = quote :: ws := by
  cases style with
  | basic | multiBasic => exact ⟨'"', _, .inl rfl, rfl⟩
  | literal | multiLiteral => exact ⟨'\'', _, .inr rfl, rfl⟩

theorem readBack_text (s : String) : ReadBack (writeString s.toList) (.text s) := by
  obtain ⟨quote, ws, hquote, hws⟩ := writeIn_eq_cons (styleFor s.toList) s.toList
  refine ⟨fun rest => ?_, fun fuel rest hfuel => ?_⟩
  · rw [writeString, hws]
    exact skipBlanks_cons (by rcases hquote with rfl | rfl <;> rfl) _
  · have hread : readString fuel (writeString s.toList ++ '\n' :: rest) =
        some (s.toList, '\n' :: rest) :=
      readString_writeString (by simp [NoQuoteAhead]) hfuel
    have hvalue : readValue depthLimit fuel (writeString s.toList ++ '\n' :: rest) =
        (readString fuel (writeString s.toList ++ '\n' :: rest)).map fun read =>
          (.text (String.ofList read.1), read.2) := by
      rw [writeString, hws]
      rcases hquote with rfl | rfl <;> rfl
    simp [hvalue, hread]

theorem readBack_word (hne : cs ≠ []) (h : ∀ c ∈ cs, isWordChar c = true)
    (hv : wordValue? cs = some v) : ReadBack cs v := by
  obtain ⟨c, cs, rfl⟩ := List.exists_cons_of_ne_nil hne
  have hc : isWordChar c = true := h c List.mem_cons_self
  refine ⟨fun rest => ?_, fun fuel rest hfuel => ?_⟩
  · have hspace := ne_of_kind hc (d := ' ') (by decide)
    have htab := ne_of_kind hc (d := '\t') (by decide)
    exact skipBlanks_cons (by simp [isLineBlank, hspace, htab]) _
  · have hvalue : readValue depthLimit fuel (c :: cs ++ '\n' :: rest) =
        readScalar (c :: cs ++ '\n' :: rest) := by
      unfold readValue
      split
      · rename_i heq
        exact absurd (List.cons.inj heq).1 (ne_of_kind hc (by decide))
      · rename_i heq
        exact absurd (List.cons.inj heq).1 (ne_of_kind hc (by decide))
      · rename_i heq
        exact absurd (List.cons.inj heq).1 (ne_of_kind hc (by decide))
      · rename_i heq
        exact absurd (List.cons.inj heq).1 (ne_of_kind hc (by decide))
      · rfl
    rw [hvalue]
    exact readScalar_line h hv

theorem readBack_flag (b : Bool) :
    ReadBack (if b then "true".toList else "false".toList) (.flag b) := by
  cases b with
  | false => exact readBack_word (by simp) (by simp; decide) (by decide)
  | true => exact readBack_word (by simp) (by simp; decide) (by decide)

theorem readBack_integer (hn : n < 2 ^ 63) : ReadBack (Nat.toDigits 10 n) (.integer n) := by
  obtain ⟨hne, hdigits⟩ := isDigits_toDigits n
  refine readBack_word hne (fun c hc => ?_) (wordValue?_toDigits hn)
  simp [isWordChar, Char.isAlphanum, hdigits c hc]

/-! ### Lines -/

/-- A key that needs no quotes. -/
def IsBareKey (key : String) : Prop := key.toList ≠ [] ∧ ∀ c ∈ key.toList, isBareKeyChar c = true

instance (key : String) : Decidable (IsBareKey key) :=
  decidable_of_iff (key.toList.isEmpty = false ∧ key.toList.all isBareKeyChar = true)
    (by simp [IsBareKey])

/-- A line that gives a value to a key. -/
structure PlainLine where
  key : String
  spelling : List Char
  value : Value

namespace PlainLine

variable (l : PlainLine) {p : Progress}

/-- The text of the line. -/
def text : List Char := l.key.toList ++ " = ".toList ++ l.spelling ++ ['\n']

/-- The line is read back as what it says. -/
structure IsFaithful : Prop where
  isBareKey : IsBareKey l.key
  readBack : ReadBack l.spelling l.value

end PlainLine

section Keys

variable {key : String}

/-- A key without quotes begins with a letter, a digit, an underscore or a dash. -/
theorem IsBareKey.exists_cons (h : IsBareKey key) :
    ∃ c cs, key.toList = c :: cs ∧ isBareKeyChar c = true := by
  obtain ⟨hne, hall⟩ := h
  obtain ⟨c, cs, hkey⟩ := List.exists_cons_of_ne_nil hne
  exact ⟨c, cs, hkey, hall c (by simp [hkey])⟩

theorem skipBlanks_bare (h : IsBareKey key) (rest : List Char) :
    skipBlanks (key.toList ++ rest) = key.toList ++ rest := by
  obtain ⟨c, cs, hkey, hc⟩ := h.exists_cons
  have hspace := ne_of_kind (d := ' ') hc (by decide)
  have htab := ne_of_kind (d := '\t') hc (by decide)
  rw [hkey]
  exact skipBlanks_cons (by simp [isLineBlank, hspace, htab]) _

theorem readKeyPart_bare (h : IsBareKey key) (rest : List Char) :
    readKeyPart fuel (key.toList ++ ' ' :: rest) = some (key, ' ' :: rest) := by
  obtain ⟨c, cs, hkey, hc⟩ := h.exists_cons
  have hofList : String.ofList (c :: cs) = key := by rw [← hkey, String.ofList_toList]
  unfold readKeyPart
  split
  · rename_i heq
    rw [hkey] at heq
    exact absurd (List.cons.inj heq).1 (ne_of_kind hc (by decide))
  · rename_i heq
    rw [hkey] at heq
    exact absurd (List.cons.inj heq).1 (ne_of_kind hc (by decide))
  · rw [takeWhile_kind h.2 (by decide), dropWhile_kind h.2 (by decide), hkey]
    simp [hofList]

theorem readKey_bare (h : IsBareKey key) (rest : List Char) :
    readKey fuel (key.toList ++ ' ' :: '=' :: rest) = some (⟨[], key⟩, '=' :: rest) := by
  have hparts : readKeyParts fuel depthLimit (key.toList ++ ' ' :: '=' :: rest) =
      some ([key], '=' :: rest) := by
    rw [depthLimit, readKeyParts, skipBlanks_bare h, readKeyPart_bare h]
    rfl
  rw [readKey, hparts]
  rfl

end Keys

namespace PlainLine

variable {l : PlainLine} {p : Progress}

theorem text_append (l : PlainLine) (rest : List Char) :
    l.text ++ rest = l.key.toList ++ ' ' :: '=' :: ' ' :: (l.spelling ++ '\n' :: rest) := by
  simp [text]

theorem readAssigned_faithful (h : l.IsFaithful) (hfuel : l.spelling.length ≤ fuel)
    (rest : List Char) :
    readAssigned (readValue depthLimit) fuel ('=' :: ' ' :: (l.spelling ++ '\n' :: rest)) =
      some (l.value, '\n' :: rest) := by
  have hskip : skipBlanks (' ' :: (l.spelling ++ '\n' :: rest)) = l.spelling ++ '\n' :: rest :=
    h.readBack.skips _
  rw [readAssigned, hskip]
  exact h.readBack.reads fuel rest hfuel

/-- A key that is not dotted goes into the table itself. -/
theorem insertAt_root {es : Entries} {key : String} (hnew : es.get? key = none) (v : Value) :
    es.insertAt [] [] key v = some (es.put key (.value v)) := by
  simp [Entries.insertAt, Entries.modify, Entries.insert, hnew]

theorem readOneLine_text (h : l.IsFaithful) (hfuel : l.spelling.length ≤ fuel)
    (hcurrent : p.current = []) (hnew : p.root.get? l.key = none) :
    readOneLine p fuel (l.text ++ rest) =
      some ({ p with root := p.root.put l.key (.value l.value) }, rest) := by
  have hentry : readEntry p fuel (l.text ++ rest) =
      some ({ p with root := p.root.put l.key (.value l.value) }, rest) := by
    rw [text_append, readEntry, readKey_bare h.isBareKey]
    simp only [Option.bind_eq_bind, Option.bind_some]
    rw [readAssigned_faithful h hfuel]
    simp [hcurrent, insertAt_root hnew, endLine, skipBlanks, isLineBlank, skipComment,
      afterNewline?]
  obtain ⟨c, cs, hkey, hc⟩ := h.isBareKey.exists_cons
  have hskip : skipBlanks (l.text ++ rest) = l.text ++ rest := by
    rw [text_append]
    exact skipBlanks_bare h.isBareKey _
  have hcons : l.text ++ rest = c :: (cs ++ ' ' :: '=' :: ' ' :: (l.spelling ++ '\n' :: rest)) := by
    rw [text_append, hkey, List.cons_append]
  have hnewline : c ≠ '\n' := ne_of_kind hc (by decide)
  have hreturn : c ≠ '\r' := ne_of_kind hc (by decide)
  rw [← hentry, readOneLine, hskip, hcons]
  split
  · rename_i heq
    cases heq
  · rename_i heq
    exact absurd (List.cons.inj heq).1 (ne_of_kind hc (by decide))
  · rename_i heq
    exact absurd (List.cons.inj heq).1 (ne_of_kind hc (by decide))
  · rename_i heq
    obtain ⟨rfl, rfl⟩ := List.cons.inj heq
    exact if_neg (by simp [hnewline, hreturn])

end PlainLine

/-- The table of a document of these lines, which are added to some entries. -/
def tabled (es : Entries) (ls : List PlainLine) : Entries :=
  ls.foldl (fun es l => es.put l.key (.value l.value)) es

theorem readAllLines_plain {ls : List PlainLine} {es : Entries} (hls : ∀ l ∈ ls, l.IsFaithful)
    (hnew : ∀ l ∈ ls, es.get? l.key = none) (hkeys : (ls.map (·.key)).Nodup)
    (hfuel : (ls.flatMap (·.text)).length ≤ fuel) :
    readAllLines ⟨es, []⟩ fuel (ls.flatMap (·.text)) = some ⟨tabled es ls, []⟩ := by
  -- each line takes one unit of fuel, and has more characters than that
  induction ls generalizing es fuel with
  | nil => cases fuel <;> rfl
  | cons l ls ih =>
    obtain ⟨hkey, hkeys⟩ := List.nodup_cons.1 hkeys
    have hl := hls l List.mem_cons_self
    have hlength : l.spelling.length < l.text.length := by
      simp only [PlainLine.text, List.length_append, List.length_singleton]
      omega
    rw [List.flatMap_cons, List.length_append] at hfuel
    obtain ⟨fuel, rfl⟩ : ∃ n, fuel = n + 1 := ⟨fuel - 1, by omega⟩
    have hone : readOneLine ⟨es, []⟩ (fuel + 1) (l.text ++ ls.flatMap (·.text)) =
        some (⟨es.put l.key (.value l.value), []⟩, ls.flatMap (·.text)) :=
      PlainLine.readOneLine_text hl (by omega) rfl (hnew l List.mem_cons_self)
    have hstill : ∀ l' ∈ ls, (es.put l.key (.value l.value)).get? l'.key = none := by
      intro l' hl'
      have hne : l'.key ≠ l.key := fun heq => hkey (List.mem_map.2 ⟨l', hl', heq⟩)
      rw [Entries.get?_put, if_neg hne]
      exact hnew l' (List.mem_cons_of_mem l hl')
    have hrest : readAllLines ⟨es.put l.key (.value l.value), []⟩ fuel (ls.flatMap (·.text)) =
        some ⟨tabled es (l :: ls), []⟩ :=
      ih (fun l' hl' => hls l' (List.mem_cons_of_mem l hl')) hstill hkeys (by omega)
    rw [List.flatMap_cons, readAllLines, hone]
    · exact hrest
    · intro hnil
      rw [(List.append_eq_nil_iff.1 hnil).1] at hlength
      cases hlength

/-- A document of plain lines is read into the table of its entries. -/
theorem parse_plain {ls : List PlainLine} (hls : ∀ l ∈ ls, l.IsFaithful)
    (hkeys : (ls.map (·.key)).Nodup) :
    parse (String.ofList (ls.flatMap (·.text))) = some (tabled [] ls) := by
  have hmark : skipMark (ls.flatMap (·.text)) = ls.flatMap (·.text) := by
    cases ls with
    | nil => rfl
    | cons l ls =>
      obtain ⟨c, cs, hkey, hc⟩ := (hls l List.mem_cons_self).isBareKey.exists_cons
      have hne : c ≠ '\ufeff' := ne_of_kind hc (by decide)
      rw [List.flatMap_cons, PlainLine.text_append, hkey, List.cons_append, skipMark]
      simpa using hne
  have hlines : readAllLines ⟨[], []⟩ (ls.flatMap (·.text)).length (ls.flatMap (·.text)) =
      some ⟨tabled [] ls, []⟩ :=
    readAllLines_plain hls (fun _ _ => rfl) hkeys (Nat.le_refl _)
  simp only [parse, String.toList_ofList, hmark, hlines, Option.map_some]

end ResumableUpload.Toml
