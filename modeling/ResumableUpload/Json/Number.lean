import ResumableUpload.Json.Fault

/-!
# Numbers in a JSON text

`readNumber` reads a number into a 64-bit integer where it is one, and into a binary64 value
otherwise; `skipNumber` only checks its spelling and lets any magnitude pass. Minus zero, numbers
with a point or an exponent, and integers beyond the words of 64 bits are binary64 values.

Main statements: what a reader leaves is a suffix of what it was given (`suffix_of_readNumber`,
`suffix_of_skipNumber`).
-/

namespace ResumableUpload.Json

/-- A number as it was read. -/
inductive Number
  | integer (n : Int)
  /-- The bits of a binary64 value. -/
  | real (bits : UInt64)
  deriving DecidableEq, Repr

/-- The value of a decimal digit. -/
def digitValue (c : Char) : Nat := c.toNat - '0'.toNat

/-- The digits at the front of a text. -/
def leadingDigits (cs : List Char) : List Char := cs.takeWhile Char.isDigit

/-- A text after the digits at its front. -/
def afterDigits (cs : List Char) : List Char := cs.dropWhile Char.isDigit

/-- Appends digits to a significand for as long as it stays a word of 64 bits: the significand, the
number of digits taken, and the number of digits left over. -/
def absorb (significand taken : Nat) : List Char → Nat × Nat × Nat
  | [] => (significand, taken, 0)
  | d :: ds =>
    let next := significand * 10 + digitValue d
    if next < UInt64.size then absorb next (taken + 1) ds else (significand, taken, ds.length + 1)

/-- A power of ten that binary64 can hold. -/
def tenTo (n : Nat) : Float := Float.ofScientific 1 false n

/-- `value * 10 ^ exponent` in binary64, by one multiplication or division where the power of ten
fits, else by repeated division. An infinite result is refused. -/
def scaleTen (value : Float) (exponent : Int) : Except Fault Float :=
  if exponent.natAbs ≤ 308 then
    if 0 ≤ exponent then
      let scaled := value * tenTo exponent.toNat
      if scaled.isInf then .error .numberOutOfRange else .ok scaled
    else .ok (value / tenTo exponent.natAbs)
  else if value == 0.0 then .ok value
  else if 0 ≤ exponent then .error .numberOutOfRange
  else scaleTen (value / tenTo 308) (exponent + 308)
termination_by exponent.natAbs

/-- The binary64 number with this sign, significand and power of ten. -/
def makeReal (negative : Bool) (significand : Nat) (exponent : Int) : Except Fault Number :=
  match scaleTen significand.toUInt64.toFloat exponent with
  | .error e => .error e
  | .ok x => .ok (.real (if negative then -x else x).toBits)

/-- The number with this sign and significand that was written without point and exponent. -/
def makeInteger (negative : Bool) (significand : Nat) : Number :=
  if negative then
    if significand = 0 ∨ 1 <<< 63 < significand then .real (-significand.toUInt64.toFloat).toBits
    else .integer (-(significand : Int))
  else .integer significand

/-- The number that a run of digits spells, or `2 ^ 31` if it is larger. -/
def exponentSize (ds : List Char) : Nat :=
  ds.foldl (fun n d => min (1 <<< 31) (n * 10 + digitValue d)) 0

/-- The sign at the front of an exponent: whether it is negative, and what follows it. -/
def exponentSign : List Char → Bool × List Char
  | '+' :: cs => (false, cs)
  | '-' :: cs => (true, cs)
  | cs => (false, cs)

/-- Reads an exponent after its letter. One of `2 ^ 31` or more makes zero or is out of range. -/
def readExponent (negative : Bool) (significand : Nat) (start : Int) (cs : List Char) :
    Except Fault (Number × List Char) :=
  let (down, cs) := exponentSign cs
  match cs with
  | [] => .error .eofValue
  | c :: _ =>
    if c.isDigit then
      let size := exponentSize (leadingDigits cs)
      let number :=
        if size < 1 <<< 31 then
          makeReal negative significand (if down then start - size else start + size)
        else if significand ≠ 0 ∧ ¬down then .error .numberOutOfRange
        else .ok (.real (if negative then -0.0 else 0.0 : Float).toBits)
      match number with
      | .error e => .error e
      | .ok n => .ok (n, afterDigits cs)
    else .error .invalidNumber

/-- Reads what may follow the digits before the point. -/
def readTail (negative : Bool) (significand dropped : Nat) (cs : List Char) :
    Except Fault (Number × List Char) :=
  match cs with
  | '.' :: cs =>
    match leadingDigits cs, afterDigits cs with
    | [], [] => .error .eofValue
    | [], _ :: _ => .error .invalidNumber
    | ds, rest =>
      let (m, taken, _) := absorb significand 0 ds
      let exponent : Int := (dropped : Int) - taken
      match rest with
      | c :: after =>
        if c = 'e' ∨ c = 'E' then readExponent negative m exponent after
        else (makeReal negative m exponent).map (·, rest)
      | [] => (makeReal negative m exponent).map (·, rest)
  | c :: after =>
    if c = 'e' ∨ c = 'E' then readExponent negative significand dropped after
    else if dropped = 0 then .ok (makeInteger negative significand, cs)
    else (makeReal negative significand dropped).map (·, cs)
  | [] =>
    if dropped = 0 then .ok (makeInteger negative significand, cs)
    else (makeReal negative significand dropped).map (·, cs)

/-- Reads a number after its sign. -/
def readNumber (negative : Bool) (cs : List Char) : Except Fault (Number × List Char) :=
  match cs with
  | [] => .error .eofValue
  | c :: rest =>
    if c = '0' then
      if (leadingDigits rest).isEmpty then readTail negative 0 0 rest else .error .invalidNumber
    else if c.isDigit then
      let (m, _, dropped) := absorb 0 0 (leadingDigits cs)
      readTail negative m dropped (afterDigits cs)
    else .error .invalidNumber

/-- Skips an exponent after its letter. -/
def skipExponent (cs : List Char) : Except Fault (List Char) :=
  match (exponentSign cs).2 with
  | [] => .error .invalidNumber
  | c :: rest => if c.isDigit then .ok (afterDigits rest) else .error .invalidNumber

/-- Skips an exponent if one stands here. -/
def skipExponent? : List Char → Except Fault (List Char)
  | [] => .ok []
  | c :: rest => if c = 'e' ∨ c = 'E' then skipExponent rest else .ok (c :: rest)

/-- Skips a fraction and an exponent if they stand here. -/
def skipTail : List Char → Except Fault (List Char)
  | '.' :: rest =>
    if (leadingDigits rest).isEmpty then .error .invalidNumber else skipExponent? (afterDigits rest)
  | cs => skipExponent? cs

/-- Skips a number after its sign. -/
def skipNumber : List Char → Except Fault (List Char)
  | [] => .error .invalidNumber
  | c :: rest =>
    if c = '0' then
      if (leadingDigits rest).isEmpty then skipTail rest else .error .invalidNumber
    else if c.isDigit then skipTail (afterDigits rest)
    else .error .invalidNumber

theorem suffix_afterDigits (cs : List Char) : afterDigits cs <:+ cs := List.dropWhile_suffix _

theorem suffix_exponentSign (cs : List Char) : (exponentSign cs).2 <:+ cs := by
  unfold exponentSign
  split
  · exact List.suffix_cons _ _
  · exact List.suffix_cons _ _
  · exact List.suffix_refl _

theorem suffix_of_map {cs kept rest : List Char} {r : Except Fault Number} {n : Number}
    (hk : kept <:+ cs) (h : r.map (·, kept) = .ok (n, rest)) : rest <:+ cs := by
  cases r with
  | error e => cases h
  | ok m => cases h; exact hk

theorem suffix_of_readExponent {negative : Bool} {m : Nat} {start : Int} {cs rest : List Char}
    {n : Number} (h : readExponent negative m start cs = .ok (n, rest)) : rest <:+ cs := by
  unfold readExponent at h
  have hs := suffix_exponentSign cs
  revert h hs
  generalize exponentSign cs = p
  obtain ⟨down, ds⟩ := p
  intro h hs
  cases ds with
  | nil => cases h
  | cons c ds =>
    simp only at h
    split at h
    · split at h
      · cases h
      · simp only [Except.ok.injEq, Prod.mk.injEq] at h
        obtain ⟨-, rfl⟩ := h
        exact (suffix_afterDigits _).trans hs
    · cases h

theorem suffix_of_readTail {negative : Bool} {m dropped : Nat} {cs rest : List Char} {n : Number}
    (h : readTail negative m dropped cs = .ok (n, rest)) : rest <:+ cs := by
  unfold readTail at h
  split at h
  · rename_i cs
    have hd := (suffix_afterDigits cs).trans (List.suffix_cons '.' cs)
    revert h hd
    generalize afterDigits cs = after
    intro h hd
    split at h
    · cases h
    · cases h
    · simp only at h
      split at h
      · split at h
        · exact (suffix_of_readExponent h).trans ((List.suffix_cons _ _).trans hd)
        · exact suffix_of_map hd h
      · exact suffix_of_map hd h
  · split at h
    · exact (suffix_of_readExponent h).trans (List.suffix_cons _ _)
    · split at h
      · cases h; exact List.suffix_refl _
      · exact suffix_of_map (List.suffix_refl _) h
  · split at h
    · cases h; exact List.suffix_refl _
    · exact suffix_of_map (List.suffix_refl _) h

theorem suffix_of_readNumber {negative : Bool} {cs rest : List Char} {n : Number}
    (h : readNumber negative cs = .ok (n, rest)) : rest <:+ cs := by
  unfold readNumber at h
  split at h
  · cases h
  · split at h
    · split at h
      · exact (suffix_of_readTail h).trans (List.suffix_cons _ _)
      · cases h
    · split at h
      · exact (suffix_of_readTail h).trans (suffix_afterDigits _)
      · cases h

theorem suffix_of_skipExponent {cs rest : List Char} (h : skipExponent cs = .ok rest) :
    rest <:+ cs := by
  have hs := suffix_exponentSign cs
  unfold skipExponent at h
  split at h
  · cases h
  · rename_i he
    rw [he] at hs
    split at h
    · cases h
      exact (suffix_afterDigits _).trans ((List.suffix_cons _ _).trans hs)
    · cases h

theorem suffix_of_skipExponent? {cs rest : List Char} (h : skipExponent? cs = .ok rest) :
    rest <:+ cs := by
  unfold skipExponent? at h
  split at h
  · cases h; exact List.suffix_refl _
  · split at h
    · exact (suffix_of_skipExponent h).trans (List.suffix_cons _ _)
    · cases h; exact List.suffix_refl _

theorem suffix_of_skipTail {cs rest : List Char} (h : skipTail cs = .ok rest) : rest <:+ cs := by
  unfold skipTail at h
  split at h
  · split at h
    · cases h
    · exact (suffix_of_skipExponent? h).trans
        ((suffix_afterDigits _).trans (List.suffix_cons _ _))
  · exact suffix_of_skipExponent? h

theorem suffix_of_skipNumber {cs rest : List Char} (h : skipNumber cs = .ok rest) :
    rest <:+ cs := by
  unfold skipNumber at h
  split at h
  · cases h
  · split at h
    · split at h
      · exact (suffix_of_skipTail h).trans (List.suffix_cons _ _)
      · cases h
    · split at h
      · exact (suffix_of_skipTail h).trans ((suffix_afterDigits _).trans (List.suffix_cons _ _))
      · cases h

end ResumableUpload.Json
