import ResumableUpload.Json.Fault

/-!
# Strings in a JSON text

`readText` reads the rest of a string after its opening quote and gives its characters; `skipText`
only looks for its end and lets escapes of unpaired surrogates pass. `quoteText` writes a string.

Main statements: what a reader leaves is a suffix of what it was given (`suffix_of_readText`,
`suffix_of_skipText`).
-/

namespace ResumableUpload.Json

/-- The value of a hexadecimal digit of either case. -/
def hexValue? (c : Char) : Option Nat :=
  if '0' ≤ c ∧ c ≤ '9' then some (c.toNat - '0'.toNat)
  else if 'a' ≤ c ∧ c ≤ 'f' then some (c.toNat - 'a'.toNat + 10)
  else if 'A' ≤ c ∧ c ≤ 'F' then some (c.toNat - 'A'.toNat + 10)
  else none

/-- The number that four hexadecimal digits spell. -/
def unit? (a b c d : Char) : Option Nat :=
  match hexValue? a, hexValue? b, hexValue? c, hexValue? d with
  | some a, some b, some c, some d => some (((a * 16 + b) * 16 + c) * 16 + d)
  | _, _, _, _ => none

/-- The length of a text in UTF-8 bytes. -/
def byteCount (cs : List Char) : Nat := cs.foldl (fun n c => n + c.utf8Size) 0

/-- Reads the four digits of a numeric escape. A text with fewer than four bytes left has ended;
otherwise a digit that is none is the offence. -/
def readUnit (cs : List Char) : Except Fault (Nat × List Char) :=
  match cs with
  | a :: b :: c :: d :: rest =>
    match unit? a b c d with
    | some n => .ok (n, rest)
    | none => .error .invalidEscape
  | cs => if byteCount cs < 4 then .error .eofText else .error .invalidEscape

/-- The character that a one-letter escape stands for. -/
def letterEscape? : Char → Option Char
  | '"' => some '"'
  | '\\' => some '\\'
  | '/' => some '/'
  | 'b' => some '\x08'
  | 'f' => some '\x0c'
  | 'n' => some '\n'
  | 'r' => some '\r'
  | 't' => some '\t'
  | _ => none

/-- The number is a leading surrogate. -/
def isLeading (n : Nat) : Bool := 0xd800 ≤ n && n ≤ 0xdbff

/-- The number is a trailing surrogate. -/
def isTrailing (n : Nat) : Bool := 0xdc00 ≤ n && n ≤ 0xdfff

/-- The character that a pair of surrogates stands for. -/
def fromPair (leading trailing : Nat) : Char :=
  Char.ofNat (0x10000 + (leading - 0xd800) * 0x400 + (trailing - 0xdc00))

/-- Reads the trailing half of a surrogate pair. -/
def readTrailing (leading : Nat) : List Char → Except Fault (Char × List Char)
  | [] => .error .eofText
  | ['\\'] => .error .eofText
  | '\\' :: 'u' :: cs =>
    match readUnit cs with
    | .error e => .error e
    | .ok (n, rest) =>
      if isTrailing n then .ok (fromPair leading n, rest) else .error .loneSurrogate
  | _ => .error .unfinishedSurrogate

/-- Reads a numeric escape after its letter, with the other half of a surrogate pair. -/
def readNumeric (cs : List Char) : Except Fault (Char × List Char) :=
  match readUnit cs with
  | .error e => .error e
  | .ok (n, rest) =>
    if isTrailing n then .error .loneSurrogate
    else if isLeading n then readTrailing n rest
    else .ok (Char.ofNat n, rest)

/-- Reads an escape after its backslash. -/
def readEscape : List Char → Except Fault (Char × List Char)
  | [] => .error .eofText
  | 'u' :: cs => readNumeric cs
  | c :: cs =>
    match letterEscape? c with
    | some x => .ok (x, cs)
    | none => .error .invalidEscape

/-- Skips an escape after its backslash; any four digits make a numeric one. -/
def skipEscape : List Char → Except Fault (List Char)
  | [] => .error .eofText
  | 'u' :: cs =>
    match readUnit cs with
    | .error e => .error e
    | .ok (_, rest) => .ok rest
  | c :: cs =>
    match letterEscape? c with
    | some _ => .ok cs
    | none => .error .invalidEscape

theorem suffix_of_readUnit {cs rest : List Char} {n : Nat} (h : readUnit cs = .ok (n, rest)) :
    rest <:+ cs := by
  unfold readUnit at h
  split at h
  · split at h
    · cases h
      exact (List.suffix_cons _ _).trans ((List.suffix_cons _ _).trans
        ((List.suffix_cons _ _).trans (List.suffix_cons _ _)))
    · cases h
  · split at h <;> cases h

theorem suffix_of_readTrailing {leading : Nat} {cs rest : List Char} {c : Char}
    (h : readTrailing leading cs = .ok (c, rest)) : rest <:+ cs := by
  unfold readTrailing at h
  split at h
  · cases h
  · cases h
  · split at h
    · cases h
    · rename_i hu
      split at h
      · simp only [Except.ok.injEq, Prod.mk.injEq] at h
        obtain ⟨-, rfl⟩ := h
        exact (suffix_of_readUnit hu).trans
          ((List.suffix_cons _ _).trans (List.suffix_cons _ _))
      · cases h
  · cases h

theorem suffix_of_readNumeric {cs rest : List Char} {c : Char}
    (h : readNumeric cs = .ok (c, rest)) : rest <:+ cs := by
  unfold readNumeric at h
  split at h
  · cases h
  · rename_i hu
    split at h
    · cases h
    · split at h
      · exact (suffix_of_readTrailing h).trans (suffix_of_readUnit hu)
      · cases h
        exact suffix_of_readUnit hu

theorem suffix_of_readEscape {cs rest : List Char} {c : Char}
    (h : readEscape cs = .ok (c, rest)) : rest <:+ cs := by
  unfold readEscape at h
  split at h
  · cases h
  · exact (suffix_of_readNumeric h).trans (List.suffix_cons _ _)
  · split at h
    · cases h
      exact List.suffix_cons _ _
    · cases h

theorem suffix_of_skipEscape {cs rest : List Char} (h : skipEscape cs = .ok rest) :
    rest <:+ cs := by
  unfold skipEscape at h
  split at h
  · cases h
  · split at h
    · cases h
    · rename_i hu
      cases h
      exact (suffix_of_readUnit hu).trans (List.suffix_cons _ _)
  · split at h
    · cases h
      exact List.suffix_cons _ _
    · cases h

/-- Reads the rest of a string, adding its characters in reverse to `done`. -/
def readTextFrom (done : List Char) (cs : List Char) : Except Fault (List Char × List Char) :=
  match cs with
  | [] => .error .eofText
  | c :: rest =>
    if c = '"' then .ok (done.reverse, rest)
    else if c = '\\' then
      match h : readEscape rest with
      | .error e => .error e
      | .ok (x, after) =>
        have : after.length ≤ rest.length := (suffix_of_readEscape h).length_le
        readTextFrom (x :: done) after
    else if c.toNat < 0x20 then .error .controlCharacter
    else readTextFrom (c :: done) rest
termination_by cs.length

/-- Reads a string after its opening quote: its characters, and what follows the closing quote. -/
def readText (cs : List Char) : Except Fault (List Char × List Char) := readTextFrom [] cs

/-- Skips a string after its opening quote. -/
def skipText (cs : List Char) : Except Fault (List Char) :=
  match cs with
  | [] => .error .eofText
  | c :: rest =>
    if c = '"' then .ok rest
    else if c = '\\' then
      match h : skipEscape rest with
      | .error e => .error e
      | .ok after =>
        have : after.length ≤ rest.length := (suffix_of_skipEscape h).length_le
        skipText after
    else if c.toNat < 0x20 then .error .controlCharacter
    else skipText rest
termination_by cs.length

theorem suffix_of_readTextFrom {done cs text rest : List Char}
    (h : readTextFrom done cs = .ok (text, rest)) : rest <:+ cs := by
  fun_induction readTextFrom done cs with
  | case1 => cases h
  | case2 => cases h; exact List.suffix_cons _ _
  | case3 => cases h
  | case4 done cs x after he _ _ ih =>
    exact (ih h).trans ((suffix_of_readEscape he).trans (List.suffix_cons _ _))
  | case5 => cases h
  | case6 _ _ _ _ _ _ ih => exact (ih h).trans (List.suffix_cons _ _)

theorem suffix_of_readText {cs text rest : List Char} (h : readText cs = .ok (text, rest)) :
    rest <:+ cs := suffix_of_readTextFrom h

theorem suffix_of_skipText {cs rest : List Char} (h : skipText cs = .ok rest) : rest <:+ cs := by
  fun_induction skipText cs with
  | case1 => cases h
  | case2 => cases h; exact List.suffix_cons _ _
  | case3 => cases h
  | case4 cs after he _ _ ih =>
    exact (ih h).trans ((suffix_of_skipEscape he).trans (List.suffix_cons _ _))
  | case5 => cases h
  | case6 _ _ _ _ _ ih => exact (ih h).trans (List.suffix_cons _ _)

/-- A hexadecimal digit of lower case. -/
def hexDigit (n : Nat) : Char := if n < 10 then Char.ofNat (48 + n) else Char.ofNat (87 + n)

/-- One character inside a written string. -/
def writeChar (c : Char) : List Char :=
  if c = '"' then ['\\', '"']
  else if c = '\\' then ['\\', '\\']
  else if c = '\x08' then ['\\', 'b']
  else if c = '\x0c' then ['\\', 'f']
  else if c = '\n' then ['\\', 'n']
  else if c = '\r' then ['\\', 'r']
  else if c = '\t' then ['\\', 't']
  else if c.toNat < 0x20 then
    ['\\', 'u', '0', '0', hexDigit (c.toNat / 16), hexDigit (c.toNat % 16)]
  else [c]

/-- A written string with its quotes. -/
def quoteText (cs : List Char) : List Char := '"' :: (cs.flatMap writeChar ++ ['"'])

end ResumableUpload.Json
