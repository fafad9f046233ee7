/-!
# Strings in TOML

A string has four spellings: basic and literal, each on one line or on many. `writeString` chooses
the plainest spelling that can hold a text; `readString` reads any of them.
-/

namespace ResumableUpload.Toml

/-- The spellings of a string. -/
inductive Style
  | basic
  | literal
  | multiBasic
  | multiLiteral
  deriving DecidableEq, Repr

/-- The length of the longest run of a character: of the run at the front, which has `run` already,
and of all others, of which `best` is known. -/
def longestRunFrom (c : Char) (run best : Nat) : List Char → Nat
  | [] => max run best
  | d :: ds =>
    if d = c then longestRunFrom c (run + 1) best ds else longestRunFrom c 0 (max run best) ds

/-- The length of the longest run of a character. -/
def longestRun (c : Char) (cs : List Char) : Nat := longestRunFrom c 0 0 cs

/-- A control character that only an escape can spell. -/
def needsEscape (c : Char) : Bool :=
  (c.toNat < 0x20 && c != '\t' && c != '\n') || c.toNat == 0x7f

/-- The spelling for a text: basic if nothing in it needs an escape, else literal, else the same on
several lines, else basic with escapes. -/
def styleFor (cs : List Char) : Style :=
  let controls := cs.any needsEscape
  let newline := cs.any (· == '\n')
  let backslash := cs.any (· == '\\')
  let doubles := longestRun '"' cs
  let singles := longestRun '\'' cs
  if !controls && !backslash && doubles == 0 && !newline then .basic
  else if !controls && singles == 0 && !newline then .literal
  else if !controls && !backslash && doubles ≤ 2 then .multiBasic
  else if !controls && singles ≤ 2 then .multiLiteral
  else if newline then .multiBasic
  else .basic

/-- An upper-case hexadecimal digit. -/
def upperHex (n : Nat) : Char := if n < 10 then Char.ofNat (48 + n) else Char.ofNat (55 + n)

/-- The spelling of a character other than a quote in a basic string. -/
def writeChar (multi : Bool) (c : Char) : List Char :=
  if c = '\x08' then ['\\', 'b']
  else if c = '\t' then ['\\', 't']
  else if c = '\n' then if multi then ['\n'] else ['\\', 'n']
  else if c = '\x0c' then ['\\', 'f']
  else if c = '\r' then ['\\', 'r']
  else if c = '\\' then ['\\', '\\']
  else if c.toNat < 0x20 ∨ c.toNat = 0x7f then
    ['\\', 'u', '0', '0', upperHex (c.toNat / 16), upperHex (c.toNat % 16)]
  else [c]

/-- Adds the spelling of a text in a basic string, in reverse, to `done`. Up to two quotes in a row,
of which there have been `run`, stand for themselves on several lines; any other is escaped. -/
def writeBasic (multi : Bool) (run : Nat) (done : List Char) : List Char → List Char
  | [] => done.reverse
  | c :: cs =>
    if c = '"' then
      if multi ∧ run < 2 then writeBasic multi (run + 1) ('"' :: done) cs
      else writeBasic multi 0 ('"' :: '\\' :: done) cs
    else writeBasic multi 0 ((writeChar multi c).reverse ++ done) cs

/-- The spelling of a text in a given style. -/
def writeIn (style : Style) (cs : List Char) : List Char :=
  let first := if cs.any (· == '\n') then ['\n'] else []
  match style with
  | .basic => '"' :: (writeBasic false 0 [] cs ++ ['"'])
  | .literal => '\'' :: (cs ++ ['\''])
  | .multiBasic => ['"', '"', '"'] ++ first ++ writeBasic true 0 [] cs ++ ['"', '"', '"']
  | .multiLiteral => ['\'', '\'', '\''] ++ first ++ cs ++ ['\'', '\'', '\'']

/-- The spelling of a text. -/
def writeString (cs : List Char) : List Char := writeIn (styleFor cs) cs

/-- The value of a hexadecimal digit of either case. -/
def hexDigit? (c : Char) : Option Nat :=
  if '0' ≤ c ∧ c ≤ '9' then some (c.toNat - 48)
  else if 'a' ≤ c ∧ c ≤ 'f' then some (c.toNat - 87)
  else if 'A' ≤ c ∧ c ≤ 'F' then some (c.toNat - 55)
  else none

/-- The number that hexadecimal digits spell. -/
def hexNumber? (ds : List Char) : Option Nat :=
  ds.foldl (fun n d => do some ((← n) * 16 + (← hexDigit? d))) (some 0)

/-- The character of a code point, if it is one. -/
def scalar? (n : Nat) : Option Char := if n.isValidChar then some (Char.ofNat n) else none

/-- Reads the code point of `count` hexadecimal digits. -/
def readCodePoint (count : Nat) (cs : List Char) : Option (Char × List Char) :=
  if cs.length < count then none
  else ((hexNumber? (cs.take count)).bind scalar?).map (·, cs.drop count)

/-- Reads an escape after its backslash. -/
def readEscape : List Char → Option (Char × List Char)
  | 'b' :: cs => some ('\x08', cs)
  | 't' :: cs => some ('\t', cs)
  | 'n' :: cs => some ('\n', cs)
  | 'f' :: cs => some ('\x0c', cs)
  | 'r' :: cs => some ('\r', cs)
  | '"' :: cs => some ('"', cs)
  | '\\' :: cs => some ('\\', cs)
  | 'u' :: cs => readCodePoint 4 cs
  | 'U' :: cs => readCodePoint 8 cs
  | _ => none

/-- A blank within a line. -/
def isLineBlank (c : Char) : Bool := c == ' ' || c == '\t'

/-- A text after the blanks at its front. -/
def skipBlanks (cs : List Char) : List Char := cs.dropWhile isLineBlank

/-- A text after the end of line at its front. -/
def afterNewline? : List Char → Option (List Char)
  | '\n' :: cs => some cs
  | '\r' :: '\n' :: cs => some cs
  | _ => none

/-- A text after the blanks and ends of lines at its front. -/
def skipBlankLines : List Char → List Char
  | '\r' :: '\n' :: cs => skipBlankLines cs
  | c :: cs => if isLineBlank c || c == '\n' then skipBlankLines cs else c :: cs
  | [] => []

/-- A character that may stand in a string or comment by itself. -/
def isPlain (c : Char) : Bool := c == '\t' || (0x20 ≤ c.toNat && c.toNat != 0x7f)

/-- Reads what a backslash does in a basic string: it spells a character, or, on several lines
and at the end of one, swallows the blanks up to the next text. -/
def readBackslash (multi : Bool) (cs : List Char) : Option (List Char × List Char) :=
  match readEscape cs with
  | some (c, rest) => some ([c], rest)
  | none =>
    if multi then
      (afterNewline? (skipBlanks cs)).map fun rest => ([], skipBlankLines rest)
    else none

/-- Reads a string on one line after its opening quote, within `fuel` characters. -/
def readLine (quote : Char) (done : List Char) : Nat → List Char → Option (List Char × List Char)
  | 0, _ => none
  | _, [] => none
  | fuel + 1, c :: cs =>
    if c = quote then some (done.reverse, cs)
    else if c = '\\' ∧ quote = '"' then
      match readBackslash false cs with
      | some (x, rest) => readLine quote (x.reverse ++ done) fuel rest
      | none => none
    else if isPlain c then readLine quote (c :: done) fuel cs
    else none

/-- Reads a string on several lines after its opening quotes, within `fuel` characters. -/
def readLines (quote : Char) (done : List Char) : Nat → List Char → Option (List Char × List Char)
  | 0, _ => none
  | _, [] => none
  | fuel + 1, c :: cs =>
    if c = quote then
      let run := 1 + (cs.takeWhile (· == quote)).length
      if run < 3 then readLines quote (c :: done) fuel cs
      else
        let kept := min (run - 3) 2
        some ((List.replicate kept quote ++ done).reverse, cs.drop (kept + 2))
    else if c = '\\' ∧ quote = '"' then
      match readBackslash true cs with
      | some (x, rest) => readLines quote (x.reverse ++ done) fuel rest
      | none => none
    else
      match afterNewline? (c :: cs) with
      | some rest => readLines quote ('\n' :: done) fuel rest
      | none => if isPlain c then readLines quote (c :: done) fuel cs else none

/-- A text after the end of line at its front, if there is one. -/
def dropNewline (cs : List Char) : List Char := (afterNewline? cs).getD cs

/-- Reads a string in any spelling, within `fuel` characters. -/
def readString (fuel : Nat) : List Char → Option (List Char × List Char)
  | '"' :: '"' :: '"' :: cs => readLines '"' [] fuel (dropNewline cs)
  | '\'' :: '\'' :: '\'' :: cs => readLines '\'' [] fuel (dropNewline cs)
  | '"' :: cs => readLine '"' [] fuel cs
  | '\'' :: cs => readLine '\'' [] fuel cs
  | _ => none

end ResumableUpload.Toml
