import ResumableUpload.Toml.Table

/-!
# Documents in TOML

`parse` reads a document into the entries of its root table, or refuses it. The readers are given
`fuel`: the length of what they read, or more.
-/

namespace ResumableUpload.Toml

/-! ### Keys -/

/-- A character of a key without quotes. -/
def isBareKeyChar (c : Char) : Bool := c.isAlphanum || c == '_' || c == '-'

/-- Reads one part of a key. -/
def readKeyPart (fuel : Nat) : List Char → Option (String × List Char)
  | '"' :: cs => (readLine '"' [] fuel cs).map fun (s, rest) => (String.ofList s, rest)
  | '\'' :: cs => (readLine '\'' [] fuel cs).map fun (s, rest) => (String.ofList s, rest)
  | cs =>
    match cs.takeWhile isBareKeyChar with
    | [] => none
    | key => some (String.ofList key, cs.dropWhile isBareKeyChar)

/-- Reads the parts of a key, of which there are at most `limit`. -/
def readKeyParts (fuel : Nat) : Nat → List Char → Option (List String × List Char)
  | 0, _ => none
  | limit + 1, cs => do
    let (part, cs) ← readKeyPart fuel (skipBlanks cs)
    match skipBlanks cs with
    | '.' :: cs =>
      let (parts, cs) ← readKeyParts fuel limit cs
      return (part :: parts, cs)
    | cs => return ([part], cs)

/-- The most parts of a key, and the most arrays and inline tables around a value. -/
def depthLimit : Nat := 79

/-- A key: the path to a table, and the name in it. -/
structure Key where
  path : List String
  name : String
  deriving DecidableEq, Repr

/-- Reads a key and the blanks around it. -/
def readKey (fuel : Nat) (cs : List Char) : Option (Key × List Char) := do
  let (parts, cs) ← readKeyParts fuel depthLimit cs
  return (⟨parts.dropLast, ← parts.getLast?⟩, cs)

/-! ### Values -/

/-- A text after the comment at its front. -/
def skipComment : List Char → List Char
  | '#' :: cs => cs.dropWhile isPlain
  | cs => cs

/-- A text after the blanks, comments and ends of lines at its front, of which it may begin within a
comment. -/
def skipVoidFrom (comment : Bool) : List Char → List Char
  | [] => []
  | '\r' :: '\n' :: cs => skipVoidFrom false cs
  | c :: cs =>
    if c = '\n' then skipVoidFrom false cs
    else if comment then if isPlain c then skipVoidFrom true cs else c :: cs
    else if isLineBlank c then skipVoidFrom false cs
    else if c = '#' then skipVoidFrom true cs
    else c :: cs

/-- A text after everything at its front that says nothing. -/
def skipVoid (cs : List Char) : List Char := skipVoidFrom false cs

/-- A way to read a value. -/
abbrev ValueReader := Nat → List Char → Option (Value × List Char)

variable (item : ValueReader)

/-- Reads the elements of an array after its bracket. -/
def readElements : Nat → List Char → Option (List Char)
  | 0, _ => none
  | fuel + 1, cs =>
    match skipVoid cs with
    | ']' :: cs => some cs
    | cs => do
      let (_, cs) ← item (fuel + 1) cs
      match skipVoid cs with
      | ',' :: cs => readElements fuel cs
      | ']' :: cs => some cs
      | _ => none

/-- Reads the equals sign and the value after a key. -/
def readAssigned (fuel : Nat) (cs : List Char) : Option (Value × List Char) :=
  match cs with
  | '=' :: cs => item fuel (skipBlanks cs)
  | _ => none

/-- Reads the entries of an inline table after one that is known to follow. -/
def readInlineEntries (es : Entries) : Nat → List Char → Option (List Char)
  | 0, _ => none
  | fuel + 1, cs => do
    let (key, cs) ← readKey (fuel + 1) cs
    let (v, cs) ← readAssigned item (fuel + 1) cs
    let es ← es.insert key.path key.name v
    match skipBlanks cs with
    | ',' :: cs => readInlineEntries es fuel cs
    | '}' :: cs => some cs
    | _ => none

/-- Reads an inline table after its brace. -/
def readInline (fuel : Nat) (cs : List Char) : Option (List Char) :=
  match skipBlanks cs with
  | '}' :: cs => some cs
  | cs => readInlineEntries item [] fuel cs

/-- Reads a value inside of which arrays and inline tables are nested at most `depth` deep. -/
def readValue (depth : Nat) : ValueReader := fun fuel cs =>
  match cs with
  | '"' :: _ | '\'' :: _ =>
    (readString fuel cs).map fun (s, rest) => (.text (String.ofList s), rest)
  | '[' :: cs =>
    match depth with
    | 0 => none
    | depth + 1 => (readElements (readValue depth) fuel cs).map (.other, ·)
  | '{' :: cs =>
    match depth with
    | 0 => none
    | depth + 1 => (readInline (readValue depth) fuel cs).map (.other, ·)
  | cs => readScalar cs

/-! ### Lines -/

/-- A text after the rest of a line on which nothing but blanks and a comment may follow. -/
def endLine (cs : List Char) : Option (List Char) :=
  match skipComment (skipBlanks cs) with
  | [] => some []
  | cs => afterNewline? cs

/-- What has been read of a document. -/
structure Progress where
  root : Entries
  /-- The path of the table that the last header has opened. -/
  current : List String

/-- The parts of a key. -/
def Key.parts (k : Key) : List String := k.path ++ [k.name]

/-- Reads the line of a header, without its first bracket. -/
def readHeader (p : Progress) (fuel : Nat) (cs : List Char) : Option (Progress × List Char) :=
  match cs with
  | '[' :: cs => do
    let (key, ']' :: ']' :: cs) ← readKey fuel cs | none
    return (⟨← p.root.openElement key.path key.name, key.parts⟩, ← endLine cs)
  | cs => do
    let (key, ']' :: cs) ← readKey fuel cs | none
    return (⟨← p.root.openTable key.path key.name, key.parts⟩, ← endLine cs)

/-- Reads the line of an entry. -/
def readEntry (p : Progress) (fuel : Nat) (cs : List Char) : Option (Progress × List Char) := do
  let (key, cs) ← readKey fuel cs
  let (v, cs) ← readAssigned (readValue depthLimit) fuel cs
  return ({ p with root := ← p.root.insertAt p.current key.path key.name v }, ← endLine cs)

/-- Reads a line, of which there is at least one character. -/
def readOneLine (p : Progress) (fuel : Nat) (cs : List Char) : Option (Progress × List Char) :=
  match skipBlanks cs with
  | [] => some (p, [])
  | '[' :: cs => readHeader p fuel cs
  | '#' :: cs => (endLine ('#' :: cs)).map (p, ·)
  | c :: cs =>
    if c = '\n' ∨ c = '\r' then (endLine (c :: cs)).map (p, ·) else readEntry p fuel (c :: cs)

/-- Reads lines up to the end. -/
def readAllLines (p : Progress) : Nat → List Char → Option Progress
  | _, [] => some p
  | 0, _ => none
  | fuel + 1, cs => do
    let (p, cs) ← readOneLine p (fuel + 1) cs
    readAllLines p fuel cs

/-- A text after the byte order mark at its front. -/
def skipMark : List Char → List Char
  | '\ufeff' :: cs => cs
  | cs => cs

/-- The root table of a document, if it is well formed. -/
def parse (text : String) : Option Entries :=
  let cs := skipMark text.toList
  (readAllLines ⟨[], []⟩ cs.length cs).map (·.root)

end ResumableUpload.Toml
