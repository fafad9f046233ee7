import ResumableUpload.Json.Skip

/-!
# Records in JSON

A `Form` says which fields a record has and what each may hold. `Form.parse` reads a record of a
form from a whole text, either as an object with the fields in any order among unknown ones, or as
a list of the fields in the order of the form. `renderFields` writes a record as an object.

Main statements: what a reader leaves is a suffix of what it was given (`suffix_of_readSlot`,
`suffix_of_readMember`).
-/

namespace ResumableUpload.Json

/-- The integers of a machine word. -/
structure IntRange where
  name : String
  low : Int
  high : Int
  deriving DecidableEq, Repr

namespace IntRange

/-- Signed integers of 32 bits. -/
def i32 : IntRange := ⟨"i32", Int32.minValue.toInt, Int32.maxValue.toInt⟩

/-- Unsigned integers of 32 bits. -/
def u32 : IntRange := ⟨"u32", 0, UInt32.size - 1⟩

/-- Signed integers of 64 bits. -/
def i64 : IntRange := ⟨"i64", Int64.minValue.toInt, Int64.maxValue.toInt⟩

/-- Unsigned integers of 64 bits. -/
def u64 : IntRange := ⟨"u64", 0, UInt64.size - 1⟩

end IntRange

/-- What a field may hold. -/
inductive Slot
  | text
  | flag
  | int (range : IntRange)
  /-- An integer or null. -/
  | intOrNull (range : IntRange)
  /-- One of some names, as a string or as an object with that one key and the value null. -/
  | tag (names : List String)
  /-- Any value, kept as it is spelled, or null. -/
  | rawOrNull
  deriving DecidableEq, Repr

/-- What a field holds. -/
inductive Value
  | null
  | flag (b : Bool)
  | int (n : Int)
  | text (s : String)
  /-- The spelling of a value. -/
  | raw (json : String)
  deriving DecidableEq, Repr

/-- A field of a record. -/
structure Field where
  name : String
  slot : Slot
  required : Bool
  deriving DecidableEq, Repr

/-- The fields of a record, in order. -/
structure Form where
  name : String
  fields : List Field
  deriving DecidableEq, Repr

namespace Form

/-- The wording for a record of a form. -/
def wanted (form : Form) : String := s!"struct {form.name}"

/-- The wording for the list spelling of a record of a form. -/
def wantedLength (form : Form) : String :=
  let count := form.fields.length
  let plural := if count = 1 then "" else "s"
  s!"struct {form.name} with {count} element{plural}"

/-- The field of a name. -/
def field? (form : Form) (name : String) : Option Field := form.fields.find? (·.name == name)

end Form

/-- The fields that a record was written with. -/
abbrev Fields := List (String × Value)

/-- The fault of something that is not `wanted`, or of its spelling. The first character stands
after white space. -/
def mismatch (wanted : String) (cs : List Char) : Fault :=
  let literal (ls : List Char) (rest : List Char) (found : Found) : Fault :=
    match readLetters ls rest with
    | .error e => e
    | .ok _ => .wrongType found wanted
  let number (negative : Bool) (rest : List Char) : Fault :=
    match readNumber negative rest with
    | .error e => e
    | .ok (.integer n, _) => .wrongType (.integer n) wanted
    | .ok (.real bits, _) => .wrongType (.real bits) wanted
  match cs with
  | [] => .eofValue
  | 'n' :: rest => literal ['u', 'l', 'l'] rest .null
  | 't' :: rest => literal ['r', 'u', 'e'] rest (.flag true)
  | 'f' :: rest => literal ['a', 'l', 's', 'e'] rest (.flag false)
  | '-' :: rest => number true rest
  | '"' :: rest =>
    match readText rest with
    | .error e => e
    | .ok (s, _) => .wrongType (.text (String.ofList s)) wanted
  | '[' :: _ => .wrongType .list wanted
  | '\x7b' :: _ => .wrongType .object wanted
  | c :: _ => if c.isDigit then number false cs else .expectedValue

/-- Reads a string. -/
def readString (wanted : String) (cs : List Char) : Except Fault (String × List Char) :=
  match skipSpace cs with
  | '"' :: rest =>
    match readText rest with
    | .error e => .error e
    | .ok (s, rest) => .ok (String.ofList s, rest)
  | cs => .error (mismatch wanted cs)

/-- Reads a boolean. -/
def readFlag (cs : List Char) : Except Fault (Bool × List Char) :=
  match skipSpace cs with
  | 't' :: rest => (readLetters ['r', 'u', 'e'] rest).map (true, ·)
  | 'f' :: rest => (readLetters ['a', 'l', 's', 'e'] rest).map (false, ·)
  | cs => .error (mismatch "a boolean" cs)

/-- Accepts a number that is an integer of the range. -/
def fit (range : IntRange) : Number → Except Fault Int
  | .integer n =>
    if range.low ≤ n ∧ n ≤ range.high then .ok n else .error (.wrongValue n range.name)
  | .real bits => .error (.wrongType (.real bits) range.name)

/-- Reads a number after its sign into the range. -/
def readFitting (range : IntRange) (negative : Bool) (cs : List Char) :
    Except Fault (Int × List Char) :=
  match readNumber negative cs with
  | .error e => .error e
  | .ok (x, rest) => (fit range x).map (·, rest)

/-- Reads an integer of the range. -/
def readInt (range : IntRange) (cs : List Char) : Except Fault (Int × List Char) :=
  match skipSpace cs with
  | '-' :: rest => readFitting range true rest
  | [] => .error .eofValue
  | c :: rest =>
    if c.isDigit then readFitting range false (c :: rest)
    else .error (mismatch range.name (c :: rest))

/-- Reads a colon. -/
def readColon (cs : List Char) : Except Fault (List Char) :=
  match skipSpace cs with
  | [] => .error .eofObject
  | c :: rest => if c = ':' then .ok rest else .error .expectedColon

/-- Reads a null. -/
def readNull (cs : List Char) : Except Fault (List Char) :=
  match skipSpace cs with
  | 'n' :: rest => readLetters ['u', 'l', 'l'] rest
  | cs => .error (mismatch "unit" cs)

/-- Reads a string that is one of the names, after its quote. -/
def readName (names : List String) (cs : List Char) : Except Fault (String × List Char) :=
  match readText cs with
  | .error e => .error e
  | .ok (s, rest) =>
    let name := String.ofList s
    if name ∈ names then .ok (name, rest) else .error (.unknownTag name names)

/-- Reads one of the names as the key of an object, after the brace. -/
def readTagKey (names : List String) (cs : List Char) : Except Fault (String × List Char) :=
  match skipSpace cs with
  | [] => .error .eofObject
  | c :: rest =>
    if c = '"' then readName names rest
    else if c = '\x7d' then .error .expectedValue
    else .error .keyNotText

/-- Reads one of the names after an opening brace, with its null and the closing brace. -/
def readTagObject (names : List String) (cs : List Char) : Except Fault (String × List Char) :=
  match readTagKey names cs with
  | .error e => .error e
  | .ok (s, rest) =>
    match readColon rest with
    | .error e => .error e
    | .ok rest =>
      match readNull rest with
      | .error e => .error e
      | .ok rest =>
        match skipSpace rest with
        | [] => .error .eofObject
        | c :: rest => if c = '\x7d' then .ok (s, rest) else .error .expectedValue

/-- Reads one of the names in either spelling. -/
def readTag (names : List String) (cs : List Char) : Except Fault (String × List Char) :=
  match skipSpace cs with
  | [] => .error .eofValue
  | c :: rest =>
    if c = '"' then readName names rest
    else if c = '\x7b' then readTagObject names rest
    else .error .expectedValue

/-- Reads what a field may hold. -/
def readSlot (slot : Slot) (cs : List Char) : Except Fault (Value × List Char) :=
  match slot with
  | .text => (readString "a string" cs).map fun (s, rest) => (.text s, rest)
  | .flag => (readFlag cs).map fun (b, rest) => (.flag b, rest)
  | .int range => (readInt range cs).map fun (n, rest) => (.int n, rest)
  | .tag names => (readTag names cs).map fun (s, rest) => (.text s, rest)
  | .intOrNull range =>
    match skipSpace cs with
    | 'n' :: rest => (readLetters ['u', 'l', 'l'] rest).map (.null, ·)
    | cs => (readInt range cs).map fun (n, rest) => (.int n, rest)
  | .rawOrNull =>
    match skipSpace cs with
    | 'n' :: rest => (readLetters ['u', 'l', 'l'] rest).map (.null, ·)
    | cs => (takeValue cs).map fun (v, rest) => (.raw (String.ofList v), rest)

theorem suffix_of_skipSpace_eq {cs rest : List Char} {c : Char} (h : skipSpace cs = c :: rest) :
    rest <:+ cs := (List.suffix_cons c rest).trans (h ▸ suffix_skipSpace cs)

theorem suffix_of_mapped {α β : Type} {r : Except Fault (α × List Char)}
    {f : α × List Char → β × List Char} {cs rest : List Char} {v : β}
    (h : r.map f = .ok (v, rest)) (hf : ∀ p, (f p).2 = p.2)
    (hr : ∀ a after, r = .ok (a, after) → after <:+ cs) : rest <:+ cs := by
  cases r with
  | error e => cases h
  | ok p =>
    have hp := hf p
    simp only [Except.map, Except.ok.injEq] at h
    rw [h] at hp
    simp only at hp
    rw [hp]
    exact hr p.1 p.2 rfl

theorem suffix_of_letters {α : Type} {ls cs rest : List Char} {v w : α}
    (h : (readLetters ls cs).map (w, ·) = .ok (v, rest)) : rest <:+ cs := by
  cases hr : readLetters ls cs with
  | error e => rw [hr] at h; cases h
  | ok after => rw [hr] at h; cases h; exact suffix_of_readLetters hr

theorem suffix_of_readString {wanted s : String} {cs rest : List Char}
    (h : readString wanted cs = .ok (s, rest)) : rest <:+ cs := by
  unfold readString at h
  split at h
  · rename_i hs
    split at h
    · cases h
    · rename_i ht
      cases h
      exact (suffix_of_readText ht).trans (suffix_of_skipSpace_eq hs)
  · cases h

theorem suffix_of_readFlag {b : Bool} {cs rest : List Char} (h : readFlag cs = .ok (b, rest)) :
    rest <:+ cs := by
  unfold readFlag at h
  split at h
  · rename_i hs
    exact (suffix_of_letters h).trans (suffix_of_skipSpace_eq hs)
  · rename_i hs
    exact (suffix_of_letters h).trans (suffix_of_skipSpace_eq hs)
  · cases h

theorem suffix_of_readFitting {range : IntRange} {negative : Bool} {n : Int}
    {cs rest : List Char} (h : readFitting range negative cs = .ok (n, rest)) : rest <:+ cs := by
  unfold readFitting at h
  split at h
  · cases h
  · rename_i x after hn
    cases hf : fit range x with
    | error e => rw [hf] at h; cases h
    | ok m => rw [hf] at h; cases h; exact suffix_of_readNumber hn

theorem suffix_of_readInt {range : IntRange} {n : Int} {cs rest : List Char}
    (h : readInt range cs = .ok (n, rest)) : rest <:+ cs := by
  unfold readInt at h
  split at h
  · rename_i hs
    exact (suffix_of_readFitting h).trans (suffix_of_skipSpace_eq hs)
  · cases h
  · rename_i hs
    split at h
    · exact (suffix_of_readFitting h).trans (hs ▸ suffix_skipSpace cs)
    · cases h

theorem suffix_of_readColon {cs rest : List Char} (h : readColon cs = .ok rest) :
    rest <:+ cs := by
  unfold readColon at h
  split at h
  · cases h
  · rename_i hs
    split at h
    · cases h; exact suffix_of_skipSpace_eq hs
    · cases h

theorem suffix_of_readNull {cs rest : List Char} (h : readNull cs = .ok rest) : rest <:+ cs := by
  unfold readNull at h
  split at h
  · rename_i hs
    exact (suffix_of_readLetters h).trans (suffix_of_skipSpace_eq hs)
  · cases h

theorem suffix_of_readName {names : List String} {s : String} {cs rest : List Char}
    (h : readName names cs = .ok (s, rest)) : rest <:+ cs := by
  unfold readName at h
  split at h
  · cases h
  · rename_i ht
    simp only at h
    split at h
    · cases h; exact suffix_of_readText ht
    · cases h

theorem suffix_of_readTagKey {names : List String} {s : String} {cs rest : List Char}
    (h : readTagKey names cs = .ok (s, rest)) : rest <:+ cs := by
  unfold readTagKey at h
  split at h
  · cases h
  · rename_i hs
    split at h
    · exact (suffix_of_readName h).trans (suffix_of_skipSpace_eq hs)
    · split at h <;> cases h

theorem suffix_of_readTagObject {names : List String} {s : String} {cs rest : List Char}
    (h : readTagObject names cs = .ok (s, rest)) : rest <:+ cs := by
  unfold readTagObject at h
  split at h
  · cases h
  · rename_i hn
    split at h
    · cases h
    · rename_i hc
      split at h
      · cases h
      · rename_i hu
        split at h
        · cases h
        · rename_i hs
          split at h
          · cases h
            exact (suffix_of_skipSpace_eq hs).trans ((suffix_of_readNull hu).trans
              ((suffix_of_readColon hc).trans (suffix_of_readTagKey hn)))
          · cases h

theorem suffix_of_readTag {names : List String} {s : String} {cs rest : List Char}
    (h : readTag names cs = .ok (s, rest)) : rest <:+ cs := by
  unfold readTag at h
  split at h
  · cases h
  · rename_i hs
    split at h
    · exact (suffix_of_readName h).trans (suffix_of_skipSpace_eq hs)
    · split at h
      · exact (suffix_of_readTagObject h).trans (suffix_of_skipSpace_eq hs)
      · cases h

theorem suffix_of_readSlot {slot : Slot} {v : Value} {cs rest : List Char}
    (h : readSlot slot cs = .ok (v, rest)) : rest <:+ cs := by
  unfold readSlot at h
  split at h
  · exact suffix_of_mapped h (fun _ => rfl) fun _ _ => suffix_of_readString
  · exact suffix_of_mapped h (fun _ => rfl) fun _ _ => suffix_of_readFlag
  · exact suffix_of_mapped h (fun _ => rfl) fun _ _ => suffix_of_readInt
  · exact suffix_of_mapped h (fun _ => rfl) fun _ _ => suffix_of_readTag
  · split at h
    · rename_i hs
      exact (suffix_of_letters h).trans (suffix_of_skipSpace_eq hs)
    · exact (suffix_of_mapped h (fun _ => rfl) fun _ _ => suffix_of_readInt).trans
        (suffix_skipSpace cs)
  · split at h
    · rename_i hs
      exact (suffix_of_letters h).trans (suffix_of_skipSpace_eq hs)
    · exact (suffix_of_mapped h (fun _ => rfl) fun _ _ => suffix_of_takeValue).trans
        (suffix_skipSpace cs)

/-- The first required field, in the order of the form, that the record lacks. -/
def Form.missing? (form : Form) (got : Fields) : Option String :=
  (form.fields.find? fun f => f.required && (got.lookup f.name).isNone).map (·.name)

/-- Ends an object whose members have been read. -/
def closeObject (form : Form) (got : Fields) (rest : List Char) :
    Except Fault (Fields × List Char) :=
  match form.missing? got with
  | some name => .error (.missingField name)
  | none => .ok (got, rest)

/-- Reads a member after the quote that opens its key. -/
def readMember (form : Form) (got : Fields) (cs : List Char) : Except Fault (Fields × List Char) :=
  match readText cs with
  | .error e => .error e
  | .ok (key, rest) =>
    let name := String.ofList key
    match form.field? name with
    | none =>
      match readColon rest with
      | .error e => .error e
      | .ok rest => (skipValue rest).map (got, ·)
    | some f =>
      if (got.lookup name).isSome then .error (.duplicateField name)
      else
        match readColon rest with
        | .error e => .error e
        | .ok rest => (readSlot f.slot rest).map fun (v, rest) => (got ++ [(name, v)], rest)

theorem suffix_of_readMember {form : Form} {got all : Fields} {cs rest : List Char}
    (h : readMember form got cs = .ok (all, rest)) : rest <:+ cs := by
  unfold readMember at h
  split at h
  · cases h
  · rename_i ht
    simp only at h
    split at h
    · split at h
      · cases h
      · rename_i after hc
        cases hv : skipValue after with
        | error e => rw [hv] at h; cases h
        | ok last =>
          rw [hv] at h
          cases h
          exact (suffix_of_skipValue hv).trans ((suffix_of_readColon hc).trans
            (suffix_of_readText ht))
    · split at h
      · cases h
      · split at h
        · cases h
        · rename_i hc
          exact (suffix_of_mapped h (fun _ => rfl) fun _ _ => suffix_of_readSlot).trans
            ((suffix_of_readColon hc).trans (suffix_of_readText ht))

/-- Reads the members of an object from the place after its brace or after a member. -/
def readMembers (form : Form) (first : Bool) (got : Fields) (cs : List Char) :
    Except Fault (Fields × List Char) :=
  match hs : skipSpace cs with
  | [] => .error .eofObject
  | c :: rest =>
    have hr : rest.length < cs.length := by
      have := (suffix_skipSpace cs).length_le
      rw [hs] at this
      exact this
    if c = '\x7d' then closeObject form got rest
    else if first then
      if c = '"' then
        match hm : readMember form got rest with
        | .error e => .error e
        | .ok (all, after) =>
          have : after.length ≤ rest.length := (suffix_of_readMember hm).length_le
          readMembers form false all after
      else .error .keyNotText
    else if c = ',' then
      match hs' : skipSpace rest with
      | [] => .error .eofValue
      | c :: last =>
        have : last.length < rest.length := by
          have := (suffix_skipSpace rest).length_le
          rw [hs'] at this
          exact this
        if c = '"' then
          match hm : readMember form got last with
          | .error e => .error e
          | .ok (all, after) =>
            have : after.length ≤ last.length := (suffix_of_readMember hm).length_le
            readMembers form false all after
        else if c = '\x7d' then .error .trailingComma
        else .error .keyNotText
    else .error .expectedObjectEnd
termination_by cs.length

/-- What stands before the next member of a list. -/
inductive ListStep
  | ended
  | member (rest : List Char)
  deriving DecidableEq, Repr

/-- Looks for another member of a list. -/
def nextElement (first : Bool) (cs : List Char) : Except Fault ListStep :=
  match skipSpace cs with
  | [] => .error .eofList
  | c :: rest =>
    if c = ']' then .ok .ended
    else if first then .ok (.member (c :: rest))
    else if c = ',' then
      match skipSpace rest with
      | [] => .error .eofValue
      | c :: rest => if c = ']' then .error .trailingComma else .ok (.member (c :: rest))
    else .error .expectedListEnd

/-- Reads the end of a list after all the members wanted of it. -/
def closeList (cs : List Char) : Except Fault (List Char) :=
  match skipSpace cs with
  | [] => .error .eofList
  | c :: rest =>
    if c = ']' then .ok rest
    else if c = ',' then
      match skipSpace rest with
      | c :: _ => if c = ']' then .error .trailingComma else .error .trailingCharacters
      | [] => .error .trailingCharacters
    else .error .trailingCharacters

/-- Reads the remaining fields, `count` members having been read, from a list. -/
def readElements (form : Form) (count : Nat) (got : Fields) :
    List Field → List Char → Except Fault (Fields × List Char)
  | [], cs => (closeList cs).map (got, ·)
  | f :: fs, cs =>
    match nextElement (count == 0) cs with
    | .error e => .error e
    | .ok .ended =>
      if f.required then .error (.wrongLength count form.wantedLength)
      else readElements form count got fs cs
    | .ok (.member rest) =>
      match readSlot f.slot rest with
      | .error e => .error e
      | .ok (v, rest) => readElements form (count + 1) (got ++ [(f.name, v)]) fs rest

/-- Reads a record in either spelling. -/
def readRecord (form : Form) (cs : List Char) : Except Fault (Fields × List Char) :=
  match skipSpace cs with
  | [] => .error .eofValue
  | c :: rest =>
    if c = '[' then readElements form 0 [] form.fields rest
    else if c = '\x7b' then readMembers form true [] rest
    else .error (mismatch form.wanted (c :: rest))

/-- The fields of a record that a whole text spells. -/
def Form.parse (form : Form) (text : String) : Except Fault Fields :=
  match readRecord form text.toList with
  | .error e => .error e
  | .ok (got, rest) => if (skipSpace rest).isEmpty then .ok got else .error .trailingCharacters

/-- The tag that a whole text spells. -/
def parseTag (names : List String) (text : String) : Except Fault String :=
  match readTag names text.toList with
  | .error e => .error e
  | .ok (s, rest) => if (skipSpace rest).isEmpty then .ok s else .error .trailingCharacters

/-- A field by its name. -/
def Fields.get? (got : Fields) (name : String) : Option Value := List.lookup name got

/-- The text in a field, or the empty text. -/
def Fields.text (got : Fields) (name : String) : String :=
  match got.get? name with
  | some (.text s) => s
  | _ => ""

/-- The boolean in a field, or false. -/
def Fields.flag (got : Fields) (name : String) : Bool :=
  match got.get? name with
  | some (.flag b) => b
  | _ => false

/-- The integer in a field, or zero. -/
def Fields.int (got : Fields) (name : String) : Int :=
  match got.get? name with
  | some (.int n) => n
  | _ => 0

/-- The spelling of the value in a field, if there is one that is not null. -/
def Fields.raw? (got : Fields) (name : String) : Option String :=
  match got.get? name with
  | some (.raw json) => some json
  | _ => none

/-- The characters of an integer. -/
def renderInt (n : Int) : List Char :=
  if n < 0 then '-' :: Nat.toDigits 10 n.natAbs else Nat.toDigits 10 n.natAbs

/-- The spelling of a value. -/
def Value.render : Value → List Char
  | null => ['n', 'u', 'l', 'l']
  | flag true => ['t', 'r', 'u', 'e']
  | flag false => ['f', 'a', 'l', 's', 'e']
  | int n => renderInt n
  | text s => quoteText s.toList
  | raw json => json.toList

/-- The spelling of one member of an object. -/
def renderMember (member : String × Value) : List Char :=
  quoteText member.1.toList ++ ':' :: member.2.render

/-- The spelling of a record as an object, without spaces and in the order given. -/
def renderFields (fields : Fields) : List Char :=
  '\x7b' :: ((List.intersperse [','] (fields.map renderMember)).flatten ++ ['\x7d'])

end ResumableUpload.Json
