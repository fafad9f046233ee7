import ResumableUpload.Json.Number
import ResumableUpload.Json.Text

/-!
# Passing over a JSON value

`skipValue` checks the spelling of one value and gives what follows it, whatever its type, depth
and size. It keeps the open brackets on a list instead of recursing, so nesting has no limit.
`takeValue` also gives the text passed over.

Main statements: what is left is a suffix of the text (`suffix_of_skipValue`), and the text passed
over and what is left make up the whole (`takeValue_append`).
-/

namespace ResumableUpload.Json

/-- White space between the tokens of a JSON text. -/
def isSpace (c : Char) : Bool := c == ' ' || c == '\t' || c == '\n' || c == '\r'

/-- A text after the white space at its front. -/
def skipSpace (cs : List Char) : List Char := cs.dropWhile isSpace

theorem suffix_skipSpace (cs : List Char) : skipSpace cs <:+ cs := List.dropWhile_suffix _

/-- Reads the letters of a literal name. -/
def readLetters : List Char → List Char → Except Fault (List Char)
  | [], cs => .ok cs
  | _ :: _, [] => .error .eofValue
  | l :: ls, c :: cs => if l = c then readLetters ls cs else .error .expectedLiteral

theorem suffix_of_readLetters {ls cs rest : List Char} (h : readLetters ls cs = .ok rest) :
    rest <:+ cs := by
  fun_induction readLetters ls cs with
  | case1 => cases h; exact List.suffix_refl _
  | case2 => cases h
  | case3 _ _ _ ih => exact (ih h).trans (List.suffix_cons _ _)
  | case4 => cases h

/-- Skips a value that has no members. -/
def skipScalar : List Char → Except Fault (List Char)
  | 'n' :: cs => readLetters ['u', 'l', 'l'] cs
  | 't' :: cs => readLetters ['r', 'u', 'e'] cs
  | 'f' :: cs => readLetters ['a', 'l', 's', 'e'] cs
  | '"' :: cs => skipText cs
  | '-' :: cs => skipNumber cs
  | c :: cs => if c.isDigit then skipNumber (c :: cs) else .error .expectedValue
  | [] => .error .eofValue

/-- An open bracket. -/
inductive Bracket
  | list
  | object
  deriving DecidableEq, Repr

namespace Bracket

/-- The character that closes a bracket. -/
def close : Bracket → Char
  | list => ']'
  | object => '\x7d'

/-- The text ended inside a bracket. -/
def unclosed : Bracket → Fault
  | list => .eofList
  | object => .eofObject

/-- Neither a comma nor the closing bracket stands after a member. -/
def unfinished : Bracket → Fault
  | list => .expectedListEnd
  | object => .expectedObjectEnd

end Bracket

/-- Skips a key and the colon after it. -/
def skipKey (cs : List Char) : Except Fault (List Char) :=
  match skipSpace cs with
  | [] => .error .eofObject
  | c :: cs =>
    if c = '"' then
      match skipText cs with
      | .error e => .error e
      | .ok cs =>
        match skipSpace cs with
        | [] => .error .eofObject
        | c :: cs => if c = ':' then .ok cs else .error .expectedColon
    else .error .keyNotText

/-- Skips what stands before the value of a member: in an object its key. -/
def skipMemberName : Bracket → List Char → Except Fault (List Char)
  | .list, cs => .ok cs
  | .object, cs => skipKey cs

/-- What is due next while a value is passed over. -/
inductive Due
  /-- A value. -/
  | value
  /-- A member of the innermost bracket or its end. -/
  | opened
  /-- What may follow a complete value. -/
  | complete
  deriving DecidableEq, Repr

/-- Steps that may consume nothing go down in rank. -/
def Due.rank : Due → Nat
  | opened => 2
  | value => 1
  | complete => 0

theorem suffix_of_skipScalar {cs rest : List Char} (h : skipScalar cs = .ok rest) :
    rest <:+ cs := by
  unfold skipScalar at h
  split at h
  · exact (suffix_of_readLetters h).trans (List.suffix_cons _ _)
  · exact (suffix_of_readLetters h).trans (List.suffix_cons _ _)
  · exact (suffix_of_readLetters h).trans (List.suffix_cons _ _)
  · exact (suffix_of_skipText h).trans (List.suffix_cons _ _)
  · exact (suffix_of_skipNumber h).trans (List.suffix_cons _ _)
  · split at h
    · exact suffix_of_skipNumber h
    · cases h
  · cases h

theorem suffix_of_skipKey {cs rest : List Char} (h : skipKey cs = .ok rest) : rest <:+ cs := by
  have hs := suffix_skipSpace cs
  unfold skipKey at h
  split at h
  · cases h
  · rename_i he
    rw [he] at hs
    split at h
    · split at h
      · cases h
      · rename_i after ht
        have hs' := suffix_skipSpace after
        split at h
        · cases h
        · rename_i he'
          rw [he'] at hs'
          split at h
          · cases h
            exact (List.suffix_cons _ _).trans (hs'.trans ((suffix_of_skipText ht).trans
              ((List.suffix_cons _ _).trans hs)))
          · cases h
    · cases h

theorem suffix_of_skipMemberName {b : Bracket} {cs rest : List Char}
    (h : skipMemberName b cs = .ok rest) : rest <:+ cs := by
  cases b with
  | list => cases h; exact List.suffix_refl _
  | object => exact suffix_of_skipKey h

/-- Skips what is due and all that the open brackets still want, the innermost first. -/
def skipFrom (due : Due) (opened : List Bracket) (cs : List Char) : Except Fault (List Char) :=
  match due, opened with
  | .complete, [] => .ok cs
  | .complete, b :: outer =>
    match hs : skipSpace cs with
    | [] => .error b.unclosed
    | c :: rest =>
      have : rest.length < cs.length := by
        have := (suffix_skipSpace cs).length_le
        rw [hs] at this
        exact this
      if c = b.close then skipFrom .complete outer rest
      else if c = ',' then
        match hm : skipMemberName b rest with
        | .error e => .error e
        | .ok after =>
          have : after.length ≤ rest.length := (suffix_of_skipMemberName hm).length_le
          skipFrom .value (b :: outer) after
      else .error b.unfinished
  | .opened, [] => skipFrom .value [] cs
  | .opened, b :: outer =>
    match hs : skipSpace cs with
    | [] => .error b.unclosed
    | c :: rest =>
      have : rest.length < cs.length := by
        have := (suffix_skipSpace cs).length_le
        rw [hs] at this
        exact this
      if c = b.close then skipFrom .complete outer rest
      else
        match hm : skipMemberName b (c :: rest) with
        | .error e => .error e
        | .ok after =>
          have : after.length ≤ (c :: rest).length := (suffix_of_skipMemberName hm).length_le
          skipFrom .value (b :: outer) after
  | .value, opened =>
    match hs : skipSpace cs with
    | [] => .error .eofValue
    | c :: rest =>
      have : rest.length < cs.length := by
        have := (suffix_skipSpace cs).length_le
        rw [hs] at this
        exact this
      if c = '[' then skipFrom .opened (.list :: opened) rest
      else if c = '\x7b' then skipFrom .opened (.object :: opened) rest
      else
        match hv : skipScalar (c :: rest) with
        | .error e => .error e
        | .ok after =>
          have : after.length ≤ (c :: rest).length := (suffix_of_skipScalar hv).length_le
          skipFrom .complete opened after
termination_by (cs.length, due.rank)
decreasing_by
  all_goals simp only [Prod.lex_def, Due.rank, List.length_cons, true_and] at *
  all_goals omega

/-- Skips one value and the white space before it. -/
def skipValue (cs : List Char) : Except Fault (List Char) := skipFrom .value [] cs

theorem suffix_of_skipFrom {due : Due} {opened : List Bracket} {cs rest : List Char}
    (h : skipFrom due opened cs = .ok rest) : rest <:+ cs := by
  have tail {c : Char} {after cs : List Char} (hs : skipSpace cs = c :: after) : after <:+ cs :=
    (List.suffix_cons c after).trans (hs ▸ suffix_skipSpace cs)
  have whole {c : Char} {after cs : List Char} (hs : skipSpace cs = c :: after) :
      c :: after <:+ cs := hs ▸ suffix_skipSpace cs
  fun_induction skipFrom due opened cs with
  | case1 => cases h; exact List.suffix_refl _
  | case2 => cases h
  | case3 _ _ _ _ hs _ ih => exact (ih h).trans (tail hs)
  | case4 => cases h
  | case5 _ _ _ _ _ hm _ hs _ _ ih =>
    exact (ih h).trans ((suffix_of_skipMemberName hm).trans (tail hs))
  | case6 => cases h
  | case7 _ ih => exact ih h
  | case8 => cases h
  | case9 _ _ _ _ hs _ ih => exact (ih h).trans (tail hs)
  | case10 => cases h
  | case11 _ _ _ _ _ hs _ _ _ hm _ ih =>
    exact (ih h).trans ((suffix_of_skipMemberName hm).trans (whole hs))
  | case12 => cases h
  | case13 _ _ _ hs _ ih => exact (ih h).trans (tail hs)
  | case14 _ _ _ hs _ _ ih => exact (ih h).trans (tail hs)
  | case15 => cases h
  | case16 _ _ _ _ hs _ _ _ _ hv _ ih =>
    exact (ih h).trans ((suffix_of_skipScalar hv).trans (whole hs))

theorem suffix_of_skipValue {cs rest : List Char} (h : skipValue cs = .ok rest) : rest <:+ cs :=
  suffix_of_skipFrom h

/-- Skips one value: its text without the white space before it, and what follows it. -/
def takeValue (cs : List Char) : Except Fault (List Char × List Char) :=
  match skipValue (skipSpace cs) with
  | .error e => .error e
  | .ok rest => .ok ((skipSpace cs).take ((skipSpace cs).length - rest.length), rest)

theorem takeValue_append {cs value rest : List Char} (h : takeValue cs = .ok (value, rest)) :
    value ++ rest = skipSpace cs := by
  unfold takeValue at h
  split at h
  · cases h
  · rename_i hs
    cases h
    obtain ⟨front, hf⟩ := suffix_of_skipValue hs
    rw [← hf]
    simp

theorem suffix_of_takeValue {cs value rest : List Char} (h : takeValue cs = .ok (value, rest)) :
    rest <:+ cs := by
  have := takeValue_append h
  exact (List.suffix_append value rest).trans (this ▸ suffix_skipSpace cs)

end ResumableUpload.Json
