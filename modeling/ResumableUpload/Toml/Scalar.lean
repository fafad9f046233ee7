import ResumableUpload.Toml.Text

/-!
# Values of one word in TOML

Numbers, flags, dates and times are words of letters, digits and a few marks; only between a date
and a time may there be a space. `readScalar` reads such a value.
-/

namespace ResumableUpload.Toml

/-- A value. Floats, dates, times, arrays and inline tables have to be spelled correctly, but what
they hold is of no interest. -/
inductive Value
  | text (s : String)
  | integer (n : Int)
  | flag (b : Bool)
  | other
  deriving DecidableEq, Repr

/-! ### Digits -/

/-- The digits of a number, without the underscores that may stand between two of them. -/
def digits? (isDigit : Char → Bool) : List Char → Option (List Char)
  | [] => none
  | [c] => if isDigit c then some [c] else none
  | c :: '_' :: cs => if isDigit c then (digits? isDigit cs).map (c :: ·) else none
  | c :: cs => if isDigit c then (digits? isDigit cs).map (c :: ·) else none

/-- The digits of a decimal number, of which a further one may not follow a leading zero. -/
def decimal? (cs : List Char) : Option (List Char) :=
  match digits? Char.isDigit cs with
  | some ('0' :: _ :: _) => none
  | ds => ds

/-- The number that digits of a base up to sixteen spell. -/
def numberOf (base : Nat) (ds : List Char) : Nat :=
  ds.foldl (fun n d => n * base + (hexDigit? d).getD 0) 0

/-- A sign at the front: whether it is negative, and what follows. -/
def signOf : List Char → Bool × List Char
  | '+' :: cs => (false, cs)
  | '-' :: cs => (true, cs)
  | cs => (false, cs)

/-! ### Integers -/

/-- The number of a literal with digits of another base than ten. -/
def based? (base : Nat) (isDigit : Char → Bool) (cs : List Char) : Option Int :=
  (digits? isDigit cs).map fun ds => (numberOf base ds : Int)

/-- The number of a decimal literal. -/
def signed? (cs : List Char) : Option Int :=
  let (negative, cs) := signOf cs
  (decimal? cs).map fun ds => if negative then -(numberOf 10 ds : Int) else numberOf 10 ds

/-- An integer in any base, of 64 bits with a sign. -/
def integer? (cs : List Char) : Option Int :=
  let n := match cs with
    | '0' :: 'x' :: ds => based? 16 (fun c => (hexDigit? c).isSome) ds
    | '0' :: 'o' :: ds => based? 8 (fun c => '0' ≤ c ∧ c ≤ '7') ds
    | '0' :: 'b' :: ds => based? 2 (fun c => c = '0' ∨ c = '1') ds
    | cs => signed? cs
  n.filter fun n => Int64.minValue.toInt ≤ n ∧ n ≤ Int64.maxValue.toInt

/-! ### Floats -/

/-- The decimal number `m * 10 ^ e` is rounded to infinity in binary64: it lies at least half a step
above the largest finite value. -/
def roundsToInfinity (m : Nat) (e : Int) : Bool :=
  let places := ((toString m).length : Int) + e
  if m = 0 ∨ places ≤ 308 then false
  else if 310 < places then true
  else decide ((Nat.pow 2 1024 - Nat.pow 2 970) * Nat.pow 10 (-e).toNat ≤ m * Nat.pow 10 e.toNat)

/-- The exponent of a float after its letter. -/
def exponent? (cs : List Char) : Option Int :=
  let (negative, cs) := signOf cs
  (digits? Char.isDigit cs).map fun ds =>
    if negative then -(numberOf 10 ds : Int) else numberOf 10 ds

/-- A mark that ends the digits before it. -/
def isExponentMark (c : Char) : Bool := c == 'e' || c == 'E'

/-- The parts of a float without its sign: the digits before the point, those after it, and the
exponent. One of the two latter must be there. -/
def floatParts? (cs : List Char) : Option (List Char × List Char × Int) := do
  let whole ← decimal? (cs.takeWhile fun c => c != '.' && !isExponentMark c)
  match cs.dropWhile fun c => c != '.' && !isExponentMark c with
  | '.' :: rest =>
    let places ← digits? Char.isDigit (rest.takeWhile (!isExponentMark ·))
    match rest.dropWhile (!isExponentMark ·) with
    | [] => some (whole, places, 0)
    | _ :: e => some (whole, places, ← exponent? e)
  | _ :: e => some (whole, [], ← exponent? e)
  | [] => none

/-- A float; none that is positive and spelled with digits may round to infinity. -/
def isFloat (cs : List Char) : Bool :=
  let (negative, cs) := signOf cs
  if cs = ['i', 'n', 'f'] ∨ cs = ['n', 'a', 'n'] then true
  else
    match floatParts? cs with
    | some (whole, places, e) =>
      negative || !roundsToInfinity (numberOf 10 (whole ++ places)) (e - places.length)
    | none => false

/-! ### Dates and times -/

/-- The number of exactly `count` digits at the front, and what follows them. -/
def fixedDigits? (count : Nat) (cs : List Char) : Option (Nat × List Char) :=
  let ds := cs.take count
  if ds.length = count ∧ ds.all Char.isDigit then some (numberOf 10 ds, cs.drop count) else none

/-- A leap year of the Gregorian calendar. -/
def isLeapYear (y : Nat) : Bool := y % 4 = 0 ∧ (y % 100 ≠ 0 ∨ y % 400 = 0)

/-- The number of days in a month. -/
def daysIn (year month : Nat) : Nat :=
  if month = 2 then if isLeapYear year then 29 else 28
  else if month = 4 ∨ month = 6 ∨ month = 9 ∨ month = 11 then 30
  else 31

/-- What follows a date at the front. -/
def afterDate? (cs : List Char) : Option (List Char) := do
  let (year, '-' :: cs) ← fixedDigits? 4 cs | none
  let (month, '-' :: cs) ← fixedDigits? 2 cs | none
  let (day, cs) ← fixedDigits? 2 cs
  if 1 ≤ month ∧ month ≤ 12 ∧ 1 ≤ day ∧ day ≤ daysIn year month then some cs else none

/-- What follows an hour and a minute at the front. -/
def afterMinutes? (cs : List Char) : Option (List Char) := do
  let (hour, ':' :: cs) ← fixedDigits? 2 cs | none
  let (minute, cs) ← fixedDigits? 2 cs
  if hour < 24 ∧ minute < 60 then some cs else none

/-- What follows a time at the front, which may have a leap second and parts of seconds. -/
def afterTime? (cs : List Char) : Option (List Char) := do
  let ':' :: cs ← afterMinutes? cs | none
  let (second, cs) ← fixedDigits? 2 cs
  if 60 < second then none
  else
    match cs with
    | '.' :: c :: rest => if c.isDigit then some (rest.dropWhile Char.isDigit) else none
    | cs => some cs

/-- A time with its distance from universal time, which may be missing. -/
def isTimeWithOffset (cs : List Char) : Bool :=
  match afterTime? cs with
  | none => false
  | some rest =>
    match rest with
    | [] | ['z'] | ['Z'] => true
    | '+' :: rest | '-' :: rest => afterMinutes? rest == some []
    | _ => false

/-- A date, a time, or both. -/
def isMoment (cs : List Char) : Bool :=
  match afterDate? cs with
  | some [] => true
  | some (c :: rest) => (c == 't' || c == 'T' || c == ' ') && isTimeWithOffset rest
  | none => afterTime? cs == some []

/-! ### Words -/

/-- A character of a word. -/
def isWordChar (c : Char) : Bool :=
  c.isAlphanum || c == '+' || c == '-' || c == '_' || c == '.' || c == ':'

/-- The value that a word spells. -/
def wordValue? (cs : List Char) : Option Value :=
  if cs = ['t', 'r', 'u', 'e'] then some (.flag true)
  else if cs = ['f', 'a', 'l', 's', 'e'] then some (.flag false)
  else if isMoment cs || isFloat cs then some .other
  else (integer? cs).map .integer

/-- The word at the front: a time that a space divides from a date belongs to it. -/
def takeWord (cs : List Char) : List Char :=
  let first := cs.takeWhile isWordChar
  match cs.dropWhile isWordChar with
  | ' ' :: rest =>
    let moment := first ++ ' ' :: rest.takeWhile isWordChar
    if isMoment moment then moment else first
  | _ => first

/-- Reads a value of one word. -/
def readScalar (cs : List Char) : Option (Value × List Char) :=
  let word := takeWord cs
  (wordValue? word).map (·, cs.drop word.length)

end ResumableUpload.Toml
