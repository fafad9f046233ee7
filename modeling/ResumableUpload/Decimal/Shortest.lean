/-!
# The shortest decimal text of a binary64 value

`shortest` finds the decimal with the fewest digits that lies in the interval of reals rounding to
a given positive binary64 value, the nearest one if there are several. `renderShortest` lays the
digits out: positionally from `0.00001` up to sixteen digits before the point, else with an
exponent that carries its sign and no zeros in front.
-/

namespace ResumableUpload.Decimal

/-- A positive binary64 value `mantissa * 2 ^ exponent`. -/
structure Binary where
  mantissa : Nat
  exponent : Int
  /-- The gap to the value below is half the gap to the value above. -/
  narrowBelow : Bool
  deriving DecidableEq, Repr

/-- The magnitude that the bits of a finite binary64 value stand for. -/
def Binary.ofBits (bits : UInt64) : Binary :=
  let field : Nat := bits.toNat / (1 <<< 52) % 2048
  let fraction : Nat := bits.toNat % (1 <<< 52)
  if field = 0 then ⟨fraction, -1074, false⟩
  else ⟨(1 <<< 52) + fraction, (field : Int) - 1075, fraction == 0 && field != 1⟩

/-- A decimal `digits * 10 ^ exponent`. -/
structure Digits where
  digits : Nat
  exponent : Int
  deriving DecidableEq, Repr

/-- The fraction `num / den`, multiplied by `10 ^ shift`. -/
def shiftTen (num den : Nat) (shift : Int) : Nat × Nat :=
  if 0 ≤ shift then (num * Nat.pow 10 shift.toNat, den) else (num, den * Nat.pow 10 (-shift).toNat)

/-- The least `k` from `start` on, within `fuel` steps, for which `num * 10 ^ k` reaches `den`. -/
def stepsToUnit (num den : Nat) : Nat → Nat → Nat
  | 0, start => start
  | fuel + 1, start =>
    if den ≤ num * Nat.pow 10 start then start else stepsToUnit num den fuel (start + 1)

/-- The place of the leading digit of `num / den`. -/
def leadingPlace (num den : Nat) : Int :=
  if den ≤ num then ((Nat.toDigits 10 (num / den)).length : Int) - 1
  else -(stepsToUnit num den 400 1 : Int)

/-- The multiple of `10 ^ place` nearest to the value among its two neighbours on that grid that
round to the value; a tie goes to the even digit. -/
def onGrid (b : Binary) (place : Int) : Option Digits :=
  let scale (quarters : Nat) : Nat × Nat :=
    let e := b.exponent - 2
    let (num, den) :=
      if 0 ≤ e then (quarters * Nat.pow 2 e.toNat, 1) else (quarters, Nat.pow 2 (-e).toNat)
    shiftTen num den (-place)
  let (num, den) := scale (4 * b.mantissa)
  let (low, _) := scale (4 * b.mantissa - if b.narrowBelow then 1 else 2)
  let (high, _) := scale (4 * b.mantissa + 2)
  let closed := b.mantissa % 2 == 0
  let fits (d : Nat) : Bool :=
    if closed then low ≤ d * den && d * den ≤ high else low < d * den && d * den < high
  let below := num / den
  let above := below + 1
  match fits below, fits above with
  | false, false => none
  | true, false => some ⟨below, place⟩
  | false, true => some ⟨above, place⟩
  | true, true =>
    let left := num - below * den
    let right := above * den - num
    if left < right || (left == right && below % 2 == 0) then some ⟨below, place⟩
    else some ⟨above, place⟩

/-- Drops the zeros at the end of the digits, `fuel` at most. -/
def Digits.trim : Nat → Digits → Digits
  | 0, d => d
  | fuel + 1, d =>
    if d.digits != 0 && d.digits % 10 == 0 then trim fuel ⟨d.digits / 10, d.exponent + 1⟩ else d

/-- The shortest decimal that rounds to a positive value. -/
def shortest (b : Binary) : Digits :=
  let (num, den) :=
    if 0 ≤ b.exponent then (b.mantissa * Nat.pow 2 b.exponent.toNat, 1)
    else (b.mantissa, Nat.pow 2 (-b.exponent).toNat)
  let lead := leadingPlace num den
  let found := (List.range 17).findSome? fun (n : Nat) => onGrid b (lead - n)
  (found.getD ⟨b.mantissa, 0⟩).trim 20

/-- Digits laid out positionally or with an exponent. -/
def Digits.render (d : Digits) : String :=
  let ds := Nat.toDigits 10 d.digits
  let count : Int := ds.length
  let point := count + d.exponent
  if 0 ≤ d.exponent ∧ point ≤ 16 then
    String.ofList (ds ++ List.replicate d.exponent.toNat '0') ++ ".0"
  else if 0 < point ∧ point ≤ 16 then
    String.ofList (ds.take point.toNat) ++ "." ++ String.ofList (ds.drop point.toNat)
  else if -5 < point ∧ point ≤ 0 then
    "0." ++ String.ofList (List.replicate (-point).toNat '0' ++ ds)
  else
    let mark := if 1 ≤ point then "e+" else "e-"
    let tail := if ds.length = 1 then "" else "." ++ String.ofList (ds.drop 1)
    String.ofList (ds.take 1) ++ tail ++ mark ++ String.ofList (Nat.toDigits 10 (point - 1).natAbs)

/-- The text of the finite binary64 value with these bits. -/
def renderShortest (bits : UInt64) : String :=
  let sign := if bits.toNat / (1 <<< 63) = 1 then "-" else ""
  let b := Binary.ofBits bits
  if b.mantissa = 0 then sign ++ "0.0" else sign ++ (shortest b).render

end ResumableUpload.Decimal
