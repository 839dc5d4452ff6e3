import LexLint.Decimal.Binary64

/-!
The shortest decimal of a floating-point number: the fewest digits that read back as the number,
and of those the nearest to it.
-/

namespace LexLint

/-- The decimal `digits · 10 ^ exponent`. -/
structure Decimal where
  digits : Nat
  exponent : Int
  deriving DecidableEq, Repr

namespace Shortest

/-- The numbers between `low` and `high`, all over one denominator, round to `value`; the ends do
if `closed`. -/
structure Interval where
  low : Nat
  value : Nat
  high : Nat
  den : Nat
  closed : Bool

/-- What rounds to `mantissa · 2 ^ exponent`. The gap below a power of two is half as wide. -/
def Interval.around (mantissa : Nat) (exponent : Int) : Interval :=
  let (up, down) := Binary64.powFraction 2 (exponent - 2)
  let below := if mantissa = Nat.pow 2 52 ∧ Binary64.minExponent < exponent then 1 else 2
  { low := (4 * mantissa - below) * up
    value := 4 * mantissa * up
    high := (4 * mantissa + 2) * up
    den := down
    closed := mantissa % 2 = 0 }

/-- The fraction `num / den` rounds to the interval's value. -/
def Interval.holds (i : Interval) (num den : Nat) : Bool :=
  let left := i.low * den
  let right := i.high * den
  let x := num * i.den
  if i.closed then left ≤ x ∧ x ≤ right else left < x ∧ x < right

/-- The power of ten that is just above the interval's value. -/
def Interval.magnitude (i : Interval) : Int :=
  let guess : Int := (Binary64.decimalLength i.value : Int) - Binary64.decimalLength i.den
  let (up, down) := Binary64.powFraction 10 guess
  if i.den * up ≤ i.value * down then guess + 1 else guess

/-- The better of the value's two neighbours among the multiples of `10 ^ exponent`, if one reads
back. -/
def Interval.onGrid? (i : Interval) (exponent : Int) : Option Nat :=
  let (up, down) := Binary64.powFraction 10 exponent
  let lower := i.value * down / (i.den * up)
  let upper := lower + 1
  let lowerFits := i.holds (lower * up) down
  let upperFits := i.holds (upper * up) down
  if lowerFits && upperFits then
    let below := i.value * down - lower * up * i.den
    let above := upper * up * i.den - i.value * down
    some (if below < above ∨ (below = above ∧ lower % 2 = 0) then lower else upper)
  else if lowerFits then some lower
  else if upperFits then some upper
  else none

/-- Tries `count` digits and more, `tries` times. -/
def Interval.search (i : Interval) (top : Int) (count : Nat) : Nat → Decimal
  | 0 =>
    let (up, down) := Binary64.powFraction 10 (top - count)
    ⟨i.value * down / (i.den * up), top - count⟩
  | tries + 1 =>
    match i.onGrid? (top - count) with
    | some digits => ⟨digits, top - count⟩
    | none => i.search top (count + 1) tries

end Shortest

/-- The shortest decimal that reads back as `mantissa · 2 ^ exponent`; seventeen digits always
do. -/
def shortestDecimal (mantissa : Nat) (exponent : Int) : Decimal :=
  if mantissa = 0 then ⟨0, 0⟩
  else
    let i := Shortest.Interval.around mantissa exponent
    i.search i.magnitude 1 17

/-- The significant digits of a decimal and the place of its point: the value is
`0.digits · 10 ^ point`. -/
def Decimal.significant (d : Decimal) : List Char × Int :=
  let all := Nat.toDigits 10 d.digits
  let kept := (all.reverse.dropWhile (· == '0')).reverse
  (if kept.isEmpty then ['0'] else kept, d.exponent + all.length)

/-- The text of a decimal: positional from `0.0001` up to below `10 ^ 16`, always with a point,
and otherwise with an exponent of at least two digits. -/
def Decimal.text (d : Decimal) : String :=
  let (ds, point) := d.significant
  let zeros := fun (n : Int) => List.replicate n.toNat '0'
  if d.digits = 0 then "0.0"
  else if -4 < point ∧ point ≤ 16 then
    if point ≤ 0 then String.ofList (['0', '.'] ++ zeros (-point) ++ ds)
    else if (ds.length : Int) ≤ point then
      String.ofList (ds ++ zeros (point - ds.length) ++ ['.', '0'])
    else String.ofList (ds.take point.toNat ++ ['.'] ++ ds.drop point.toNat)
  else
    let e := point - 1
    let fraction := if ds.length ≤ 1 then ds else ds.take 1 ++ ['.'] ++ ds.drop 1
    let exponent := Nat.toDigits 10 e.natAbs
    let padded := List.replicate (2 - exponent.length) '0' ++ exponent
    String.ofList (fraction ++ ['e', if e < 0 then '-' else '+'] ++ padded)

/-- The text of a floating-point number. -/
def Binary64.text : Binary64 → String
  | .finite negative m e => (if negative then "-" else "") ++ (shortestDecimal m e).text
  | .infinite negative => if negative then "-inf" else "inf"
  | .undefined => "nan"

end LexLint
