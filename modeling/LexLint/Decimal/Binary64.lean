/-!
Numbers of 64-bit floating point, held exactly as a whole number times a power of two, and the
rounding of a decimal fraction to the nearest of them.
-/

namespace LexLint

/-- A finite number `±mantissa · 2 ^ exponent`, an infinity, or the result of an operation that
has none. -/
inductive Binary64 where
  | finite (negative : Bool) (mantissa : Nat) (exponent : Int)
  | infinite (negative : Bool)
  | undefined
  deriving DecidableEq, Repr

namespace Binary64

/-- The least exponent of a finite number. -/
def minExponent : Int := -1074

/-- The greatest exponent of a finite number. -/
def maxExponent : Int := 971

/-- A quotient rounded to the nearest whole number, a half to the even one. -/
def roundHalfEven (num den : Nat) : Nat :=
  let q := num / den
  let r := num % den
  if den < 2 * r ∨ (2 * r = den ∧ q % 2 = 1) then q + 1 else q

/-- The power `base ^ exponent` as a fraction. -/
def powFraction (base : Nat) (exponent : Int) : Nat × Nat :=
  (base.pow exponent.toNat, base.pow (-exponent).toNat)

/-- The exponent at which the quotient, divided by that power of two, has 53 bits. -/
def scaleExponent (num den : Nat) : Int :=
  let guess : Int := (num.log2 : Int) - den.log2 - 53
  let (up, down) := powFraction 2 guess
  if Nat.pow 2 53 * (den * up) ≤ num * down then guess + 1 else guess

/-- The nearest number to a positive quotient. -/
def ofQuotient (negative : Bool) (num den : Nat) : Binary64 :=
  let e := max minExponent (scaleExponent num den)
  let (up, down) := powFraction 2 e
  let m := roundHalfEven (num * down) (den * up)
  let (m, e) := if m = Nat.pow 2 53 then (Nat.pow 2 52, e + 1) else (m, e)
  if maxExponent < e then .infinite negative else .finite negative m e

/-- The number of decimal digits. -/
def decimalLength (n : Nat) : Nat := (Nat.toDigits 10 n).length

/-- The nearest number to `±digits · 10 ^ scale`. -/
def ofDecimal (negative : Bool) (digits : Nat) (scale : Int) : Binary64 :=
  let magnitude := scale + decimalLength digits
  if digits = 0 ∨ magnitude < -400 then .finite negative 0 0
  else if 400 < magnitude then .infinite negative
  else
    let (up, down) := powFraction 10 scale
    ofQuotient negative (digits * up) down

/-- A finite number without its fraction. -/
def truncate? : Binary64 → Option Int
  | .finite negative m e =>
    let (up, down) := powFraction 2 e
    let n : Int := m * up / down
    some (if negative then -n else n)
  | _ => none

end Binary64

end LexLint
