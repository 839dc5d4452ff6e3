import LexLint.Text.Blank
import LexLint.Text.DecimalDigit

/-!
Whole numbers written in a setting: blanks around them, a sign, decimal digits of any script and
single underscores between digits. A number with too many digits is neither read nor written out.
-/

namespace LexLint

/-- The most digits a number may have. -/
def maxIntegerDigits : Nat := 4300

/-- What can go wrong with a number that is one. -/
inductive NumberFault where
  /-- A whole number was to be made of an infinity. -/
  | infinite
  /-- A number has too many digits to be written out. -/
  | tooLong
  deriving DecidableEq, Repr

def NumberFault.message : NumberFault → String
  | .infinite => "cannot convert float infinity to integer"
  | .tooLong => s!"Exceeds the limit ({maxIntegerDigits} digits) for integer string conversion; " ++
      "use sys.set_int_max_str_digits() to increase the limit"

/-- A number has no more digits than a number may have. -/
def HasShortText (n : Int) : Prop := n.natAbs < Nat.pow 10 maxIntegerDigits

instance (n : Int) : Decidable (HasShortText n) :=
  inferInstanceAs (Decidable (n.natAbs < Nat.pow 10 maxIntegerDigits))

/-- A whole number written out. -/
def integerText? (n : Int) : Option String := if HasShortText n then some (toString n) else none

/-- Blanks allowed around a number: all but the separator controls of ASCII. -/
def isNumberBlank (c : Char) : Bool :=
  isBlank c && !(0x1C ≤ c.toNat && c.toNat ≤ 0x1F)

/-- The digit values of a text that alternates digits and single underscores, beginning and ending
with a digit. `afterDigit` tells whether the character before was a digit. -/
def groupedDigits? (afterDigit : Bool) : List Char → Option (List Nat)
  | [] => if afterDigit then some [] else none
  | c :: rest =>
    if c = '_' then
      if afterDigit then groupedDigits? false rest else none
    else
      match digitValue? c with
      | some d => (groupedDigits? true rest).map (d :: ·)
      | none => none

/-- The number that digits, highest first, stand for. -/
def ofDigitValues (digits : List Nat) : Nat := digits.foldl (fun n d => 10 * n + d) 0

/-- A whole number without sign or blanks. -/
def natural? (s : List Char) : Option Nat :=
  (groupedDigits? false s).bind fun digits =>
    if digits.length ≤ maxIntegerDigits then some (ofDigitValues digits) else none

/-- A whole number as a setting may write it. -/
def integer? (s : List Char) : Option Int :=
  let body := ((s.dropWhile isNumberBlank).reverse.dropWhile isNumberBlank).reverse
  match body with
  | '+' :: rest => (natural? rest).map Int.ofNat
  | '-' :: rest => (natural? rest).map fun n => -(n : Int)
  | _ => (natural? body).map Int.ofNat

end LexLint
