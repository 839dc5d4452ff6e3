import LexLint.Json.Basic
import LexLint.Text.Integer

/-!
Reading JSON text. Every reader takes the text from some place on and answers the value there
with the text after it. Numbers without digits are written by name: `NaN`, `Infinity` and
`-Infinity`.
-/

namespace LexLint.Json

/-- The text after the blanks that may stand between the parts of a value. -/
def skipBlanks (s : List Char) : List Char :=
  s.dropWhile fun c => c == ' ' || c == '\n' || c == '\r' || c == '\t'

/-- The character of a one-letter escape. -/
def shortEscape? (c : Char) : Option Char :=
  match c with
  | '"' => some '"'
  | '\\' => some '\\'
  | '/' => some '/'
  | 'b' => some '\x08'
  | 'f' => some '\x0c'
  | 'n' => some '\n'
  | 'r' => some '\r'
  | 't' => some '\t'
  | _ => none

/-- The sixteen-bit unit of four base-sixteen digits. -/
def unit? (a b c d : Char) : Option Nat := do
  let a ← hexValue? a
  let b ← hexValue? b
  let c ← hexValue? c
  let d ← hexValue? d
  return ((a * 16 + b) * 16 + c) * 16 + d

/-- The rest of a string, after the characters `done`, latest first. `high` is the first unit of
a pair whose second is still to come. -/
def readString (high : Option Nat) (done : List Char) : List Char → Option (String × List Char)
  | [] => none
  | '"' :: rest => if high.isSome then none else some (String.ofList done.reverse, rest)
  | '\\' :: 'u' :: a :: b :: c :: d :: rest =>
    match unit? a b c d, high with
    | none, _ => none
    | some n, none =>
      if 0xD800 ≤ n ∧ n < 0xDC00 then readString (some n) done rest
      else if 0xDC00 ≤ n ∧ n < 0xE000 then none
      else readString none (Char.ofNat n :: done) rest
    | some n, some h =>
      if 0xDC00 ≤ n ∧ n < 0xE000 then
        readString none (Char.ofNat (0x10000 + (h - 0xD800) * 0x400 + (n - 0xDC00)) :: done) rest
      else none
  | '\\' :: c :: rest =>
    match shortEscape? c, high with
    | some c, none => readString none (c :: done) rest
    | _, _ => none
  | c :: rest =>
    if high.isSome || c == '\\' then none else readString none (c :: done) rest

/-- The decimal digits at the start of a text. -/
def readDigits (s : List Char) : List Char × List Char :=
  (s.takeWhile Char.isDigit, s.dropWhile Char.isDigit)

def digitsValue (ds : List Char) : Nat := ofDigitValues (ds.map fun c => c.toNat - 48)

/-- The fraction of a number: the digits after a point. -/
def readFraction (s : List Char) : List Char × List Char :=
  match s with
  | '.' :: rest =>
    let (ds, after) := readDigits rest
    if ds.isEmpty then ([], s) else (ds, after)
  | _ => ([], s)

/-- The exponent of a number. -/
def readExponent (s : List Char) : Option Int × List Char :=
  match s with
  | c :: rest =>
    if c == 'e' || c == 'E' then
      let (negative, body) :=
        match rest with
        | '-' :: body => (true, body)
        | '+' :: body => (false, body)
        | _ => (false, rest)
      let (ds, after) := readDigits body
      if ds.isEmpty then (none, s)
      else
        let n : Int := digitsValue ds
        (some (if negative then -n else n), after)
    else (none, s)
  | [] => (none, s)

/-- A number: whole without fraction and exponent, and otherwise the nearest floating-point
number. -/
def readNumber (s : List Char) : Option (Json × List Char) :=
  let (negative, body) :=
    match s with
    | '-' :: body => (true, body)
    | _ => (false, s)
  let (whole, afterWhole) := readDigits body
  if whole.isEmpty then
    match body with
    | 'I' :: 'n' :: 'f' :: 'i' :: 'n' :: 'i' :: 't' :: 'y' :: rest =>
      some (.real (.infinite negative), rest)
    | _ => none
  else
    let (fraction, afterFraction) := readFraction afterWhole
    let (exponent, rest) := readExponent afterFraction
    if fraction.isEmpty && exponent.isNone then
      let n : Int := digitsValue whole
      some (.int (if negative then -n else n), rest)
    else
      let scale := exponent.getD 0 - fraction.length
      some (.real (.ofDecimal negative (digitsValue (whole ++ fraction)) scale), rest)

mutual

/-- A value, in at most `fuel` nested steps. -/
def readValue : Nat → List Char → Option (Json × List Char)
  | 0, _ => none
  | fuel + 1, s =>
    match skipBlanks s with
    | 'n' :: 'u' :: 'l' :: 'l' :: rest => some (.null, rest)
    | 't' :: 'r' :: 'u' :: 'e' :: rest => some (.bool true, rest)
    | 'f' :: 'a' :: 'l' :: 's' :: 'e' :: rest => some (.bool false, rest)
    | 'N' :: 'a' :: 'N' :: rest => some (.real .undefined, rest)
    | '"' :: rest => (readString none [] rest).map fun (t, after) => (.str t, after)
    | '[' :: rest =>
      match skipBlanks rest with
      | ']' :: after => some (.arr [], after)
      | body => (readItems fuel body).map fun (items, after) => (.arr items, after)
    | '\x7b' :: rest =>
      match skipBlanks rest with
      | '\x7d' :: after => some (.obj [], after)
      | body => (readFields fuel [] body).map fun (fields, after) => (.obj fields, after)
    | body => readNumber body

/-- The items of an array up to its closing bracket. -/
def readItems : Nat → List Char → Option (List Json × List Char)
  | 0, _ => none
  | fuel + 1, s =>
    match readValue fuel s with
    | none => none
    | some (item, rest) =>
      match skipBlanks rest with
      | ']' :: after => some ([item], after)
      | ',' :: after => (readItems fuel after).map fun (items, after') => (item :: items, after')
      | _ => none

/-- The fields of an object up to its closing brace, after the fields `done`. -/
def readFields : Nat → List (String × Json) → List Char →
    Option (List (String × Json) × List Char)
  | 0, _, _ => none
  | fuel + 1, done, s =>
    match skipBlanks s with
    | '"' :: keyText =>
      match readString none [] keyText with
      | none => none
      | some (key, afterKey) =>
        match skipBlanks afterKey with
        | ':' :: valueText =>
          match readValue fuel valueText with
          | none => none
          | some (value, rest) =>
            match skipBlanks rest with
            | '\x7d' :: after => some (putField key value done, after)
            | ',' :: after => readFields fuel (putField key value done) after
            | _ => none
        | _ => none
    | _ => none

end

/-- The value that a whole text stands for. -/
def parse? (s : String) : Option Json :=
  let cs := s.toList
  match readValue (2 * cs.length + 2) cs with
  | some (v, rest) => if (skipBlanks rest).isEmpty then some v else none
  | none => none

end LexLint.Json
