import LexLint.Text.Hex

/-!
Reading octets as UTF-8, one octet at a time. A refusal says which octets are at fault and why:
no character starts with the octet, the octet cannot continue the character before it, or the
octets end inside a character.
-/

namespace LexLint.Utf8

/-- Why octets are not UTF-8. -/
inductive Reason where
  | invalidStart
  | invalidContinuation
  | unexpectedEnd
  deriving DecidableEq, Repr

def Reason.text : Reason → String
  | .invalidStart => "invalid start byte"
  | .invalidContinuation => "invalid continuation byte"
  | .unexpectedEnd => "unexpected end of data"

/-- The octets at fault, by the offset of the first and one past the last, with the value of the
first of them. -/
structure Fault where
  first : UInt8
  start : Nat
  stop : Nat
  reason : Reason
  deriving DecidableEq, Repr

/-- A character that has begun: its octets so far, the bits they gave, how many octets are owed,
and the least and the greatest that the next one may be. -/
structure Pending where
  first : UInt8
  start : Nat
  bits : Nat
  owed : Nat
  low : Nat
  high : Nat

/-- The character that an octet from `0xC2` to `0xF4` begins. -/
def Pending.begin? (b : UInt8) (offset : Nat) : Option Pending :=
  let n := b.toNat
  if 0xC2 ≤ n ∧ n ≤ 0xDF then some ⟨b, offset, n - 0xC0, 1, 0x80, 0xBF⟩
  else if n = 0xE0 then some ⟨b, offset, 0, 2, 0xA0, 0xBF⟩
  else if n = 0xED then some ⟨b, offset, 0xD, 2, 0x80, 0x9F⟩
  else if 0xE1 ≤ n ∧ n ≤ 0xEF then some ⟨b, offset, n - 0xE0, 2, 0x80, 0xBF⟩
  else if n = 0xF0 then some ⟨b, offset, 0, 3, 0x90, 0xBF⟩
  else if 0xF1 ≤ n ∧ n ≤ 0xF3 then some ⟨b, offset, n - 0xF0, 3, 0x80, 0xBF⟩
  else if n = 0xF4 then some ⟨b, offset, 4, 3, 0x80, 0x8F⟩
  else none

/-- Reads octets that start at `offset`, after the characters `done`, latest first. -/
def decodeFrom (offset : Nat) (pending : Option Pending) (done : List Char) :
    List UInt8 → Except Fault (List Char)
  | [] =>
    match pending with
    | none => .ok done.reverse
    | some p => .error ⟨p.first, p.start, offset, .unexpectedEnd⟩
  | b :: rest =>
    match pending with
    | none =>
      if b.toNat < 0x80 then decodeFrom (offset + 1) none (Char.ofNat b.toNat :: done) rest
      else
        match Pending.begin? b offset with
        | some p => decodeFrom (offset + 1) (some p) done rest
        | none => .error ⟨b, offset, offset + 1, .invalidStart⟩
    | some p =>
      if p.low ≤ b.toNat ∧ b.toNat ≤ p.high then
        let bits := p.bits * 64 + (b.toNat - 0x80)
        if p.owed ≤ 1 then decodeFrom (offset + 1) none (Char.ofNat bits :: done) rest
        else
          decodeFrom (offset + 1) (some ⟨p.first, p.start, bits, p.owed - 1, 0x80, 0xBF⟩) done rest
      else .error ⟨p.first, p.start, offset, .invalidContinuation⟩

/-- The characters that the octets stand for. -/
def decode (octets : List UInt8) : Except Fault (List Char) := decodeFrom 0 none [] octets

/-- The octets at fault and what is wrong with them. -/
def Fault.message (f : Fault) : String :=
  let octet := String.ofList (hexDigits 2 f.first.toNat)
  if f.stop = f.start + 1 then
    s!"'utf-8' codec can't decode byte 0x{octet} in position {f.start}: " ++ f.reason.text
  else
    s!"'utf-8' codec can't decode bytes in position {f.start}-{f.stop - 1}: " ++ f.reason.text

end LexLint.Utf8
