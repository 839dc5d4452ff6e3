import LexLint.Text.Letter

/-!
Occurrences of a pattern in a text. A pattern is a recogniser: given the text from some place on,
it answers what it captures there and how many characters it takes.
-/

namespace LexLint

/-- An occurrence: where it stands and what it captures. -/
structure Match (α : Type) where
  start : Nat
  stop : Nat
  value : α
  deriving Repr

/-- What a pattern captures at the start of a text, and the text after it. -/
abbrev Recogniser (α : Type) := List Char → Option (α × List Char)

/-- No word constituent stands directly before. -/
def atWordEdge : Option Char → Bool
  | none => true
  | some c => !isWordConstituent c

/-- The occurrences from an offset on, after the character `before`, passing over `skip`
characters that belong to the occurrence last found. -/
def findAllFrom {α : Type} (edge : Bool) (recognise : Recogniser α) (offset : Nat)
    (before : Option Char) (skip : Nat) : List Char → List (Match α)
  | [] => []
  | c :: rest =>
    match skip with
    | skip + 1 => findAllFrom edge recognise (offset + 1) (some c) skip rest
    | 0 =>
      if edge && !atWordEdge before then
        findAllFrom edge recognise (offset + 1) (some c) 0 rest
      else
        match recognise (c :: rest) with
        | none => findAllFrom edge recognise (offset + 1) (some c) 0 rest
        | some (value, after) =>
          let taken := rest.length + 1 - after.length
          ⟨offset, offset + taken, value⟩ ::
            findAllFrom edge recognise (offset + 1) (some c) (taken - 1) rest

/-- The occurrences of a pattern, left to right and without overlap. With `edge`, one counts only
if no word constituent stands directly before it. -/
def findAll {α : Type} (edge : Bool) (recognise : Recogniser α) (text : List Char) :
    List (Match α) :=
  findAllFrom edge recognise 0 none 0 text

/-- The text after a literal at its start. -/
def afterLiteral? : List Char → List Char → Option (List Char)
  | [], s => some s
  | _ :: _, [] => none
  | p :: ps, c :: cs => if p = c then afterLiteral? ps cs else none

theorem afterLiteral?_eq_some {literal s rest : List Char} :
    afterLiteral? literal s = some rest ↔ s = literal ++ rest := by
  induction literal generalizing s with
  | nil => simp [afterLiteral?, eq_comm]
  | cons p ps ih =>
    cases s with
    | nil => simp [afterLiteral?]
    | cons c cs =>
      by_cases h : p = c
      · simp [afterLiteral?, h, ih]
      · simp [afterLiteral?, h, Ne.symm h]

/-- A literal stands at some place of a text. -/
def holdsLiteral (literal : List Char) : List Char → Bool
  | [] => literal.isEmpty
  | c :: rest => (afterLiteral? literal (c :: rest)).isSome || holdsLiteral literal rest

end LexLint
