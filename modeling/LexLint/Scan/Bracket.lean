/-!
Matching of curly, square and round brackets in one pass over a text.
-/

namespace LexLint

inductive Bracket where
  | curly
  | square
  | round
  deriving DecidableEq, Repr

namespace Bracket

def opener : Bracket → Char
  | .curly => '\x7b'
  | .square => '['
  | .round => '('

def closer : Bracket → Char
  | .curly => '\x7d'
  | .square => ']'
  | .round => ')'

/-- The bracket that a character opens. -/
def ofOpener? (c : Char) : Option Bracket :=
  if c = '\x7b' then some .curly
  else if c = '[' then some .square
  else if c = '(' then some .round
  else none

/-- The bracket that a character closes. -/
def ofCloser? (c : Char) : Option Bracket :=
  if c = '\x7d' then some .curly
  else if c = ']' then some .square
  else if c = ')' then some .round
  else none

theorem ofOpener?_eq_some {c : Char} {b : Bracket} : ofOpener? c = some b ↔ c = b.opener := by
  constructor
  · intro h
    simp only [ofOpener?] at h
    split at h
    · simp_all [opener]; subst h; rfl
    · split at h
      · simp_all; subst h; rfl
      · split at h
        · simp_all; subst h; rfl
        · simp at h
  · rintro rfl
    cases b <;> decide

theorem ofCloser?_eq_some {c : Char} {b : Bracket} : ofCloser? c = some b ↔ c = b.closer := by
  constructor
  · intro h
    simp only [ofCloser?] at h
    split at h
    · simp_all; subst h; rfl
    · split at h
      · simp_all; subst h; rfl
      · split at h
        · simp_all; subst h; rfl
        · simp at h
  · rintro rfl
    cases b <;> decide

end Bracket

/-- What is wrong with a bracket. -/
inductive BracketFault where
  /-- A closing bracket of another kind than the one last opened. -/
  | mismatch (found : Bracket) (expected : Bracket)
  /-- A closing bracket with nothing open. -/
  | unexpected (found : Bracket)
  /-- An opening bracket that nothing closes. -/
  | unclosed (opened : Bracket)
  deriving DecidableEq, Repr

/-- A fault and the offset of the bracket at fault. -/
structure BracketEvent where
  fault : BracketFault
  offset : Nat
  deriving DecidableEq, Repr

namespace BracketEvent

def kind (e : BracketEvent) : String :=
  match e.fault with
  | .mismatch .. => "mismatch"
  | .unexpected _ => "unexpected"
  | .unclosed _ => "unclosed"

/-- The bracket at fault as it stands in the text. -/
def char (e : BracketEvent) : Char :=
  match e.fault with
  | .mismatch found _ => found.closer
  | .unexpected found => found.closer
  | .unclosed opened => opened.opener

/-- The closing bracket that would have been right. -/
def expected? (e : BracketEvent) : Option Char :=
  match e.fault with
  | .mismatch _ expected => some expected.closer
  | .unexpected _ => none
  | .unclosed opened => some opened.closer

end BracketEvent

/-- Matches brackets from an offset on, with the brackets still open, latest first. A closing
bracket takes the latest open one off, of whatever kind. -/
def scanBracketsFrom (offset : Nat) (stack : List (Bracket × Nat)) :
    List Char → List BracketEvent
  | [] => stack.reverse.map fun (b, o) => ⟨.unclosed b, o⟩
  | c :: rest =>
    match Bracket.ofOpener? c with
    | some b => scanBracketsFrom (offset + 1) ((b, offset) :: stack) rest
    | none =>
      match Bracket.ofCloser? c with
      | none => scanBracketsFrom (offset + 1) stack rest
      | some b =>
        match stack with
        | [] => ⟨.unexpected b, offset⟩ :: scanBracketsFrom (offset + 1) [] rest
        | (opened, _) :: below =>
          if opened = b then scanBracketsFrom (offset + 1) below rest
          else ⟨.mismatch b opened, offset⟩ :: scanBracketsFrom (offset + 1) below rest

/-- The bracket faults of a text: wrong closing brackets where they stand, then the unclosed
opening ones in text order. -/
def scanBrackets (text : List Char) : List BracketEvent := scanBracketsFrom 0 [] text

end LexLint
