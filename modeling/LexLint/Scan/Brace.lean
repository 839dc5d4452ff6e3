/-!
Pairing of curly braces, whatever other brackets stand between them.
-/

namespace LexLint

/-- The offset of an opening brace and of the brace that closes it. -/
structure BracePair where
  opened : Nat
  closed : Option Nat
  deriving DecidableEq, Repr

/-- The pairs from an offset on, in the order in which they are settled, with the offsets of the
braces still open, latest first. A closing brace with nothing open is passed over. -/
def pairBracesFrom (offset : Nat) (stack : List Nat) : List Char → List BracePair
  | [] => stack.map fun o => ⟨o, none⟩
  | c :: rest =>
    if c = '\x7b' then pairBracesFrom (offset + 1) (offset :: stack) rest
    else if c = '\x7d' then
      match stack with
      | [] => pairBracesFrom (offset + 1) [] rest
      | o :: below => ⟨o, some offset⟩ :: pairBracesFrom (offset + 1) below rest
    else pairBracesFrom (offset + 1) stack rest

/-- Every opening brace of a text with the brace that closes it, in text order. -/
def pairBraces (text : List Char) : List BracePair :=
  (pairBracesFrom 0 [] text).mergeSort fun a b => a.opened ≤ b.opened

/-- The brace opened at an offset is closed. -/
def isClosed (pairs : List BracePair) (offset : Nat) : Bool :=
  pairs.any fun p => p.opened == offset && p.closed.isSome

end LexLint
