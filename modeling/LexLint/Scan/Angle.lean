import LexLint.Source.LineIndex

/-!
Runs of text in angle brackets on one line, as type annotations are written.
-/

namespace LexLint

/-- A run in angle brackets: its span, brackets included, and what stands between them. -/
structure AngleSpan where
  span : Span
  inner : List Char
  deriving DecidableEq, Repr

/-- What stands before the closing bracket, if it comes within `limit` characters and before
another opening bracket and the end of the line. -/
def angleInner? : Nat → List Char → Option (List Char)
  | 0, _ => none
  | _ + 1, [] => none
  | limit + 1, c :: rest =>
    if c = '>' then some []
    else if c = '<' ∨ c = '\n' then none
    else (angleInner? limit rest).map (c :: ·)

/-- Every opening bracket is tried, also behind one that has a run. No bracket opens inside a run,
so that going on behind its end comes to the same. -/
def scanAnglesFrom (limit offset : Nat) : List Char → List AngleSpan
  | [] => []
  | c :: rest =>
    if c = '<' then
      match angleInner? limit rest with
      | some inner =>
        ⟨⟨offset, offset + inner.length + 2⟩, inner⟩ :: scanAnglesFrom limit (offset + 1) rest
      | none => scanAnglesFrom limit (offset + 1) rest
    else scanAnglesFrom limit (offset + 1) rest

/-- The runs in angle brackets whose closing bracket is at most `limit` characters after the
opening one. -/
def scanAngles (limit : Nat) (text : List Char) : List AngleSpan := scanAnglesFrom limit 0 text

end LexLint
