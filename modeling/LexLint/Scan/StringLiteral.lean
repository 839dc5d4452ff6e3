import LexLint.Source.LineIndex

/-!
String literals that reach the end of their line, or of the text, unclosed.
-/

namespace LexLint

/-- Where a scan for strings stands: in code or in a string, with a backslash pending or not, or
in a comment. -/
inductive StringMode where
  | code (escaped : Bool)
  | string (start : Nat) (escaped : Bool)
  | comment
  deriving DecidableEq, Repr

/-- The unclosed strings from an offset on. -/
def scanUnclosedStringsFrom (offset : Nat) (mode : StringMode) : List Char → List Span
  | [] =>
    match mode with
    | .string start _ => [⟨start, offset⟩]
    | _ => []
  | c :: rest =>
    match mode with
    | .comment =>
      scanUnclosedStringsFrom (offset + 1) (if c = '\n' then .code false else .comment) rest
    | .code escaped =>
      if c = '#' then scanUnclosedStringsFrom (offset + 1) .comment rest
      else if c = '\\' then scanUnclosedStringsFrom (offset + 1) (.code (!escaped)) rest
      else if c = '"' ∧ escaped = false then
        scanUnclosedStringsFrom (offset + 1) (.string offset false) rest
      else scanUnclosedStringsFrom (offset + 1) (.code false) rest
    | .string start escaped =>
      if c = '\\' then scanUnclosedStringsFrom (offset + 1) (.string start (!escaped)) rest
      else if c = '"' ∧ escaped = false then
        scanUnclosedStringsFrom (offset + 1) (.code false) rest
      else if c = '\n' then
        ⟨start, offset⟩ :: scanUnclosedStringsFrom (offset + 1) (.code false) rest
      else scanUnclosedStringsFrom (offset + 1) (.string start false) rest

/-- The spans of unclosed strings, from the opening quote to the end of the line. A quote inside a
comment opens no string. -/
def scanUnclosedStrings (text : List Char) : List Span :=
  scanUnclosedStringsFrom 0 (.code false) text

end LexLint
