import LexLint.Checker.Basic
import LexLint.Scan.Bracket

/-!
Reports brackets that do not match. Brackets inside strings and comments count only if the
options say so.
-/

namespace LexLint.Brackets

def site (event : BracketEvent) : Site :=
  let (code, message) : Code × String :=
    match event.fault with
    | .mismatch found expected =>
      (.mismatchedBracket,
        s!"Mismatched bracket: found '{found.closer}' but expected '{expected.closer}'")
    | .unexpected found =>
      (.unexpectedBracket, s!"Unexpected closing bracket '{found.closer}' with nothing open")
    | .unclosed opened =>
      (.unclosedBracket, s!"Unclosed '{opened.opener}': missing '{opened.closer}'")
  .at code message event.offset (event.offset + 1)

def sites (source : Source) (options : Options) : List Site :=
  let view := if options.ignoreStrings then source.code else source.text
  (scanBrackets view).map site

def checker : Checker :=
  .ofSites "brackets" "BracketChecker" "Mismatched, unexpected and unclosed brackets"
    [.mismatchedBracket, .unexpectedBracket, .unclosedBracket] sites

end LexLint.Brackets
