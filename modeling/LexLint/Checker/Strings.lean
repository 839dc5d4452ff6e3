import LexLint.Checker.Basic
import LexLint.Scan.StringLiteral

/-!
Reports string literals that reach the end of their line unclosed.
-/

namespace LexLint.Strings

def site (span : Span) : Site :=
  .at .unclosedString "Unclosed string literal" span.start span.stop

def sites (source : Source) (_ : Options) : List Site :=
  (scanUnclosedStrings source.text).map site

def checker : Checker :=
  .ofSites "strings" "StringLiteralChecker" "Unclosed string literals" [.unclosedString] sites

end LexLint.Strings
