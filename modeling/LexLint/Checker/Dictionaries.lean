import LexLint.Checker.Basic
import LexLint.Scan.Brace
import LexLint.Scan.Word

/-!
Reports dictionary literals whose brace is missing or never closed. After the word `dict` only
blanks may stand before the brace, and it has to come within the window that the options give.
-/

namespace LexLint.Dictionaries

/-- How far an opening brace is away, if only blanks stand before it and it comes within the
window. -/
def braceWithin? : Nat → List Char → Option Nat
  | 0, _ => none
  | _ + 1, [] => none
  | window + 1, c :: rest =>
    if c = '\x7b' then some 0
    else if isBlank c then (braceWithin? window rest).map (· + 1)
    else none

/-- What is wrong with a dictionary literal. -/
inductive Fault where
  | missing (span : Span)
  | unclosed (span : Span)
  deriving DecidableEq, Repr

/-- The fault of the literal that a word `dict` begins. -/
def fault? (pairs : List BracePair) (window : Nat) (s : WordSite) : Option Fault :=
  match braceWithin? window s.after with
  | none => some (.missing ⟨s.word.start, s.word.stop⟩)
  | some distance =>
    let brace := s.word.stop + distance
    if isClosed pairs brace then none else some (.unclosed ⟨s.word.start, brace + 1⟩)

def faults (code : List Char) (window : Nat) : List Fault :=
  let pairs := pairBraces code
  ((scanSites code).filter (·.word.text == "dict")).filterMap (fault? pairs window)

def missingSite? : Fault → Option Site
  | .missing span =>
    some (.at .missingDictBrace
      "Dictionary declaration should be followed by \x7b (e.g., dict\x7bkey: value\x7d)"
      span.start span.stop)
  | .unclosed _ => none

def unclosedSite? : Fault → Option Site
  | .missing _ => none
  | .unclosed span =>
    some (.at .unclosedDict "Unclosed dictionary. Missing closing \x7d" span.start span.stop)

/-- Missing braces come before unclosed ones. -/
def sites (source : Source) (options : Options) : List Site :=
  let found := faults source.code options.lookaheadChars
  found.filterMap missingSite? ++ found.filterMap unclosedSite?

def checker : Checker :=
  .ofSites "dictionaries" "DictionaryChecker" "dict literals without or with unclosed braces"
    [.missingDictBrace, .unclosedDict] sites

end LexLint.Dictionaries
