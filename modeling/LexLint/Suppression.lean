import LexLint.Finding
import LexLint.Scan.Match
import LexLint.Source.Basic
import LexLint.Text.WordChar

/-!
Suppression of findings, by code for a whole run or by a comment for the comment's own line and
the line below it.
-/

namespace LexLint

/-- The code that stands for all codes. -/
def everyCode : String := "*"

/-- Adds an element that is not yet there. -/
def insertNew {α : Type} [DecidableEq α] (x : α) (xs : List α) : List α :=
  if x ∈ xs then xs else xs ++ [x]

theorem mem_insertNew {α : Type} [DecidableEq α] {x y : α} {xs : List α} :
    y ∈ insertNew x xs ↔ y = x ∨ y ∈ xs := by
  unfold insertNew
  split
  · constructor
    · exact Or.inr
    · rintro (rfl | h) <;> assumption
  · simp [or_comm]

namespace Marker

/-- A code name at the start of a text: an ASCII letter or underscore, then word constituents. -/
def codeName? : List Char → Option (List Char × List Char)
  | [] => none
  | c :: rest =>
    if isWordStart c then
      some (c :: rest.takeWhile isWordConstituent, rest.dropWhile isWordConstituent)
    else none

/-- The code names that follow a first one, each after a comma; blanks may stand around it.
At most `fuel` of them are read. -/
def moreCodes : Nat → List Char → List (List Char)
  | 0, _ => []
  | fuel + 1, s =>
    match trimStart s with
    | ',' :: rest =>
      match codeName? (trimStart rest) with
      | some (name, after) => name :: moreCodes fuel after
      | none => []
    | _ => []

/-- The code names after `=`, or nothing if there are none. -/
def codeList (s : List Char) : List (List Char) :=
  match trimStart s with
  | '=' :: rest =>
    match codeName? (trimStart rest) with
    | some (name, after) => name :: moreCodes after.length after
    | none => []
  | _ => []

/-- The codes that a marker at the start of a text suppresses. -/
def codes? (s : List Char) : Option (List String) := do
  let afterHash ← afterLiteral? ['#'] s
  let afterName ← afterLiteral? "tesseract-lint:".toList (trimStart afterHash)
  let afterVerb ← afterLiteral? "disable".toList (trimStart afterName)
  match codeList afterVerb with
  | [] => some [everyCode]
  | names => some (names.map String.ofList)

/-- The codes of the first marker in a text. -/
def firstCodes? : List Char → Option (List String)
  | [] => none
  | c :: rest =>
    match codes? (c :: rest) with
    | some codes => some codes
    | none => firstCodes? rest

end Marker

/-- The codes that a line's comment suppresses. The comment begins at the first `#` outside of
strings. -/
def Line.suppressedCodes? (line : Line) : Option (List String) :=
  let before := line.masked.takeWhile (· != '#')
  if before.length = line.masked.length then none
  else Marker.firstCodes? (line.raw.drop before.length)

/-- Codes suppressed on a line. -/
structure InlineRule where
  line : Nat
  codes : List String
  deriving DecidableEq, Repr

/-- The rules in force: codes suppressed everywhere, codes suppressed by line, and the lines of
the document that the rules were read from last. -/
structure Suppressions where
  globals : List String := []
  inline : List InlineRule := []
  index : Option LineIndex := none
  deriving DecidableEq, Repr

/-- Rules with codes added to a line. -/
def addInlineRule (line : Nat) (codes : List String) : List InlineRule → List InlineRule
  | [] => [⟨line, codes.foldl (fun cs c => insertNew c cs) []⟩]
  | r :: rest =>
    if r.line = line then ⟨line, codes.foldl (fun cs c => insertNew c cs) r.codes⟩ :: rest
    else r :: addInlineRule line codes rest

namespace Suppressions

/-- Suppresses a code everywhere. -/
def suppress (s : Suppressions) (code : String) : Suppressions :=
  { s with globals := insertNew code s.globals }

def suppressAll (s : Suppressions) (codes : List String) : Suppressions :=
  codes.foldl suppress s

/-- Adds the rules of a document's comments. -/
def load (s : Suppressions) (source : Source) : Suppressions :=
  { s with
    index := some source.index
    inline := source.lines.foldl (fun rules line =>
      match line.suppressedCodes? with
      | some codes => addInlineRule line.number codes rules
      | none => rules) s.inline }

/-- The global rules with the comments of one document, and no others. -/
def forSource (s : Suppressions) (source : Source) : Suppressions :=
  load { globals := s.globals } source

/-- A list of codes covers a code. -/
def covers (codes : List String) (code : String) : Bool :=
  codes.contains code || codes.contains everyCode

/-- A rule for the finding's line, or for the line above, covers its code. -/
def suppressedInline (s : Suppressions) (f : Finding) : Bool :=
  match s.index with
  | none => false
  | some index =>
    if s.inline.isEmpty then false
    else
      let line := (index.position f.start).line
      s.inline.any fun r => (r.line == line || r.line + 1 == line) && covers r.codes f.code

def isSuppressed (s : Suppressions) (f : Finding) : Bool :=
  covers s.globals f.code || s.suppressedInline f

/-- The findings that no rule suppresses, in their order. -/
def filter (s : Suppressions) (findings : List Finding) : List Finding :=
  findings.filter (!s.isSuppressed ·)

end Suppressions

end LexLint
