import LexLint.Report.Stats
import LexLint.Report.Style
import LexLint.Source.Basic

/-!
Findings for people to read: on a terminal with the line at fault and a row of carets below it,
and elsewhere in one line each.
-/

namespace LexLint.Terminal

/-- How many carets mark a finding: as many as it has characters on its first line, and at least
one. -/
def caretCount (f : Finding) (lineStop : Nat) : Nat :=
  (max (min f.stop lineStop - f.start) 1).toNat

/-- A finding with its line, in a document with the given lines. -/
def render (ansi : Bool) (source : Source) (index : LineIndex) (f : Finding) : String :=
  let p := index.position f.start
  let colour := f.severity.colour
  let number := toString (p.line + 1)
  let gutter := String.ofList (List.replicate (number.length + 1) ' ')
  let pipe := boldIn ansi .blue "|"
  let carets := String.ofList
    (List.replicate (caretCount f (index.lineSpan p.line).stop) '^')
  let heading := boldIn ansi colour s!"{f.severity.text}[{f.code}]" ++ ": " ++
    boldIn ansi .white f.message
  let place := "  " ++ boldIn ansi .blue "-->" ++
    s!" {source.name}:{p.line + 1}:{p.column + 1}"
  let shown := " " ++ boldIn ansi .blue (" " ++ number) ++ " " ++ pipe ++ " " ++
    String.ofList (source.rawLine index p.line)
  let marked := " " ++ gutter ++ " " ++ pipe ++ " " ++
    String.ofList (List.replicate p.column ' ') ++ boldIn ansi colour carets
  let note := if f.checker.isEmpty then [] else
    ["  = " ++ boldIn ansi .cyan "note" ++ s!": reported by the '{f.checker}' checker"]
  let plain := faint ansi (f.gccLine source.name index)
  joinStrings "\n" ([heading, place, shown, marked] ++ note ++ [plain, ""]) ++ "\n"

/-- The colour of the counts. -/
def summaryColour (stats : Stats) : Colour :=
  if stats.errors ≠ 0 then .red else if stats.total ≠ 0 then .yellow else .green

def summary (ansi : Bool) (stats : Stats) : String :=
  boldIn ansi (summaryColour stats) ("  ╰─ " ++ stats.summaryLine) ++ "\n"

end LexLint.Terminal

namespace LexLint.Plain

def render (source : Source) (index : LineIndex) (f : Finding) : String :=
  f.gccLine source.name index ++ "\n"

def summary (stats : Stats) : String := "  " ++ stats.summaryLine ++ "\n"

end LexLint.Plain
