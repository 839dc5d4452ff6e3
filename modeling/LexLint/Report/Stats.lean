import LexLint.Finding

/-!
Counts of findings over all documents of a report.
-/

namespace LexLint

structure Stats where
  errors : Int := 0
  warnings : Int := 0
  files : Int := 0
  deriving DecidableEq, Repr

namespace Stats

def record (s : Stats) : Severity → Stats
  | .error => { s with errors := s.errors + 1 }
  | .warning => { s with warnings := s.warnings + 1 }

def total (s : Stats) : Int := s.errors + s.warnings

/-- A number with a noun, in the plural unless the number is one. -/
def counted (n : Int) (noun : String) : String :=
  if n = 1 then s!"{n} {noun}" else s!"{n} {noun}s"

/-- The counts in one line. -/
def summaryLine (s : Stats) : String :=
  let parts := (if s.errors = 0 then [] else [counted s.errors "error"]) ++
    (if s.warnings = 0 then [] else [counted s.warnings "warning"])
  if parts.isEmpty then "no findings in " ++ counted s.files "file"
  else joinStrings "; " parts ++ s!" ({s.total} total)"

end Stats

end LexLint
