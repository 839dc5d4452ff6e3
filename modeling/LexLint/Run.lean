import LexLint.Registry

/-!
A run of checkers on one document. Checkers run in turn; each sees the names that those before it
declared, and the failure of one does not stop the others.
-/

namespace LexLint

/-- What a run is set up with. -/
structure Runner where
  registry : Registry := .builtin
  suppressions : Suppressions := {}
  options : Options := {}

/-- What a run found: the name and the findings of each checker, in the order of their turns. -/
structure RunResult where
  source : Source
  turns : List (String × List Finding)

/-- Replaces a key's value in its place, or adds it last. -/
def putEntry {α : Type} (key : String) (value : α) : List (String × α) → List (String × α)
  | [] => [(key, value)]
  | (k, v) :: rest => if k = key then (k, value) :: rest else (k, v) :: putEntry key value rest

/-- The turns of checkers on a document, given the names declared before. -/
def takeTurns (context : Context) (rules : Suppressions) (declared : List String) :
    List Checker → List (String × List Finding)
  | [] => []
  | checker :: rest =>
    let (findings, declared) := checker.report context rules declared
    (checker.name, findings) :: takeTurns context rules declared rest

namespace Runner

/-- Runs checkers that have been chosen already. -/
def runCheckers (runner : Runner) (source : Source) (checkers : List Checker) : RunResult :=
  ⟨source, takeTurns ⟨source, runner.options⟩ (runner.suppressions.forSource source) [] checkers⟩

/-- Runs the checkers with the given names, or all enabled ones. -/
def run (runner : Runner) (source : Source) (names : Option (List String)) :
    Except ConfigError RunResult :=
  (runner.registry.resolve names).map (runner.runCheckers source)

end Runner

namespace RunResult

/-- All findings, in the order of the turns. -/
def findings (r : RunResult) : List Finding := r.turns.flatMap (·.2)

/-- The checkers that ran, in the order of their turns. -/
def checkerNames (r : RunResult) : List String := r.turns.map (·.1)

/-- The findings of each checker's last turn, in the order of their first turns. -/
def byChecker (r : RunResult) : List (String × List Finding) :=
  r.turns.foldl (fun entries t => putEntry t.1 t.2 entries) []

def withSeverity (r : RunResult) (severity : Severity) : List Finding :=
  r.findings.filter (·.severity == severity)

def withCode (r : RunResult) (code : String) : List Finding := r.findings.filter (·.code == code)

def errorCount (r : RunResult) : Nat := (r.withSeverity .error).length

def warningCount (r : RunResult) : Nat := (r.withSeverity .warning).length

/-- One JSON object a line. -/
def jsonLines (r : RunResult) : String :=
  let index := r.source.index
  joinStrings "\n" (r.findings.map fun f => (f.toJson (some index)).line)

/-- One line a finding, under a path or the document's own name. -/
def gccLines (r : RunResult) (path : String) : String :=
  let index := r.source.index
  let name := if path.isEmpty then r.source.name else path
  joinStrings "\n" (r.findings.map fun f => f.gccLine name index)

/-- How many findings a checker's last turn had. -/
def countOf (r : RunResult) (name : String) : Nat :=
  ((r.byChecker.find? (·.1 == name)).map (·.2.length)).getD 0

/-- The counts of a run, in all and by checker. -/
def summary (r : RunResult) : String :=
  let total := s!"{r.source.name}: {r.findings.length} findings " ++
    s!"({r.errorCount} errors, {r.warningCount} warnings)"
  joinStrings "\n" (total :: r.checkerNames.map fun name =>
    s!"  {name}: {r.countOf name} findings (0.0ms)")

end RunResult

/-- The findings of a document under overrides, with the checkers of the language. -/
def analyze (source : Source) (overrides : List (String × Json)) (names : Option (List String)) :
    Except OptionFailure (List Finding) := do
  let options ← Options.load overrides []
  let result ← (({ options := options } : Runner).run source names).mapError .config
  return result.findings

end LexLint
