import LexLint.Options
import LexLint.Suppression

/-!
Checkers. A checker works in three phases: it configures itself, which may declare names, it
collects suspicious sites, and it turns them into sites to report. Names declared by one checker
are seen by those that run after it. A phase may fail; what it declared before stays declared.
-/

namespace LexLint

/-- What a checker reads. -/
structure Context where
  source : Source
  options : Options

/-- A step that reads and extends the declared names, and may fail with a message. The options and
the rules of suppression are read only: the names are all that checkers of a run share and change,
and a checker that writes to anything else of the run is not one of these. -/
abbrev Phase (α : Type) := ExceptT String (StateM (List String)) α

/-- Runs a phase on declared names: its result or failure, and the names declared afterwards. -/
def Phase.outcome {α : Type} (phase : Phase α) (declared : List String) :
    Except String α × List String :=
  (phase.run).run declared

/-- Declares names. -/
def declareNames (names : List String) : Phase Unit :=
  modify fun declared => names.foldl (fun ns n => insertNew n ns) declared

/-- Something to report: a code, a message and a range, and a severity if it is not the
checker's own. -/
structure Site where
  code : String
  message : String
  start : Int
  stop : Int
  severity : Option Severity := none
  deriving DecidableEq, Repr

/-- A site with one of the known codes. -/
def Site.at (code : Code) (message : String) (start stop : Nat) : Site :=
  { code := code.text, message := message, start := start, stop := stop }

structure Checker where
  name : String
  /-- The name of the checker's kind. -/
  title : String
  description : String
  /-- The codes of the checker's findings. -/
  codes : List String
  /-- The severity of its findings, where a site does not say otherwise. -/
  severity : Severity
  configure : Context → Phase Unit
  collect : Context → Phase (List Site)
  diagnose : Context → List Site → Phase (List Site)

namespace Checker

/-- The finding for a site, its range moved into a text of the given length. -/
def finding (checker : Checker) (length : Nat) (site : Site) : Finding :=
  let start := max 0 (min site.start length)
  { start := start
    stop := max start (min site.stop length)
    message := site.message
    severity := site.severity.getD checker.severity
    code := site.code
    checker := checker.name }

/-- All phases in turn: the findings of a checker before suppression. -/
def emit (checker : Checker) (context : Context) : Phase (List Finding) := do
  checker.configure context
  let collected ← checker.collect context
  let sites ← checker.diagnose context collected
  return sites.map (checker.finding context.source.length)

/-- The finding that reports the failure of a checker. -/
def failure (checker : Checker) (message : String) : Finding :=
  { start := 0
    stop := 0
    message := s!"Checker '{checker.name}' failed: {message}"
    severity := .warning
    code := Code.checkerInternalError.text
    checker := checker.name }

/-- The findings of a checker in a run, and the names declared afterwards. A failure takes the
place of all findings and is never suppressed. -/
def report (checker : Checker) (context : Context) (rules : Suppressions)
    (declared : List String) : List Finding × List String :=
  match (checker.emit context).outcome declared with
  | (.ok findings, declared) => (rules.filter findings, declared)
  | (.error message, declared) => ([checker.failure message], declared)

/-- A checker that declares nothing and finds its sites from the document and the options alone. -/
def ofSites (name title description : String) (codes : List Code)
    (sites : Source → Options → List Site) : Checker :=
  { name := name
    title := title
    description := description
    codes := codes.map Code.text
    severity := .error
    configure := fun _ => pure ()
    collect := fun context => pure (sites context.source context.options)
    diagnose := fun _ sites => pure sites }

def summary (checker : Checker) : String := s!"<{checker.title} '{checker.name}'>"

end Checker

end LexLint
