import LexLint.CommandLine.World
import LexLint.Run

/-!
What the program does when it is called: a function from its arguments and the world around it to
its exit code, what it writes, and the files it leaves.
-/

namespace LexLint.CommandLine

def exitFindings : Nat := 1

def exitFailure : Nat := 2

def exitInterrupted : Nat := 130

/-- Why a call ends early. -/
inductive Abort where
  /-- Something that the caller got wrong. -/
  | failure (message : String)
  /-- Standard output did not take a text. -/
  | output (fault : OutputFault)
  | interrupted
  | crash (cause : Crash)
  deriving DecidableEq, Repr

/-- What has been written so far, and whether standard input has been read. -/
structure Transcript where
  /-- What has been handed to standard output. -/
  out : String := ""
  err : String := ""
  files : FileTree
  inputRead : Bool := false

/-- A part of a call, which may end it early; what was written before stays written. -/
abbrev Session (α : Type) := ExceptT Abort (StateM Transcript) α

inductive LogLevel where
  | debug
  | info
  | error
  deriving DecidableEq, Repr

def LogLevel.text : LogLevel → String
  | .debug => "DEBUG"
  | .info => "INFO "
  | .error => "ERROR"

/-- How often the caller has to ask for more to see a level. -/
def LogLevel.threshold : LogLevel → Nat
  | .debug => 2
  | .info => 1
  | .error => 0

/-- A log line, if it is to be seen. -/
def logLine (verbosity : Nat) (level : LogLevel) (logger message : String) : String :=
  if level.threshold ≤ verbosity then s!"[{level.text}] {logger}: {message}\n" else ""

namespace Session

/-- Hands a text to standard output, which may fail. -/
def writeOut (output : Outlet) (text : String) : Session Unit := do
  let before := (← get).out
  modify fun t => { t with out := t.out ++ text }
  match output.writeFault? before text with
  | some fault => throw (.output fault)
  | none => return

/-- Hands a text to standard output and has it passed on: the failure, if there is one, which does
not end the call yet. -/
def writeThrough (output : Outlet) (text : String) : Session (Option OutputFault) := do
  let before := (← get).out
  modify fun t => { t with out := t.out ++ text }
  return (output.writeFault? before text).or (output.flushFault? (before ++ text))

def writeErr (text : String) : Session Unit :=
  modify fun t => { t with err := t.err ++ text }

/-- Writes a text from a position on into the file at a place. -/
def writeFile (place : List String) (position : Nat) (text : String) : Session Unit :=
  modify fun t => { t with files := t.files.put place position text.toUTF8.toList }

/-- Writes a text into the file at a place, or to standard output. -/
def writeTo (output : Outlet) (place : Option (List String)) (text : String) : Session Unit :=
  match place with
  | none => writeOut output text
  | some place => writeFile place 0 text

def log (verbosity : Nat) (level : LogLevel) (logger message : String) : Session Unit :=
  writeErr (logLine verbosity level logger message)

end Session

/-! ### Reading documents -/

/-- Why a document cannot be read, as the program says it. -/
def unreadable (path reason : String) : Abort := .failure s!"cannot read {path}: {reason}"

/-- The document on standard input. Once it has been read, nothing is left. -/
def readInput (world : World) : Session Source := do
  let name := "<stdin>"
  if (← get).inputRead then return ⟨name, []⟩
  match world.input with
  | none => throw .interrupted
  | some octets =>
    modify fun t => { t with inputRead := true }
    match Utf8.decode octets with
    | .error fault => throw (.crash (.encoding fault))
    | .ok text => return ⟨name, normalizeNewlines text⟩

/-- Asking the system for a path with a NUL in it ends the program. -/
def requirePath (path : String) : Session Unit :=
  if hasNul path then throw (.crash .nulInPath) else return

/-- The document at a path. -/
def readFile (path : String) : Session Source := do
  requirePath path
  match (← get).files.read path with
  | .error .noEntry => throw (unreadable path "no such file")
  | .error .accessDenied => throw (unreadable path "permission denied")
  | .error .isDirectory => throw (unreadable path "is a directory")
  | .error e => throw (.failure (e.message path))
  | .ok octets =>
    match Utf8.decode octets with
    | .error fault => throw (unreadable path s!"not valid UTF-8 ({fault.reason.text})")
    | .ok text => return ⟨path, text⟩

def readSource (world : World) (path : String) : Session Source :=
  if path = "-" then readInput world else readFile path

/-! ### Checking -/

/-- The options under the environment and the command's own override. -/
def checkOptions (world : World) (verbosity : Nat) (request : CheckRequest) :
    Session Options := do
  let (settings, error) := environmentSettings world.environment OptionKey.all
  for s in settings do
    Session.log verbosity .debug "tesseract_lint.config"
      (s!"option {s.key.text}=" ++ s.key.quoteValue s.value ++
        s!" from {s.key.environmentName}")
  match error with
  | some (.config e) => throw (.failure e.message)
  | some (.number fault) => throw (.crash (.number fault))
  | none =>
    let o := Options.apply {} settings
    return if request.rawBrackets then { o with ignoreStrings := false } else o

/-- The names in all of an option's texts, which all have to be there. -/
def allNames (texts : List (Option String)) : Session (List String) :=
  texts.foldlM (fun names text => match text with
    | some s => pure (names ++ commaNames s)
    | none => throw (.crash .valueMissing)) []

/-- The names of the checkers to run, of those given and those to skip. All names have to be
known, also those of checkers to skip. -/
def checkerNames (given skipped : List String) : Except ConfigError (List String) :=
  let selected := if given.isEmpty then Registry.builtin.names else given
  let disabled := skipped.foldl (fun ns n => insertNew n ns) []
  (Registry.builtin.resolve (some (selected ++ sortStrings disabled))).map fun _ =>
    selected.filter fun n => !disabled.contains n

/-- Reads and checks one document. -/
def checkPath (world : World) (verbosity : Nat) (runner : Runner) (names : List String)
    (path : String) : Session RunResult := do
  let source ← readSource world path
  Session.log verbosity .info "tesseract_lint"
    s!"checking {source.name} ({source.length} chars)"
  match runner.run source (some names) with
  | .error e => throw (.failure e.message)
  | .ok result =>
    for (name, findings) in result.turns do
      Session.log verbosity .debug "tesseract_lint.checkers"
        s!"{name}: {findings.length} findings in 0.00ms"
    return result

/-- One JSON object a line, with the document's name in front. -/
def jsonRecords (results : List RunResult) : String :=
  joinStrings "\n" (results.flatMap fun r =>
    let index := r.source.index
    r.findings.map fun f =>
      (Json.obj (("file", .str r.source.name) :: f.fields ++ f.positionFields index)).line)

/-- The text of results in a format that is no report by document. A format without a name is a
summary. -/
def formatResults (world : World) (files : FileTree) (format : Option OutputFormat)
    (results : List RunResult) : Except PageFailure String :=
  let reports := results.map fun r => (⟨r.source, r.findings⟩ : Report)
  match format with
  | some .json => .ok (jsonRecords results)
  | some .gcc => .ok (joinStrings "\n" ((results.map (·.gccLines "")).filter (!·.isEmpty)))
  | some .sarif => .ok (sarifReport reports toolName)
  | some .html => (htmlPage reports).render world.engine files world.environment ""
  | some .text => .ok ""
  | _ => .ok (joinStrings "\n" (results.map (·.summary)))

/-- Takes a step for each item, up to the first step that standard output fails. -/
def takeUntilFault {α β : Type} (step : β → α → Session (β × Option OutputFault)) :
    β → List α → Session (β × Option OutputFault)
  | b, [] => return (b, none)
  | b, a :: rest => do
    match ← step b a with
    | (next, some fault) => return (next, some fault)
    | (next, none) => takeUntilFault step next rest

/-- Shows a finding on standard output. One that is not passed on is counted all the same. -/
def showFinding (output : Outlet) (source : Source) (index : LineIndex) (r : Reporter)
    (f : Finding) : Session (Reporter × Option OutputFault) := do
  match ← Session.writeThrough output (Reporter.renderFinding r.settings source index f) with
  | some fault => return (r.countFinding f, some fault)
  | none => return (r.add source index f, none)

/-- Shows the findings of a document on standard output. -/
def showReport (output : Outlet) (r : Reporter) (report : Report) :
    Session (Reporter × Option OutputFault) :=
  takeUntilFault (showFinding output report.source report.source.index) r.countDocument
    report.findings

/-- Writes the side files of a report, and what is said about them. -/
def finishReport (reporter : Reporter) : Session (Option Crash) := do
  let outcome := reporter.finish (← get).files
  modify fun t => { t with files := outcome.files }
  Session.writeErr outcome.err
  return outcome.crash

/-- Ends the call if something has gone wrong. What went wrong last counts. -/
def endReport (fault : Option OutputFault) (crash : Option Crash) : Session Unit :=
  match crash, fault with
  | some crash, _ => throw (.crash crash)
  | none, some fault => throw (.output fault)
  | none, none => return

/-- Ends a report on standard output, which a fault may have cut short: the counts and the side
files come all the same. -/
def closeReport (output : Outlet) (reporter : Reporter) (fault : Option OutputFault) :
    Session Unit := do
  Session.writeOut output reporter.closing
  endReport fault (← finishReport reporter)

/-- Reports documents on standard output, up to the first finding that it does not take. -/
def reportToOutput (output : Outlet) (settings : ReportSettings) (reports : List Report) :
    Session Unit := do
  let (reporter, fault) ←
    takeUntilFault (showReport output) { settings := settings } reports
  closeReport output reporter fault

/-- Reports documents into a file, which takes all that is written. The counts are written when it
is closed, after the side files. -/
def reportToFile (place : List String) (settings : ReportSettings) (reports : List Report) :
    Session Unit := do
  let reporter := Reporter.reportAll settings reports
  Session.writeFile place 0 reporter.out
  let crash ← finishReport reporter
  Session.writeFile place reporter.out.utf8ByteSize reporter.closing
  endReport none crash

/-- How results are shown as a report by document. -/
def reportSettings (world : World) (request : CheckRequest) : ReportSettings where
  colour := if request.output.isNone then request.colour else some false
  streamIsTerminal := world.output.terminal
  outputIsTerminal := world.output.terminal
  environment := world.environment
  engine := world.engine

/-- Writes results into the file at a place, or to standard output, in the format asked for. -/
def writeResults (world : World) (request : CheckRequest) (results : List RunResult)
    (place : Option (List String)) : Session Unit := do
  if request.format = some .text then
    let settings := reportSettings world request
    let reports := results.map fun r => (⟨r.source, r.findings⟩ : Report)
    match place with
    | none => reportToOutput world.output settings reports
    | some place => reportToFile place settings reports
  else
    match formatResults world (← get).files request.format results with
    | .error failure =>
      match failure.crash? with
      | some crash => throw (.crash crash)
      | none => throw (.failure failure.message)
    | .ok text => if !text.isEmpty then Session.writeTo world.output place (text ++ "\n")

/-- A format as a log line names it. -/
def formatName : Option OutputFormat → String
  | some format => format.name
  | none => "[]"

/-- Opens the output file, and answers its place. -/
def openOutput (path : String) : Session (List String) := do
  requirePath path
  match (← get).files.create path with
  | .error e => throw (.failure (e.message path))
  | .ok (place, files) =>
    modify fun t => { t with files := files }
    return place

/-- The command `check`. -/
def runCheck (world : World) (verbosity : Nat) (request : CheckRequest) : Session Nat := do
  let suppressed ← allNames request.suppress
  let options ← checkOptions world verbosity request
  let given ← allNames request.checkers
  let skipped ← allNames request.disable
  let runner : Runner :=
    { suppressions := ({} : Suppressions).suppressAll suppressed, options := options }
  match checkerNames given skipped with
  | .error e => throw (.failure e.message)
  | .ok names =>
    let results ← request.paths.mapM (checkPath world verbosity runner names)
    let output := request.output.getD ""
    if output.isEmpty then writeResults world request results none
    else
      let place ← openOutput output
      writeResults world request results (some place)
      Session.log verbosity .info "tesseract_lint"
        s!"wrote {formatName request.format} report to {output}"
    return if results.any (0 < ·.errorCount) then exitFindings else 0

/-! ### The other commands -/

/-- A text followed by spaces up to a width. -/
def padded (width : Nat) (s : String) : String :=
  s ++ String.ofList (List.replicate (width - s.length) ' ')

/-- The texts that the command `list-checkers` writes, one after the other. -/
def listCheckersTexts (request : ListRequest) : List String :=
  let checkers := Registry.builtin.checkers.flatMap fun c =>
    [padded 16 c.name ++ " " ++ c.description ++ "\n",
     padded 16 "" ++ " codes: " ++ joinStrings ", " (sortStrings c.codes) ++ "\n"]
  let options := ({} : Options).items.map fun s =>
    "  " ++ padded 28 s.key.text ++ " " ++ s.key.showValue s.value ++ "\n"
  checkers ++ if request.options then "\noptions:\n" :: options else []

/-- A text with each line indented by four spaces. -/
def indented (s : String) : String :=
  joinStrings "\n" ((splitAtChar '\n' s.toList).map fun line =>
    if (trim line).isEmpty then String.ofList line else "    " ++ String.ofList line)

/-- The texts that explain one vocabulary word. -/
def entryTexts (e : VocabularyEntry) : List String :=
  s!"{e.canonical}  ({e.kind.text})\n  {e.detail}\n" ::
    if e.usage.isEmpty then [] else [indented e.usage ++ "\n"]

/-- One vocabulary word in a listing. -/
def entryLine (e : VocabularyEntry) : String :=
  padded 18 e.canonical ++ " " ++ padded 9 e.kind.text ++ " " ++ e.detail ++ "\n"

/-- The command `vocab`. -/
def runVocab (output : Outlet) (request : VocabRequest) : Session Nat := do
  let word := request.word.getD ""
  if word.isEmpty then
    let entries := Vocabulary.ofKind (request.kind.bind WordKind.ofText?)
    (entries.map entryLine).forM (Session.writeOut output)
    return 0
  else
    match Vocabulary.lookup? word with
    | none =>
      Session.writeErr s!"{toolName}: '{word}' is not a Tesseract word\n"
      return exitFailure
    | some e =>
      (entryTexts e).forM (Session.writeOut output)
      return 0

/-! ### The program -/

def runCommand (world : World) (verbosity : Nat) : Command → Session Nat
  | .check request => runCheck world verbosity request
  | .listCheckers request => do
    (listCheckersTexts request).forM (Session.writeOut world.output)
    return 0
  | .vocab request => runVocab world.output request

/-- The exit code of a call that standard output failed. A pipe that is no longer read from has done
its work. -/
def OutputFault.exit : OutputFault → Nat
  | .brokenPipe => 0
  | .refused _ => exitFailure
  | .encoding _ => exitFailure

/-- The exit code of an early end. -/
def Abort.exit : Abort → Nat
  | .failure _ => exitFailure
  | .output fault => fault.exit
  | .interrupted => exitInterrupted
  | .crash _ => exitFailure

/-- What a failure that nobody foresaw leaves in the log. -/
def unhandledLine (verbosity : Nat) (reason : String) : String :=
  logLine verbosity .error "tesseract_lint" s!"Unhandled exception: {reason}"

/-- What is written about an early end. -/
def Abort.lastWords (verbosity : Nat) : Abort → String
  | .failure message => s!"{toolName}: {message}\n"
  | .output .brokenPipe => ""
  | .output (.refused reason) => s!"{toolName}: {reason}\n"
  | .output (.encoding reason) => unhandledLine verbosity reason
  | .interrupted => logLine verbosity .info "tesseract_lint" "Interrupted by user."
  | .crash cause => unhandledLine verbosity cause.message

/-- Runs a command to its end. -/
def runCall (world : World) (verbosity : Nat) (command : Command) : Outcome :=
  match ((runCommand world verbosity command).run).run { files := world.files } with
  | (.ok exit, t) => { exit := exit, out := t.out, err := t.err, files := t.files }
  | (.error abort, t) =>
    { exit := abort.exit
      out := t.out
      err := t.err ++ abort.lastWords verbosity
      files := t.files }

/-- Runs the program. Without a command it explains itself and fails. Where the call itself cannot
be understood, it does not matter whether standard output takes what is said about it. -/
def run (world : World) (arguments : List String) : Outcome :=
  match parseCall world.dashes arguments with
  | .error halt => { exit := halt.exit, out := halt.out, err := halt.err, files := world.files }
  | .ok call =>
    match call.command with
    | none =>
      { exit := exitFailure, err := (mainSpec world.dashes).help, files := world.files }
    | some command => runCall world call.verbosity command

end LexLint.CommandLine
