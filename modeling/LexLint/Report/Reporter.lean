import LexLint.Report.Sarif
import LexLint.Report.Template
import LexLint.Report.Terminal

/-!
Reporting document by document. Findings are written as they come, and at the end the counts and,
where the environment asks for them, two side files: one in the interchange format and one as a
web page.
-/

namespace LexLint

def toolName : String := "tesseract-lint"

def toolVersion : String := "0.1.0"

/-- The variable that names the side file in the interchange format. -/
def sarifVariable : String := "TESSERACT_LINT_SARIF"

/-- The variable that names the side file as a web page. -/
def htmlVariable : String := "TESSERACT_LINT_HTML"

/-- A document with its findings. -/
structure Report where
  source : Source
  findings : List Finding

/-- All findings in the interchange format. -/
def sarifReport (reports : List Report) (name : String) : String :=
  (reports.foldl (fun log r => log.addAll r.source r.findings) ({} : SarifLog)).text name
    toolVersion

/-- All findings on one page. -/
def htmlPage (reports : List Report) : HtmlPage :=
  reports.foldl (fun page r => page.addAll r.source r.findings) {}

structure ReportSettings where
  toolName : String := LexLint.toolName
  toolVersion : String := LexLint.toolVersion
  /-- Colours are asked for, or refused, or left to the stream and the environment. -/
  colour : Option Bool := none
  /-- The counts are written at the end. -/
  summary : Bool := true
  /-- The stream that is written to is a terminal. -/
  streamIsTerminal : Bool
  /-- Standard output is a terminal. -/
  outputIsTerminal : Bool
  environment : Environment
  /-- Lays out a page whose template is not the tool's own. -/
  engine : TemplateEngine

namespace ReportSettings

/-- Findings are shown with their lines. -/
def withLines (s : ReportSettings) : Bool :=
  match s.colour with
  | some c => c
  | none => (s.environment.get? "NO_COLOR").isNone && s.streamIsTerminal

def ansi (s : ReportSettings) : Bool := ansiEnabled s.environment s.outputIsTerminal

/-- The path of a side file, empty if there is none. -/
def sidePath (s : ReportSettings) (name : String) : String := (s.environment.get? name).getD ""

end ReportSettings

/-- A report in progress. -/
structure Reporter where
  settings : ReportSettings
  stats : Stats := {}
  /-- What has been written to the stream; each finding is written through at once. -/
  out : String := ""
  sarif : SarifLog := {}
  html : HtmlPage := {}

/-- What a finished report leaves behind. -/
structure ReportOutcome where
  stats : Stats
  /-- The counts, which are written when the stream is closed. -/
  closing : String
  err : String
  /-- The files, with the side files among them. -/
  files : FileTree
  /-- A failure that ends the program. -/
  crash : Option Crash

namespace Reporter

def renderFinding (s : ReportSettings) (source : Source) (index : LineIndex) (f : Finding) :
    String :=
  if s.withLines then Terminal.render s.ansi source index f else Plain.render source index f

def renderSummary (s : ReportSettings) (stats : Stats) : String :=
  if s.withLines then Terminal.summary s.ansi stats else Plain.summary stats

/-- Counts a finding, which is done before it is shown. -/
def countFinding (r : Reporter) (f : Finding) : Reporter :=
  { r with stats := r.stats.record f.severity }

/-- Reports one finding in a document with the given lines. -/
def add (r : Reporter) (source : Source) (index : LineIndex) (f : Finding) : Reporter :=
  { r with
    stats := r.stats.record f.severity
    out := r.out ++ renderFinding r.settings source index f
    sarif := if (r.settings.sidePath sarifVariable).isEmpty then r.sarif
      else r.sarif.add source index f
    html := if (r.settings.sidePath htmlVariable).isEmpty then r.html
      else r.html.add source index f }

def countDocument (r : Reporter) : Reporter :=
  { r with stats := { r.stats with files := r.stats.files + 1 } }

/-- Reports one document. -/
def report (r : Reporter) (source : Source) (findings : List Finding) : Reporter :=
  let index := source.index
  findings.foldl (·.add source index) r.countDocument

/-- The message for a side file that cannot be written. -/
def writeFailure (s : ReportSettings) (format message : String) : String :=
  s!"{s.toolName}: failed to write {format}: {message}\n"

/-- Writes a side file: the files afterwards, and the message if it cannot be written. -/
def sideFile (s : ReportSettings) (files : FileTree) (format path text : String) :
    Except Crash (FileTree × String) :=
  let shown := normalizePath path
  if hasNul shown then .error .nulInPath
  else
    match files.write shown text.toUTF8.toList with
    | .ok written => .ok (written, "")
    | .error e => .ok (files, writeFailure s format (e.message shown))

def sarifFile (r : Reporter) (files : FileTree) : Except Crash (FileTree × String) :=
  let path := r.settings.sidePath sarifVariable
  if path.isEmpty then .ok (files, "")
  else
    sideFile r.settings files "SARIF" path
      (r.sarif.text r.settings.toolName r.settings.toolVersion)

def htmlFile (r : Reporter) (files : FileTree) : Except Crash (FileTree × String) :=
  let path := r.settings.sidePath htmlVariable
  if path.isEmpty then .ok (files, "")
  else
    match r.html.render r.settings.engine files r.settings.environment "" with
    | .ok text => sideFile r.settings files "HTML" path text
    | .error failure =>
      match failure.crash? with
      | some crash => .error crash
      | none => .ok (files, writeFailure r.settings "HTML" failure.message)

/-- The counts, if they are asked for. -/
def closing (r : Reporter) : String :=
  if r.settings.summary then renderSummary r.settings r.stats else ""

/-- Writes the counts and the side files, one after the other. -/
def finish (r : Reporter) (files : FileTree) : ReportOutcome :=
  match r.sarifFile files with
  | .error crash => ⟨r.stats, r.closing, "", files, some crash⟩
  | .ok (files, sarifErr) =>
    match r.htmlFile files with
    | .error crash => ⟨r.stats, r.closing, sarifErr, files, some crash⟩
    | .ok (files, htmlErr) => ⟨r.stats, r.closing, sarifErr ++ htmlErr, files, none⟩

/-- Reports documents in order. -/
def reportAll (settings : ReportSettings) (reports : List Report) : Reporter :=
  reports.foldl (fun r d => r.report d.source d.findings) { settings := settings }

end Reporter

end LexLint
