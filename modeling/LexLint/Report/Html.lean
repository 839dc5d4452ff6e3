import LexLint.Finding
import LexLint.Source.Basic

/-!
Reports as web pages: one card for each finding, and the total below. What comes from a document
is escaped, so that it can neither open nor close markup.
-/

namespace LexLint

/-- A character as it is written inside a page. -/
def htmlChar (c : Char) : List Char :=
  if c = '&' then "&amp;".toList
  else if c = '<' then "&lt;".toList
  else if c = '>' then "&gt;".toList
  else if c = '\'' then "&#39;".toList
  else if c = '"' then "&#34;".toList
  else [c]

/-- A text as it is written inside a page. -/
def escapeHtml (s : String) : String := String.ofList (s.toList.flatMap htmlChar)

/-- What a page may show of a finding. The tool's own layout leaves out the checker. -/
structure HtmlCard where
  severity : String
  code : String
  checker : String
  message : String
  file : String
  line : Nat
  column : Nat
  sourceLine : String
  deriving DecidableEq, Repr

namespace HtmlCard

def ofFinding (source : Source) (index : LineIndex) (f : Finding) : HtmlCard :=
  let p := index.position f.start
  { severity := f.severity.text
    code := f.code
    checker := f.checker
    message := f.message
    file := source.name
    line := p.line + 1
    column := p.column + 1
    sourceLine := String.ofList (source.rawLine index p.line) }

/-- The finding's line, if there is something on it. -/
def sourceBlock (c : HtmlCard) : String :=
  if c.sourceLine.isEmpty then "" else "<pre>" ++ escapeHtml c.sourceLine ++ "</pre>"

def lines (c : HtmlCard) : List String :=
  let severity := escapeHtml c.severity
  ["  <div class=\"card sev-" ++ severity ++ "\">",
   "    <span class=\"badge badge-" ++ severity ++ "\">" ++ severity ++ "</span>",
   "    <code>[" ++ escapeHtml c.code ++ "]</code>",
   "    <span class=\"loc\">" ++ escapeHtml c.file ++ s!":{c.line}:{c.column}</span>",
   "    <div class=\"msg\">" ++ escapeHtml c.message ++ "</div>",
   "    " ++ c.sourceBlock,
   "  </div>"]

end HtmlCard

/-- The findings of a page, in order. -/
structure HtmlPage where
  cards : List HtmlCard := []
  deriving DecidableEq, Repr

namespace HtmlPage

/-- Adds a finding in a document with the given lines. -/
def add (page : HtmlPage) (source : Source) (index : LineIndex) (f : Finding) : HtmlPage :=
  ⟨page.cards ++ [.ofFinding source index f]⟩

/-- Adds all findings of a document. -/
def addAll (page : HtmlPage) (source : Source) (findings : List Finding) : HtmlPage :=
  let index := source.index
  findings.foldl (·.add source index) page

/-- The page above its cards. -/
def headLines : List String :=
  ["<!DOCTYPE html>",
   "<html lang=\"en\">",
   "<head>",
   "  <meta charset=\"utf-8\">",
   "  <meta name=\"viewport\" content=\"width=device-width, initial-scale=1\">",
   "  <title>Tesseract Lint Report</title>",
   "  <style>",
   "    :root \x7b --bg: #1e1e2e; --fg: #cdd6f4; --surface: #313244;",
   "            --red: #f38ba8; --yellow: #f9e2af; --cyan: #89dceb;",
   "            --blue: #89b4fa; --border: #45475a; \x7d",
   "    * \x7b box-sizing: border-box; margin: 0; padding: 0; \x7d",
   "    body \x7b font-family: 'Fira Code', 'Cascadia Code', monospace;",
   "           background: var(--bg); color: var(--fg); padding: 2rem; \x7d",
   "    h1 \x7b margin-bottom: 1rem; \x7d",
   "    .card \x7b background: var(--surface); border: 1px solid var(--border);",
   "            border-radius: 8px; padding: 1rem; margin-bottom: 1rem; \x7d",
   "    .sev-error   \x7b border-left: 4px solid var(--red); \x7d",
   "    .sev-warning \x7b border-left: 4px solid var(--yellow); \x7d",
   "    .badge \x7b display: inline-block; padding: 2px 8px; border-radius: 4px;",
   "             font-size: 0.85em; font-weight: bold; \x7d",
   "    .badge-error   \x7b background: var(--red); color: var(--bg); \x7d",
   "    .badge-warning \x7b background: var(--yellow); color: var(--bg); \x7d",
   "    .loc \x7b color: var(--blue); font-size: 0.9em; \x7d",
   "    .msg \x7b margin-top: 0.4rem; \x7d",
   "    pre  \x7b margin-top: 0.4rem; color: var(--cyan); \x7d",
   "    .summary \x7b margin-top: 2rem; padding: 1rem; background: var(--surface);",
   "               border-radius: 8px; text-align: center; font-size: 1.1em; \x7d",
   "  </style>",
   "</head>",
   "<body>",
   "  <h1>Tesseract Lint Report</h1>"]

/-- The page below its cards. -/
def footLines (total : Nat) : List String :=
  let plural := if total = 1 then "" else "s"
  [s!"  <div class=\"summary\">{total} finding{plural} reported.</div>", "</body>", "</html>"]

/-- The page as the tool lays it out, which is what the engine makes of the tool's own template. An
indented empty line stands before each card and before the total. -/
def text (page : HtmlPage) : String :=
  joinStrings "\n" (headLines ++ page.cards.flatMap (fun c => "  " :: c.lines) ++
    "  " :: footLines page.cards.length)

end HtmlPage

end LexLint
