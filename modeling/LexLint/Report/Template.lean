import LexLint.Files.Tree
import LexLint.Options
import LexLint.Report.Html
import LexLint.Scan.Match
import LexLint.Text.Newline

/-!
Pages under a template: a file named by the caller, else a file named by the environment, else the
tool's own layout. What a template of a caller comes to is decided by an engine that is no part of
the tool.
-/

namespace LexLint

/-- Lays out a page by a template, from its cards and their number, or says why it cannot. Nothing
else goes into a page: what an engine does is taken to depend on these alone. -/
abbrev TemplateEngine := List Char → List HtmlCard → Nat → Except String String

/-- Why a page cannot be laid out. -/
inductive PageFailure where
  /-- The template's file cannot be opened. -/
  | file (error : FileError) (path : String)
  /-- The template is not UTF-8. -/
  | encoding (fault : Utf8.Fault)
  /-- The engine does not take the template, for the reason given. -/
  | template (reason : String)
  deriving DecidableEq, Repr

namespace PageFailure

def message : PageFailure → String
  | .file error path => error.message path
  | .encoding fault => fault.message
  | .template reason => reason

/-- The failure as one that ends the program. A template that cannot be opened is none. -/
def crash? : PageFailure → Option Crash
  | .file .. => none
  | .encoding fault => some (.encoding fault)
  | .template reason => some (.template reason)

end PageFailure

/-- The variable that names a template's file. -/
def templateVariable : String := "TESSERACT_LINT_HTML_TEMPLATE"

/-- The template in a file. -/
def readTemplate (files : FileTree) (path : String) : Except PageFailure (List Char) :=
  let shown := normalizePath path
  match files.read shown with
  | .error e => .error (.file e shown)
  | .ok octets =>
    match Utf8.decode octets with
    | .error f => .error (.encoding f)
    | .ok text => .ok text

/-- The template to use, or none for the tool's own layout. A path in the environment counts only
if it is a file. -/
def chooseTemplate (files : FileTree) (env : Environment) (path : String) :
    Except PageFailure (Option (List Char)) :=
  if !path.isEmpty then (readTemplate files path).map some
  else
    let named := (env.get? templateVariable).getD ""
    if named.isEmpty then .ok none
    else
      match files.isFile (normalizePath named) with
      | .error e => .error (.file e (normalizePath named))
      | .ok false => .ok none
      | .ok true => (readTemplate files named).map some

/-- The text of a page under the template in force. -/
def HtmlPage.render (page : HtmlPage) (engine : TemplateEngine) (files : FileTree)
    (env : Environment) (path : String) : Except PageFailure String :=
  match chooseTemplate files env path with
  | .error failure => .error failure
  | .ok none => .ok page.text
  | .ok (some template) =>
    (engine template page.cards page.cards.length).mapError .template

theorem HtmlPage.render_of_builtin {files : FileTree} {env : Environment} {path : String}
    (layout : chooseTemplate files env path = .ok none) (page : HtmlPage)
    (engine : TemplateEngine) : page.render engine files env path = .ok page.text := by
  rw [render, layout]

/-! ### Templates of plain text -/

namespace HtmlTemplate

/-- The tag that stands for the total, in double braces. -/
def totalTag : Recogniser Unit := fun s => do
  let afterOpen ← afterLiteral? ['\x7b', '\x7b'] s
  let afterName ← afterLiteral? "total".toList (trimStart afterOpen)
  let rest ← afterLiteral? ['\x7d', '\x7d'] (trimStart afterName)
  some ((), rest)

/-- A tag of any kind begins: a brace, followed by another or by the sign of a command or note. -/
def opensTag : List Char → Bool
  | '\x7b' :: c :: _ => c == '\x7b' || c == '%' || c == '#'
  | _ => false

/-- Puts the total in the place of its tags, passing over `skip` characters of the tag last
found. There must be no other tags. -/
def expandFrom? (total : List Char) (skip : Nat) : List Char → Option (List Char)
  | [] => some []
  | c :: rest =>
    match skip with
    | skip + 1 => expandFrom? total skip rest
    | 0 =>
      match totalTag (c :: rest) with
      | some (_, after) =>
        (expandFrom? total (rest.length - after.length) rest).map (total ++ ·)
      | none =>
        if opensTag (c :: rest) then none else (expandFrom? total 0 rest).map (c :: ·)

/-- The text without one newline at its end. -/
def dropLastNewline (s : List Char) : List Char :=
  if s.getLast? = some '\n' then s.dropLast else s

/-- The engine for templates of plain text with tags for the total. It takes no others. -/
def plainEngine : TemplateEngine := fun template _ total =>
  match expandFrom? (toString total).toList 0 (dropLastNewline (normalizeNewlines template)) with
  | some text => .ok (String.ofList text)
  | none => .error "the template is not plain text"

end HtmlTemplate

end LexLint
