import LexLint.Checker.Basic
import LexLint.Scan.Declaration
import LexLint.Scan.Word
import LexLint.Vocabulary

/-!
Reports names that are used and never declared. Declarations are collected from the whole text
first, so that a name may be used before its declaration; there is no notion of scope. A name is
reported at its first use and counts as declared from then on.
-/

namespace LexLint.Undeclared

/-- The names that function headers declare: the function and the first identifier of each
parameter. -/
def funcNames (header : FuncHeader) : List String :=
  header.name :: (splitAtChar ',' header.params).filterMap firstIdentifier?

/-- The names of variables that a text declares. -/
def letNames (text : List Char) : List String := (findAll false letHeader text).map (·.value)

/-- The names that a text declares anywhere. -/
def declaredIn (text : List Char) : List String :=
  letNames text ++ (findAll true funcHeader text).flatMap (fun m => funcNames m.value) ++
    (findAll true classHeader text).map (·.value)

/-- The names that are declared before any line is looked at. -/
def seed (context : Context) : List String :=
  declaredIn context.source.text ++ context.options.implicitNames

/-- A word is no use of a variable if it is a member, a built-in reached through its namespace, a
type in angle brackets or a key before a colon. `before` is what stands before it, latest
character first, and `after` what follows. -/
def isNoUse (before after : List Char) : Bool :=
  before.head? == some '.' ||
  before.take 2 == [':', ':'] ||
  (before.head? == some '<' && after.head? == some '>') ||
  match trimStart after with
  | ':' :: c :: _ => !(c == ':' || c == '=')
  | [':'] => true
  | _ => false

/-- The words of a line that use a variable. -/
def uses (code : List Char) : List Word :=
  let declared := (findAll true declarationSite code).map (·.value)
  ((scanSites code).filter fun s =>
    !(Vocabulary.reservedWords.contains s.word.text || declared.contains s.word.text ||
      isNoUse s.before s.after)).map (·.word)

/-- The uses of names not declared before, each name once, with the names declared afterwards. -/
def firstUses (declared : List String) : List Word → List Word × List String
  | [] => ([], declared)
  | w :: rest =>
    if declared.contains w.text then firstUses declared rest
    else
      let (found, declared) := firstUses (declared ++ [w.text]) rest
      (w :: found, declared)

/-- A word moved to the right. -/
def shift (n : Nat) (w : Word) : Word := ⟨n + w.start, n + w.stop, w.text⟩

/-- The undeclared names of lines, given the names declared before, with those declared
afterwards. -/
def survey (declared : List String) : List Line → List Word × List String
  | [] => ([], declared)
  | line :: rest =>
    if line.isComment then survey declared rest
    else
      let known := (letNames line.raw).foldl (fun ns n => insertNew n ns) declared
      let (found, known) := firstUses known (uses line.code)
      let (later, known) := survey known rest
      (found.map (shift line.span.start) ++ later, known)

def site (w : Word) : Site :=
  .at .undefinedVariable s!"Variable '{w.text}' is used but not defined" w.start w.stop

def checker : Checker :=
  { name := "undeclared"
    title := "UndeclaredNameChecker"
    description := "Use of names that are never declared (heuristic)"
    codes := [Code.undefinedVariable.text]
    severity := .warning
    configure := fun context => declareNames (seed context)
    collect := fun context => do
      let (found, declared) := survey (← get) context.source.lines
      set declared
      return found.map site
    diagnose := fun _ sites => pure sites }

end LexLint.Undeclared
