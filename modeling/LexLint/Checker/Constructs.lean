import LexLint.Checker.Basic
import LexLint.Scan.Declaration
import LexLint.Scan.Word
import LexLint.Vocabulary

/-!
Reports control statements, functions and classes whose header no body follows. A body is opened
by a brace after the header on its line, or by one of the next lines beginning with a brace; the
options say how many lines are looked at.
-/

namespace LexLint.Constructs

/-- A header: where it stands and what it is called in a message. -/
structure Header where
  start : Nat
  stop : Nat
  label : String
  deriving DecidableEq, Repr

/-- What stands on a line from an offset of the text on opens a body. -/
def opensAfter (line : Line) (offset : Nat) : Bool :=
  (line.code.drop (offset - line.span.start)).contains '\x7b'

/-- The line begins with an opening brace. -/
def opensLine (line : Line) : Bool := (trim line.code).head? == some '\x7b'

/-- A body follows a header that ends at `stop`: on the line of that offset, or on those below
it. -/
def hasBody (index : LineIndex) (lines : List Line) (lookahead stop : Nat) : Bool :=
  match lines.drop (index.position stop).line with
  | [] => false
  | line :: below => opensAfter line stop || (below.take lookahead).any opensLine

/-- The header that a word begins in a code view. The word `else` does so with and without its
marker, other control keywords only with it. -/
def statement? (s : WordSite) : Option Header :=
  let w := s.word
  let marked := s.after.head? == some '$'
  if Vocabulary.bodyKeywords.contains w.text && marked then
    some ⟨w.start, w.stop + 1, w.text ++ "$"⟩
  else if w.text == "else" then
    some ⟨w.start, if marked then w.stop + 1 else w.stop, w.text⟩
  else none

def statements (code : List Char) : List Header := (scanSites code).filterMap statement?

def functions (code : List Char) : List Header :=
  (findAll true funcHeader code).map fun m => ⟨m.start, m.stop, m.value.name⟩

def classes (code : List Char) : List Header :=
  (findAll true classHeader code).map fun m => ⟨m.start, m.stop, m.value⟩

def statementSite (h : Header) : Site :=
  .at .incompleteStatement s!"Incomplete {h.label} statement. Missing \x7b \x7d body"
    h.start h.stop

def functionSite (h : Header) : Site :=
  .at .incompleteFunction
    s!"Incomplete function definition for '{h.label}'. Missing \x7b \x7d body" h.start h.stop

def classSite (h : Header) : Site :=
  .at .incompleteClass
    s!"Incomplete class definition for '{h.label}'. Missing \x7b \x7d body" h.start h.stop

/-- Statements come first, then functions, then classes. -/
def sites (source : Source) (options : Options) : List Site :=
  let code := source.code
  let index := source.index
  let lines := source.lines
  let incomplete := fun (h : Header) => !hasBody index lines options.lookaheadLines h.stop
  ((statements code).filter incomplete).map statementSite ++
    ((functions code).filter incomplete).map functionSite ++
    ((classes code).filter incomplete).map classSite

def checker : Checker :=
  .ofSites "constructs" "IncompleteConstructChecker"
    "Control/function/class headers missing a \x7b \x7d body"
    [.incompleteStatement, .incompleteFunction, .incompleteClass] sites

end LexLint.Constructs
