import LexLint.Checker.Basic
import LexLint.Scan.Declaration
import LexLint.Vocabulary

/-!
Reports statements that no semicolon ends. A line is a statement if it assigns, calls or reaches a
built-in; headers of blocks, and lines that go on from or into a neighbouring line, are none.
-/

namespace LexLint.Terminators

/-- The line is the header of a block: `else`, or a header keyword with its marker. -/
def isHeader (line : List Char) : Bool :=
  match identifier? line with
  | none => false
  | some (name, rest) =>
    let word := String.ofList name
    word == "else" || (Vocabulary.headerKeywords.contains word && rest.head? == some '$')

/-- How a line begins that goes on from the line above. -/
def continuations : List (List Char) := [['.'], ['-', '>'], ['&', '&'], ['|', '|']]

/-- How code ends that goes on in the line below. -/
def openTails : List (List Char) :=
  [['\\'], [','], ['('], ['['], ['='], ['+'], ['-'], ['*'], ['/'], ['%'], ['&', '&'],
   ['|', '|'], ['.']]

def startsWithAny (starts : List (List Char)) (s : List Char) : Bool :=
  starts.any fun t => (afterLiteral? t s).isSome

def endsWithAny (tails : List (List Char)) (s : List Char) : Bool :=
  tails.any fun t => (afterLiteral? t.reverse s.reverse).isSome

/-- The line ends in a backslash. -/
def isContinued (line : Line) : Bool := (trim line.raw).getLast? == some '\\'

/-- The line goes on from the one above. -/
def isContinuation (line : Line) : Bool := startsWithAny continuations (trim line.raw)

/-- The code assigns, calls or reaches a built-in. -/
def looksLikeStatement (code : List Char) : Bool :=
  code.contains '=' || !(findAll true callHead code).isEmpty || holdsLiteral [':', ':'] code

/-- The code has come to an end, or goes on in the next line. -/
def isEnded (code : List Char) : Bool :=
  match code.getLast? with
  | none => true
  | some c => c == '\x7b' || c == '\x7d' || c == ';' || endsWithAny openTails code

/-- The line, between its neighbours, is a statement without its semicolon. -/
def isUnterminated (above : Option Line) (line : Line) (below : Option Line) : Bool :=
  let raw := trim line.raw
  let code := trim line.code
  !(raw.isEmpty || raw.head? == some '#' || isHeader raw || above.any isContinued ||
      below.any isContinuation || isEnded code) &&
    looksLikeStatement code

/-- The unterminated lines among lines, of which the first stands below `above`. -/
def unterminatedFrom (above : Option Line) : List Line → List Line
  | [] => []
  | line :: rest =>
    if isUnterminated above line rest.head? then line :: unterminatedFrom (some line) rest
    else unterminatedFrom (some line) rest

def site (line : Line) : Site :=
  .at .missingSemicolon "Missing semicolon at end of statement" line.span.stop line.span.stop

def sites (source : Source) (_ : Options) : List Site :=
  (unterminatedFrom none source.lines).map site

def checker : Checker :=
  .ofSites "semicolons" "TerminatorChecker" "Statements missing their terminating ';'"
    [.missingSemicolon] sites

end LexLint.Terminators
