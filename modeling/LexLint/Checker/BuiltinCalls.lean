import LexLint.Checker.Basic
import LexLint.Scan.Word
import LexLint.Vocabulary

/-!
Reports calls of built-in functions without the namespace mark `::`. Each built-in name is looked
for on every line that is not a comment; an occurrence is a call if it is a whole word, is
reached neither through `::` nor through a point, and is followed by a bracket or a quote.
-/

namespace LexLint.BuiltinCalls

/-- What stands before a name, latest character first, lets it be a call of its own. -/
def startsCall (before : List Char) : Bool :=
  match before with
  | ':' :: ':' :: _ => false
  | c :: _ => !(isWordChar c || c == '.')
  | [] => true

/-- What stands after a name makes it a call. -/
def continuesCall (after : List Char) : Bool :=
  match trimStart after with
  | c :: _ => c == '(' || c == '"' || c == '\''
  | [] => false

/-- What stands before a name, latest character first, and after it make the name a whole word
that is called without the namespace mark. -/
def isBareCall (before after : List Char) : Bool :=
  !after.head?.any isWordChar && startsCall before && continuesCall after

/-- The offsets, from `offset` on, at which a name is called without the namespace mark, after
the text `before`, latest character first. -/
def bareOffsetsFrom (name : List Char) (offset : Nat) (before : List Char) :
    List Char → List Nat
  | [] => []
  | c :: rest =>
    let later := bareOffsetsFrom name (offset + 1) (c :: before) rest
    match afterLiteral? name (c :: rest) with
    | some after => if isBareCall before after then offset :: later else later
    | none => later

/-- The bare calls of one built-in on a line. -/
def callsOf (line : Line) (name : String) : List Word :=
  let text := name.toList
  (bareOffsetsFrom text 0 [] line.code).map fun offset =>
    let start := line.span.start + offset
    ⟨start, start + text.length, name⟩

/-- The names of all built-ins, sorted. -/
def sortedNames : List String := sortStrings Vocabulary.builtinNames

/-- Order by place, then by name. -/
def before (a b : Word) : Bool :=
  a.start < b.start || (a.start == b.start &&
    (a.stop < b.stop || (a.stop == b.stop && decide (a.text ≤ b.text))))

/-- The bare calls of a document, in text order. -/
def bareCalls (source : Source) : List Word :=
  let lines := source.lines.filter (!·.isComment)
  (lines.flatMap fun line => sortedNames.flatMap (callsOf line)).mergeSort before

def site (w : Word) : Site :=
  .at .missingBuiltinPrefix
    s!"Built-in function '{w.text}' should be prefixed with :: (use '::{w.text}')" w.start w.stop

def sites (source : Source) (_ : Options) : List Site := (bareCalls source).map site

def checker : Checker :=
  .ofSites "builtin-prefix" "BuiltinPrefixChecker" "Built-in calls missing the '::' prefix"
    [.missingBuiltinPrefix] sites

end LexLint.BuiltinCalls
