import LexLint.Text.WordChar

/-!
Words of a text: the longest runs of identifier characters. A run that begins with a digit is a
number and no word.
-/

namespace LexLint

/-- A word and where it stands. -/
structure Word where
  start : Nat
  stop : Nat
  text : String
  deriving DecidableEq, Repr

/-- A word with the text around it. -/
structure WordSite where
  word : Word
  /-- What stands before the word, latest character first. -/
  before : List Char
  after : List Char

/-- The word of a run that ends before `stop`; run and text before it are given backwards. -/
def runSite (stop : Nat) (before run after : List Char) : List WordSite :=
  match run.reverse with
  | [] => []
  | c :: rest =>
    if isWordStart c then
      [⟨⟨stop - run.length, stop, String.ofList (c :: rest)⟩, before, after⟩]
    else []

/-- The words from an offset on, after some text and the characters of an unfinished run, both
latest first. -/
def scanSitesFrom (offset : Nat) (before run : List Char) : List Char → List WordSite
  | [] => runSite offset before run []
  | c :: rest =>
    if isWordChar c then scanSitesFrom (offset + 1) before (c :: run) rest
    else
      runSite offset before run (c :: rest) ++
        scanSitesFrom (offset + 1) (c :: (run ++ before)) [] rest

/-- The words of a text, each with what stands around it. -/
def scanSites (text : List Char) : List WordSite := scanSitesFrom 0 [] [] text

def scanWords (text : List Char) : List Word := (scanSites text).map (·.word)

/-- The words of the part of a text from `start` to before `stop`, or to the end. -/
def scanWordsBetween (text : List Char) (start : Int) (stop : Option Int) : List Word :=
  let first := start.toNat
  let last := match stop with
    | none => text.length
    | some s => min s.toNat text.length
  (scanSitesFrom first [] [] ((text.drop first).take (last - first))).map (·.word)

end LexLint
