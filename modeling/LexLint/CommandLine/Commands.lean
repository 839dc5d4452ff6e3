import LexLint.CommandLine.Arguments
import LexLint.CommandLine.Usage
import LexLint.Report.Reporter
import LexLint.Vocabulary

/-!
The commands of the program and the options of each.
-/

namespace LexLint.CommandLine

inductive OutputFormat where
  | text
  | json
  | gcc
  | sarif
  | html
  | summary
  deriving DecidableEq, Repr

namespace OutputFormat

def all : List OutputFormat := [.text, .json, .gcc, .sarif, .html, .summary]

def name : OutputFormat → String
  | .text => "text"
  | .json => "json"
  | .gcc => "gcc"
  | .sarif => "sarif"
  | .html => "html"
  | .summary => "summary"

def ofName? (s : String) : Option OutputFormat := all.find? (·.name == s)

end OutputFormat

/-- What `check` is asked for. Lists of names are as they were given, one text an option, and
nothing for an option without its value. -/
structure CheckRequest where
  paths : List String := []
  /-- The format, or nothing if it was asked for without its name. -/
  format : Option OutputFormat := some .text
  output : Option String := none
  checkers : List (Option String) := []
  disable : List (Option String) := []
  suppress : List (Option String) := []
  rawBrackets : Bool := false
  colour : Option Bool := none
  /-- How much is logged, if the command itself says so. -/
  verbosity : Option Nat := none
  deriving DecidableEq, Repr

structure VocabRequest where
  word : Option String := none
  kind : Option String := none
  deriving DecidableEq, Repr

structure ListRequest where
  options : Bool := false
  deriving DecidableEq, Repr

inductive Command where
  | check (request : CheckRequest)
  | listCheckers (request : ListRequest)
  | vocab (request : VocabRequest)
  deriving DecidableEq, Repr

/-- A call of the program. -/
structure Call where
  verbosity : Nat := 0
  command : Option Command := none
  /-- Arguments that the command does not recognise. -/
  unrecognised : List String := []
  deriving DecidableEq, Repr

def versionText : String := toolName ++ " " ++ toolVersion

def helpOption {σ : Type} : OptionSpec σ := ⟨["-h", "--help"], .help⟩

def checkSpec (dashes : DashRule) : CallSpec CheckRequest where
  dashes := dashes
  program := toolName ++ " check"
  usage := textOfLines checkUsage
  help := helpText checkUsage checkDetails
  version := versionText
  options := [
    helpOption,
    ⟨["-f", "--format"], .value (OutputFormat.all.map OutputFormat.name) fun v r =>
      { r with format := v.bind OutputFormat.ofName? }⟩,
    ⟨["-o", "--output"], .value [] fun v r => { r with output := some (v.getD "") }⟩,
    ⟨["--checkers"], .value [] fun v r => { r with checkers := r.checkers ++ [v] }⟩,
    ⟨["--disable"], .value [] fun v r => { r with disable := r.disable ++ [v] }⟩,
    ⟨["--suppress"], .value [] fun v r => { r with suppress := r.suppress ++ [v] }⟩,
    ⟨["--raw-brackets"], .flag fun r => { r with rawBrackets := true }⟩,
    ⟨["--color"], .flag fun r => { r with colour := some true }⟩,
    ⟨["--no-color"], .flag fun r => { r with colour := some false }⟩,
    ⟨["-v", "--verbose"], .flag fun r => { r with verbosity := some (r.verbosity.getD 0 + 1) }⟩]
  operands := .oneOrMore "PATH" fun paths r => { r with paths := paths }

def listCheckersSpec (dashes : DashRule) : CallSpec ListRequest where
  dashes := dashes
  program := toolName ++ " list-checkers"
  usage := textOfLines listCheckersUsage
  help := helpText listCheckersUsage listCheckersDetails
  version := versionText
  options := [helpOption, ⟨["--options"], .flag fun r => { r with options := true }⟩]
  operands := .none

def vocabSpec (dashes : DashRule) : CallSpec VocabRequest where
  dashes := dashes
  program := toolName ++ " vocab"
  usage := textOfLines vocabUsage
  help := helpText vocabUsage vocabDetails
  version := versionText
  options := [
    helpOption,
    ⟨["--kind"], .value (WordKind.all.map WordKind.text) fun v r => { r with kind := v }⟩]
  operands := .atMostOne fun word r => { r with word := some word }

def commandNames : List String := ["check", "list-checkers", "vocab"]

/-- Understands the arguments of a command. -/
def parseCommand (dashes : DashRule) (name : String) (arguments : List String) (call : Call) :
    Except Halt Call :=
  if name = "check" then
    ((checkSpec dashes).parse {} arguments).map fun (r, unrecognised) =>
      { call with
        command := some (.check r)
        verbosity := r.verbosity.getD call.verbosity
        unrecognised := unrecognised }
  else if name = "list-checkers" then
    ((listCheckersSpec dashes).parse {} arguments).map fun (r, unrecognised) =>
      { call with command := some (.listCheckers r), unrecognised := unrecognised }
  else
    ((vocabSpec dashes).parse {} arguments).map fun (r, unrecognised) =>
      { call with command := some (.vocab r), unrecognised := unrecognised }

def mainSpec (dashes : DashRule) : CallSpec Call where
  dashes := dashes
  program := toolName
  usage := textOfLines mainUsage
  help := helpText mainUsage mainDetails
  version := versionText
  options := [
    helpOption,
    ⟨["--version"], .version⟩,
    ⟨["-v", "--verbose"], .flag fun c => { c with verbosity := c.verbosity + 1 }⟩]
  operands := .command "<command>" commandNames (parseCommand dashes)

/-- Understands a call of the program. Arguments that neither the program nor the command
recognises are a mistake. -/
def parseCall (dashes : DashRule) (arguments : List String) : Except Halt Call :=
  match (mainSpec dashes).parse {} arguments with
  | .error h => .error h
  | .ok (call, unrecognised) =>
    match unrecognised ++ call.unrecognised with
    | [] => .ok call
    | strays =>
      .error ((mainSpec dashes).mistake ("unrecognized arguments: " ++ joinStrings " " strays))

end LexLint.CommandLine
