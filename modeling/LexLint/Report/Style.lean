import LexLint.Finding
import LexLint.Options

/-!
Coloured text for terminals.
-/

namespace LexLint

inductive Colour where
  | red
  | green
  | yellow
  | blue
  | cyan
  | white
  deriving DecidableEq, Repr

def Colour.code : Colour → Nat
  | .red => 31
  | .green => 32
  | .yellow => 33
  | .blue => 34
  | .cyan => 36
  | .white => 97

def Colour.text : Colour → String
  | .red => "red"
  | .green => "green"
  | .yellow => "yellow"
  | .blue => "blue"
  | .cyan => "cyan"
  | .white => "white"

def Severity.colour : Severity → Colour
  | .error => .red
  | .warning => .yellow

/-- The control sequence that switches to a rendition. -/
def rendition (code : Nat) : String := s!"\x1b[{code}m"

/-- Text in bold and in a colour, where terminals are asked for colours. -/
def boldIn (ansi : Bool) (colour : Colour) (text : String) : String :=
  if ansi then rendition 1 ++ rendition colour.code ++ text ++ rendition 0 else text

/-- Faint text, where terminals are asked for colours. -/
def faint (ansi : Bool) (text : String) : String :=
  if ansi then rendition 2 ++ text ++ rendition 0 else text

/-- A variable is set to something. -/
def Environment.isSet (env : Environment) (name : String) : Bool :=
  (env.get? name).any (!·.isEmpty)

/-- Colours are written: they are off if a variable says so, else on if one says so, else off on a
dumb terminal, and else on if standard output is a terminal. -/
def ansiEnabled (env : Environment) (outputIsTerminal : Bool) : Bool :=
  if env.isSet "ANSI_COLORS_DISABLED" || env.isSet "NO_COLOR" then false
  else if env.isSet "FORCE_COLOR" then true
  else if env.get? "TERM" = some "dumb" then false
  else outputIsTerminal

end LexLint
