import LexLint.Json.Basic

/-!
What can be wrong with the configuration of a run: an option's name or value, or the name of a
checker. A value may also fail to be read for a fault that is no error of the configuration.
-/

namespace LexLint

/-- An error in the configuration. A value at fault is held as the error quotes it. -/
inductive ConfigError where
  /-- No option has this name; `known` are the names there are, sorted. -/
  | unknownOption (key : String) (known : List String)
  | expectedBoolean (key value : String)
  | expectedInteger (key value : String)
  | expectedNames (key value : String)
  | negative (key value : String)
  /-- No registered checker has this name; `known` are the names there are, sorted. -/
  | unknownChecker (name : String) (known : List String)
  deriving DecidableEq, Repr

namespace ConfigError

/-- The option at fault and what is wrong with it. -/
def statement : ConfigError → String
  | .unknownOption key _ => s!"option '{key}': unknown option"
  | .expectedBoolean key value => s!"option '{key}': expected a boolean, got {value}"
  | .expectedInteger key value => s!"option '{key}': expected an integer, got {value}"
  | .expectedNames key value => s!"option '{key}': expected a list of names, got {value}"
  | .negative key value => s!"option '{key}': must not be negative, got {value}"
  | .unknownChecker name _ => s!"option 'checkers': unknown checker '{name}'"

/-- What would have been accepted, where the error can say so. -/
def hint : ConfigError → String
  | .unknownOption _ known => joinStrings ", " known
  | .unknownChecker _ [] => ""
  | .unknownChecker _ known => "available checkers: " ++ joinStrings ", " known
  | _ => ""

def message (e : ConfigError) : String :=
  if e.hint.isEmpty then e.statement else s!"{e.statement} (hint: {e.hint})"

end ConfigError

/-- Why options cannot be read. -/
inductive OptionFailure where
  | config (error : ConfigError)
  /-- A number is at fault, and nobody foresaw that. -/
  | number (fault : NumberFault)
  deriving DecidableEq, Repr

/-- The error that quotes a value. A value that cannot be quoted is a failure of another kind. -/
def OptionFailure.quoting (error : String → ConfigError) (value : Json) : OptionFailure :=
  match value.quote? with
  | some text => .config (error text)
  | none => .number .tooLong

/-- Strings in code-point order. -/
def sortStrings (xs : List String) : List String := xs.mergeSort fun a b => decide (a ≤ b)

end LexLint
