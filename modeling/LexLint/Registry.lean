import LexLint.Checker.Brackets
import LexLint.Checker.BuiltinCalls
import LexLint.Checker.Constructs
import LexLint.Checker.DataTypes
import LexLint.Checker.Dictionaries
import LexLint.Checker.KeywordSuffix
import LexLint.Checker.Strings
import LexLint.Checker.Terminators
import LexLint.Checker.Undeclared

/-!
The checkers that a run can choose from, in the order in which they run. A checker registered
under a name that is taken replaces the other in its place. A checker can be disabled; the mark
stays with the name even while no checker has it.
-/

namespace LexLint

structure Registry where
  checkers : List Checker := []
  disabled : List String := []

namespace Registry

/-- Puts a checker in the place of the one with its name, or last. -/
def put (checker : Checker) : List Checker → List Checker
  | [] => [checker]
  | c :: rest => if c.name = checker.name then checker :: rest else c :: put checker rest

def register (r : Registry) (checker : Checker) : Registry :=
  { r with checkers := put checker r.checkers }

def unregister (r : Registry) (name : String) : Registry :=
  { r with checkers := r.checkers.filter (·.name != name) }

def names (r : Registry) : List String := r.checkers.map (·.name)

def get? (r : Registry) (name : String) : Option Checker := r.checkers.find? (·.name == name)

/-- The error for a name that no checker has. -/
def unknown (r : Registry) (name : String) : ConfigError :=
  .unknownChecker name (sortStrings r.names)

def disable (r : Registry) (name : String) : Except ConfigError Registry :=
  if r.names.contains name then .ok { r with disabled := insertNew name r.disabled }
  else .error (r.unknown name)

def enable (r : Registry) (name : String) : Except ConfigError Registry :=
  if r.names.contains name then .ok { r with disabled := r.disabled.filter (· != name) }
  else .error (r.unknown name)

/-- The checkers that are not disabled. -/
def enabled (r : Registry) : List Checker :=
  r.checkers.filter fun c => !r.disabled.contains c.name

/-- The checkers that can report a code. -/
def withCode (r : Registry) (code : String) : List Checker :=
  r.checkers.filter (·.codes.contains code)

/-- The checkers with the given names, in that order, or all enabled ones. -/
def resolve (r : Registry) : Option (List String) → Except ConfigError (List Checker)
  | none => .ok r.enabled
  | some names => names.mapM fun name =>
    match r.get? name with
    | some checker => .ok checker
    | none => .error (r.unknown name)

/-- The checkers of the language, in run order. -/
def builtinCheckers : List Checker :=
  [Brackets.checker, KeywordSuffix.checker, Strings.checker, BuiltinCalls.checker,
   Undeclared.checker, DataTypes.checker, Dictionaries.checker, Constructs.checker,
   Terminators.checker]

/-- The registry of all checkers of the language. -/
def builtin : Registry := { checkers := builtinCheckers }

end Registry

end LexLint
