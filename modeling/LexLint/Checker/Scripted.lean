import LexLint.Checker.Basic

/-!
Checkers written down as data: what they declare, what they report, and whether and in which
phase they fail. They serve to extend a registry from outside and to show how a run copes with a
failing checker.
-/

namespace LexLint

/-- The phases of a checker. -/
inductive PhaseName where
  | configure
  | collect
  | diagnose
  deriving DecidableEq, Repr

def PhaseName.ofText? (s : String) : Option PhaseName :=
  if s = "configure" then some .configure
  else if s = "collect" then some .collect
  else if s = "diagnose" then some .diagnose
  else none

/-- A report whose severity, if it has one, is still to be read. -/
structure ScriptedSite where
  code : String
  message : String
  start : Int
  stop : Int
  severity : Option String
  deriving DecidableEq, Repr

structure Script where
  name : String
  description : String
  codes : List String
  severity : Severity
  declare : List String
  emit : List ScriptedSite
  /-- The phase at whose end the checker fails. -/
  fails : Option PhaseName
  /-- What it fails with. -/
  message : String

namespace Script

/-- Fails if the script says so for this phase. -/
def failIn (script : Script) (phase : PhaseName) : Phase Unit :=
  if script.fails = some phase then throw script.message else pure ()

/-- A report with its severity read; an unknown severity is a failure. -/
def site (s : ScriptedSite) : Phase Site :=
  match s.severity with
  | none => pure { code := s.code, message := s.message, start := s.start, stop := s.stop }
  | some text =>
    match Severity.ofText? text with
    | some severity =>
      pure { code := s.code, message := s.message, start := s.start, stop := s.stop,
             severity := some severity }
    | none => throw (Severity.unknownMessage text)

def checker (script : Script) : Checker :=
  { name := script.name
    title := "Checker"
    description := script.description
    codes := script.codes
    severity := script.severity
    configure := fun _ => do
      declareNames script.declare
      script.failIn .configure
    collect := fun _ => do
      script.failIn .collect
      return []
    diagnose := fun _ _ => do
      let sites ← script.emit.mapM site
      script.failIn .diagnose
      return sites }

end Script

end LexLint
