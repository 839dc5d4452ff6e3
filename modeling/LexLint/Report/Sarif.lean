import LexLint.Source.Basic
import LexLint.Finding

/-!
Reports in the Static Analysis Results Interchange Format. Every finding is a result, and every
code is a rule, described by its first finding.
-/

namespace LexLint

structure SarifRule where
  id : String
  description : String
  checker : String
  deriving DecidableEq, Repr

/-- The place of a result, lines and columns counted from one. -/
structure SarifRegion where
  startLine : Nat
  startColumn : Nat
  endLine : Nat
  endColumn : Nat
  charOffset : Int
  charLength : Int
  deriving DecidableEq, Repr

structure SarifResult where
  ruleId : String
  level : String
  message : String
  uri : String
  region : SarifRegion
  deriving DecidableEq, Repr

structure SarifLog where
  rules : List SarifRule := []
  results : List SarifResult := []
  deriving DecidableEq, Repr

namespace SarifRegion

def ofFinding (index : LineIndex) (f : Finding) : SarifRegion :=
  let first := index.position f.start
  let last := index.position f.stop
  ⟨first.line + 1, first.column + 1, last.line + 1, last.column + 1, f.start, f.stop - f.start⟩

def toJson (r : SarifRegion) : Json :=
  .obj [("startLine", .nat r.startLine), ("startColumn", .nat r.startColumn),
    ("endLine", .nat r.endLine), ("endColumn", .nat r.endColumn),
    ("charOffset", .int r.charOffset), ("charLength", .int r.charLength)]

end SarifRegion

def SarifRule.toJson (r : SarifRule) : Json :=
  .obj [("id", .str r.id), ("shortDescription", .obj [("text", .str r.description)]),
    ("properties", .obj [("checker", .str r.checker)])]

namespace SarifResult

def ofFinding (source : Source) (index : LineIndex) (f : Finding) : SarifResult :=
  ⟨f.code, f.severity.text, f.message, source.name, .ofFinding index f⟩

def toJson (r : SarifResult) : Json :=
  .obj [("ruleId", .str r.ruleId), ("level", .str r.level),
    ("message", .obj [("text", .str r.message)]),
    ("locations", .arr [.obj [("physicalLocation", .obj [
      ("artifactLocation", .obj [("uri", .str r.uri)]),
      ("region", r.region.toJson)])]])]

end SarifResult

namespace SarifLog

/-- The rules with that of a finding, unless its code has one. -/
def addRule (rules : List SarifRule) (f : Finding) : List SarifRule :=
  if rules.any (·.id == f.code) then rules else rules ++ [⟨f.code, f.message, f.checker⟩]

/-- Adds a finding in a document with the given lines. -/
def add (log : SarifLog) (source : Source) (index : LineIndex) (f : Finding) : SarifLog :=
  ⟨addRule log.rules f, log.results ++ [.ofFinding source index f]⟩

/-- Adds all findings of a document. -/
def addAll (log : SarifLog) (source : Source) (findings : List Finding) : SarifLog :=
  let index := source.index
  findings.foldl (·.add source index) log

def toJson (log : SarifLog) (toolName toolVersion : String) : Json :=
  .obj [
    ("$schema", .str ("https://raw.githubusercontent.com/oasis-tcs/sarif-spec/master/" ++
      "Schemata/sarif-schema-2.1.0.json")),
    ("version", .str "2.1.0"),
    ("runs", .arr [.obj [
      ("tool", .obj [("driver", .obj [
        ("name", .str toolName),
        ("version", .str toolVersion),
        ("rules", .arr (log.rules.map SarifRule.toJson))])]),
      ("results", .arr (log.results.map SarifResult.toJson))]])]

def text (log : SarifLog) (toolName toolVersion : String) : String :=
  (log.toJson toolName toolVersion).document

end SarifLog

end LexLint
