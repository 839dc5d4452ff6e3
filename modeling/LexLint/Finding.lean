import LexLint.Json.Printer
import LexLint.Source.LineIndex

/-!
Findings: a range of the text, what is said about it, how grave it is, and which check of which
checker says so.
-/

namespace LexLint

inductive Severity where
  | error
  | warning
  deriving DecidableEq, Repr

namespace Severity

def text : Severity → String
  | .error => "error"
  | .warning => "warning"

/-- A severity by its name, whatever the case of its letters and the blanks around it. Only ASCII
letters have a lower-case form among the letters of the names. -/
def ofText? (s : String) : Option Severity :=
  let name := (trimString s).toLower
  [Severity.error, .warning].find? (·.text == name)

/-- The message for a text that names no severity. -/
def unknownMessage (s : String) : String := "unknown severity: " ++ quoted s

theorem ofText?_text (s : Severity) : ofText? s.text = some s := by
  cases s <;> decide +kernel

end Severity

/-- The kinds of findings. -/
inductive Code where
  | mismatchedBracket
  | unexpectedBracket
  | unclosedBracket
  | missingKeywordSuffix
  | unclosedString
  | missingBuiltinPrefix
  | undefinedVariable
  | emptyDataType
  | malformedDataType
  | invalidDataType
  | missingDictBrace
  | unclosedDict
  | incompleteStatement
  | incompleteFunction
  | incompleteClass
  | missingSemicolon
  | checkerInternalError
  deriving DecidableEq, Repr

namespace Code

def all : List Code :=
  [.mismatchedBracket, .unexpectedBracket, .unclosedBracket, .missingKeywordSuffix,
   .unclosedString, .missingBuiltinPrefix, .undefinedVariable, .emptyDataType,
   .malformedDataType, .invalidDataType, .missingDictBrace, .unclosedDict,
   .incompleteStatement, .incompleteFunction, .incompleteClass, .missingSemicolon,
   .checkerInternalError]

/-- The name by which a code is shown and suppressed. -/
def text : Code → String
  | .mismatchedBracket => "mismatchedBracket"
  | .unexpectedBracket => "unexpectedBracket"
  | .unclosedBracket => "unclosedBracket"
  | .missingKeywordSuffix => "missingKeywordSuffix"
  | .unclosedString => "unclosedString"
  | .missingBuiltinPrefix => "missingBuiltinPrefix"
  | .undefinedVariable => "undefinedVariable"
  | .emptyDataType => "emptyDataType"
  | .malformedDataType => "malformedDataType"
  | .invalidDataType => "invalidDataType"
  | .missingDictBrace => "missingDictBrace"
  | .unclosedDict => "unclosedDict"
  | .incompleteStatement => "incompleteStatement"
  | .incompleteFunction => "incompleteFunction"
  | .incompleteClass => "incompleteClass"
  | .missingSemicolon => "missingSemicolon"
  | .checkerInternalError => "checkerInternalError"

theorem mem_all (c : Code) : c ∈ all := by
  cases c <;> decide

/-- The code with a name, if there is one. -/
def ofText? (s : String) : Option Code := all.find? (·.text == s)

theorem ofText?_text (c : Code) : ofText? c.text = some c := by
  cases c <;> decide +kernel

theorem text_injective {a b : Code} (h : a.text = b.text) : a = b :=
  Option.some.inj (by rw [← ofText?_text a, h, ofText?_text b])

end Code

/-- A finding. Its offsets may lie outside the text when it was not made by a checker. -/
structure Finding where
  start : Int
  stop : Int
  message : String
  severity : Severity
  code : String
  checker : String
  deriving DecidableEq, Repr

namespace Finding

/-- The fields of a finding in their order. -/
def fields (f : Finding) : List (String × Json) :=
  [("startOffset", .int f.start), ("endOffset", .int f.stop), ("message", .str f.message),
   ("severity", .str f.severity.text), ("code", .str f.code), ("checker", .str f.checker)]

/-- The fields for the lines and columns of a finding, counted from one. -/
def positionFields (f : Finding) (index : LineIndex) : List (String × Json) :=
  let first := index.position f.start
  let last := index.position f.stop
  [("line", .nat (first.line + 1)), ("column", .nat (first.column + 1)),
   ("endLine", .nat (last.line + 1)), ("endColumn", .nat (last.column + 1))]

/-- A finding as an object, with positions if there is an index. -/
def toJson (f : Finding) (index : Option LineIndex) : Json :=
  match index with
  | none => .obj f.fields
  | some index => .obj (f.fields ++ f.positionFields index)

/-- The one-line form `path:line:column: severity: message [code]`. -/
def gccLine (f : Finding) (path : String) (index : LineIndex) : String :=
  let p := index.position f.start
  s!"{path}:{p.line + 1}:{p.column + 1}: {f.severity.text}: {f.message} [{f.code}]"

end Finding

end LexLint
