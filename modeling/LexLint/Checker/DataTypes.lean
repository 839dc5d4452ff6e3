import LexLint.Checker.Basic
import LexLint.Scan.Angle
import LexLint.Text.WordChar
import LexLint.Vocabulary

/-!
Reports type annotations that are empty, hold blanks around a type's name, or name no type. A run
that holds anything but one identifier is a comparison and no annotation.
-/

namespace LexLint.DataTypes

/-- The composite types in a sentence, with a conjunction before the last. -/
def typeList (conjunction : String) : String :=
  let names := Vocabulary.compositeTypes.map fun t => "<" ++ t ++ ">"
  joinStrings ", " names.dropLast ++ ", " ++ conjunction ++ " " ++ names.getLastD ""

def site? (run : AngleSpan) : Option Site :=
  let name := trim run.inner
  let text := String.ofList name
  let report := fun code message => some (Site.at code message run.span.start run.span.stop)
  if name.isEmpty then
    report .emptyDataType ("Empty data type brackets. Should be " ++ typeList "or")
  else if Vocabulary.compositeTypes.contains text then
    if run.inner = name then none
    else report .malformedDataType s!"Malformed data type. Should be <{text}> without spaces"
  else if run.inner = name ∧ isIdentifier name then
    report .invalidDataType
      (s!"Invalid data type <{text}>. Valid types are " ++ typeList "and")
  else none

def sites (source : Source) (options : Options) : List Site :=
  (scanAngles options.typeSpanLimit source.code).filterMap site?

def checker : Checker :=
  .ofSites "data-types" "DataTypeChecker" "Empty, malformed or unknown <type> annotations"
    [.emptyDataType, .malformedDataType, .invalidDataType] sites

end LexLint.DataTypes
