/-!
Which documents are scripts: those whose editor says so, or, if it says nothing, those whose file
name has one of the language's extensions.
-/

namespace LexLint

/-- The language's identifier in editors. -/
def languageId : String := "tesseract"

def fileExtensions : List String := [".tes", ".tesseract"]

/-- A file name without its directory. -/
def baseName (path : List Char) : List Char := (path.reverse.takeWhile (· != '/')).reverse

/-- The extension of a path: its file name from the last point on. Points at the start of the file
name begin no extension. -/
def fileExtension (path : String) : String :=
  let base := (baseName path.toList).dropWhile (· == '.')
  let tail := base.reverse.takeWhile (· != '.')
  if tail.length = base.length then "" else String.ofList ('.' :: tail.reverse)

/-- The document is a script. Only ASCII letters have a lower-case form among the letters of the
extensions. -/
def isScript (document : String) (language : Option String) : Bool :=
  match language with
  | some l => l == languageId
  | none => fileExtensions.contains (fileExtension document).toLower

end LexLint
