import LexLint.Text.Integer
import LexLint.Text.Quoted
import LexLint.Text.Utf8

/-!
What can go wrong with files: a path that cannot be opened, which the program reports, and the
failures that end it.
-/

namespace LexLint

/-- Why a path cannot be opened. -/
inductive FileError where
  | noEntry
  | accessDenied
  | notDirectory
  | isDirectory
  | nameTooLong
  deriving DecidableEq, Repr

namespace FileError

def number : FileError → Nat
  | .noEntry => 2
  | .accessDenied => 13
  | .notDirectory => 20
  | .isDirectory => 21
  | .nameTooLong => 36

def text : FileError → String
  | .noEntry => "No such file or directory"
  | .accessDenied => "Permission denied"
  | .notDirectory => "Not a directory"
  | .isDirectory => "Is a directory"
  | .nameTooLong => "File name too long"

/-- The error with its number and the path. -/
def message (e : FileError) (path : String) : String :=
  s!"[Errno {e.number}] {e.text}: {quoted path}"

end FileError

/-- A failure that nobody foresaw and that ends the program. -/
inductive Crash where
  /-- A text that had to be UTF-8 is not. -/
  | encoding (fault : Utf8.Fault)
  /-- A path with a NUL in it was asked for. -/
  | nulInPath
  /-- Names were to be taken from an option that came without its value. -/
  | valueMissing
  | number (fault : NumberFault)
  /-- A page cannot be laid out by its template, for the reason given. -/
  | template (reason : String)
  deriving DecidableEq, Repr

def Crash.message : Crash → String
  | .encoding fault => fault.message
  | .nulInPath => "embedded null byte"
  | .valueMissing => "'list' object has no attribute 'split'"
  | .number fault => fault.message
  | .template reason => reason

end LexLint
