import LexLint.Text.Split

/-!
Paths: names with slashes between them. A path that begins with a slash starts at the root, and
any other in the working directory.
-/

namespace LexLint

/-- The longest name of a file, in octets. -/
def maxNameSize : Nat := 255

/-- A path is shorter than this, in octets. -/
def maxPathSize : Nat := 4096

/-- The parts of a path between its slashes. -/
def pathParts (path : String) : List String := (splitAtChar '/' path.toList).map String.ofList

/-- The path begins at the root. -/
def isAbsolute (path : String) : Bool := path.toList.head? == some '/'

/-- No file has a path with a NUL in it. -/
def hasNul (path : String) : Bool := path.toList.contains (Char.ofNat 0)

/-- A path without empty parts and parts `.`, as a side file's path is shown. -/
def normalizePath (path : String) : String :=
  let parts := (pathParts path).filter fun p => p != "" && p != "."
  let slashes := (path.toList.takeWhile (· == '/')).length
  let root := if slashes = 0 then "" else if slashes = 2 then "//" else "/"
  let normal := root ++ joinStrings "/" parts
  if normal.isEmpty then "." else normal

end LexLint
