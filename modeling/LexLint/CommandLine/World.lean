import LexLint.CommandLine.Commands

/-!
What a call of the program finds around it, and what it leaves behind. Standard output may fail, as
a pipe does once nobody reads from it any more. Texts may be held back before they are passed on,
so that a failure need not show where the text was handed over.
-/

namespace LexLint.CommandLine

/-- Why standard output does not take a text. -/
inductive OutputFault where
  /-- Nobody reads from the pipe any more. -/
  | brokenPipe
  /-- The system refuses the text, for the reason given. -/
  | refused (reason : String)
  /-- Standard output has no octets for the text, for the reason given. -/
  | encoding (reason : String)
  deriving DecidableEq, Repr

/-- Standard output, by when it fails. What it does may depend on all that it was handed before. -/
structure Outlet where
  terminal : Bool := false
  /-- The failure when a text is handed over, after other texts. -/
  writeFault? (before text : String) : Option OutputFault := none
  /-- The failure when all texts handed over are to be passed on. -/
  flushFault? (written : String) : Option OutputFault := none

namespace Outlet

/-- Standard output from which nothing gets any further. Texts are held back up to a number of
octets. -/
def blocked (fault : OutputFault) (capacity : Nat) : Outlet where
  writeFault? before text :=
    if capacity < (before ++ text).utf8ByteSize then some fault else none
  flushFault? written := if written.isEmpty then none else some fault

/-- A pipe that nobody has read from. -/
def closedPipe (capacity : Nat) : Outlet := blocked .brokenPipe capacity

end Outlet

/-- What a call finds around it. -/
structure World where
  environment : Environment
  files : FileTree
  /-- The octets of standard input, or nothing if reading them is interrupted. -/
  input : Option (List UInt8)
  output : Outlet := {}
  /-- The engine that lays out pages by templates. -/
  engine : TemplateEngine
  /-- The rule of the parser of arguments. -/
  dashes : DashRule

/-- What a call leaves behind. -/
structure Outcome where
  exit : Nat
  /-- What was handed to standard output. -/
  out : String := ""
  err : String := ""
  files : FileTree

end LexLint.CommandLine
