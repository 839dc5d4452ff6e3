import LexLint.CommandLine.Session

/-!
The program as the system calls it. What a call does is decided by `CommandLine.run`; here its
files, environment and input are gathered, and what it leaves behind is written. Of the templates of
callers, only those of plain text are laid out here.
-/

namespace LexLint

/-- Why the system refused a path. -/
def fileErrorOf : IO.Error → FileError
  | .permissionDenied .. => .accessDenied
  | .inappropriateType _ 20 _ => .notDirectory
  | .inappropriateType .. => .isDirectory
  | .invalidArgument _ 36 _ => .nameTooLong
  | _ => .noEntry

/-- Why standard output did not take a text. -/
def outputFaultOf : IO.Error → CommandLine.OutputFault
  | .resourceVanished .. => .brokenPipe
  | e => .refused (toString e)

/-- What is at a path. -/
def probe (path : String) : IO (Option FileNode) := do
  try
    return some (.file (← IO.FS.readBinFile path).toList)
  catch e =>
    return match fileErrorOf e with
      | .isDirectory => some .directory
      | .accessDenied => some (.refused .accessDenied)
      | _ => none

/-- The place of a path, by its parts alone. -/
def placeOf (directory : List String) (path : String) : List String :=
  (pathParts path).foldl (fun place name =>
    if name = "" ∨ name = "." then place
    else if name = ".." then place.dropLast
    else place ++ [name]) (if isAbsolute path then [] else directory)

/-- The path and all beginnings of it that end before a slash. -/
def pathBeginnings (path : String) : List String :=
  let parts := pathParts path
  (List.range parts.length).map fun n => joinStrings "/" (parts.take (n + 1))

/-- The files at some paths, and the directories on the way to them. -/
def gather (directory : List String) (paths : List String) : IO FileTree := do
  let found ← (paths.flatMap pathBeginnings).filterMapM fun path => do
    if path.isEmpty then return none
    return (← probe path).map fun node => (placeOf directory path, node)
  return { nodes := found, directory := directory }

/-- A place as a path from the root. -/
def rootPath (place : List String) : String := "/" ++ joinStrings "/" place

/-- Why a place cannot be opened for writing. A file that exists is left as it is. -/
def tryCreate (place : List String) : IO (Option (List String × FileNode)) := do
  try
    discard (IO.FS.Handle.mk (rootPath place) .append)
    return none
  catch e => return some (place, .refused (fileErrorOf e))

/-- All octets of a stream. -/
partial def readAll (stream : IO.FS.Stream) (done : ByteArray) : IO ByteArray := do
  let chunk ← stream.read 65536
  if chunk.isEmpty then return done else readAll stream (done ++ chunk)

/-- The variables that the program looks at. -/
def variableNames : List String :=
  OptionKey.all.map OptionKey.environmentName ++
    [sarifVariable, htmlVariable, templateVariable, "ANSI_COLORS_DISABLED", "NO_COLOR",
     "FORCE_COLOR", "TERM"]

def readEnvironment : IO Environment :=
  variableNames.filterMapM fun name => do
    return (← IO.getEnv name).map fun value => (name, value)

/-- The parser of arguments here takes `--` for a value. -/
def dashes : CommandLine.DashRule := .isValue

/-- The documents that a call reads. -/
def documentPaths (arguments : List String) : List String :=
  match CommandLine.parseCall dashes arguments with
  | .ok { command := some (.check request), .. } => request.paths
  | _ => []

/-- The files that a call reads or writes besides its documents. -/
def sidePaths (environment : Environment) (arguments : List String) : List String :=
  match CommandLine.parseCall dashes arguments with
  | .ok { command := some (.check request), .. } =>
    request.output.toList ++
      ([sarifVariable, htmlVariable, templateVariable].filterMap environment.get?)
  | _ => []

end LexLint

open LexLint in
def main (arguments : List String) : IO UInt32 := do
  let environment ← readEnvironment
  let documents := documentPaths arguments
  let directory := (pathParts (← IO.currentDir).toString).filter (· != "")
  let files ← gather directory
    (documents.filter (· != "-") ++ sidePaths environment arguments)
  let input ← if documents.contains "-" then readAll (← IO.getStdin) .empty else pure .empty
  let stdout ← IO.getStdout
  let terminal ← stdout.isTty
  let run := fun files =>
    CommandLine.run
      { environment, files, input := some input.toList, output := { terminal },
        engine := HtmlTemplate.plainEngine, dashes }
      arguments
  let planned := (run files).files.changedSince files
  let refused ← (planned.map (·.1)).filterMapM tryCreate
  let allowed := refused.foldl (fun t (place, node) => t.store place node) files
  let outcome := run allowed
  for (place, octets) in outcome.files.changedSince allowed do
    IO.FS.writeBinFile (rootPath place) ⟨octets.toArray⟩
  let stderr ← IO.getStderr
  stderr.putStr outcome.err
  try
    stdout.putStr outcome.out
    stdout.flush
    return outcome.exit.toUInt32
  catch e =>
    let abort := CommandLine.Abort.output (outputFaultOf e)
    stderr.putStr (abort.lastWords 0)
    return abort.exit.toUInt32
