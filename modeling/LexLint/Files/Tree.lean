import LexLint.Files.Error
import LexLint.Files.Path

/-!
Files by path. A path is walked part by part, and each part but the last has to be a directory.
A file is opened for writing by emptying it; what is then written goes to a place in it, even if
the file has been emptied or written anew in between.
-/

namespace LexLint

/-- What a name in a directory stands for. -/
inductive FileNode where
  | file (octets : List UInt8)
  | directory
  /-- Reads as empty, and keeps nothing of what is written to it. -/
  | sink
  /-- Cannot be opened. -/
  | refused (error : FileError)
  deriving DecidableEq, Repr

/-- Files and directories by the names on the way to them from the root. -/
structure FileTree where
  nodes : List (List String × FileNode) := []
  /-- The working directory. -/
  directory : List String := []
  deriving DecidableEq, Repr

/-- Octets with others written over them from a position on. What was never written before that
position is zero. -/
def overwriteAt (old : List UInt8) (position : Nat) (new : List UInt8) : List UInt8 :=
  if new.isEmpty then old
  else
    old.take position ++ List.replicate (position - old.length) 0 ++ new ++
      old.drop (position + new.length)

theorem overwriteAt_empty (new : List UInt8) : overwriteAt [] 0 new = new := by
  cases new <;> simp [overwriteAt]

/-- Writing where a file ends makes it longer. -/
theorem overwriteAt_length (old new : List UInt8) :
    overwriteAt old old.length new = old ++ new := by
  cases new <;> simp [overwriteAt]

namespace FileTree

/-- What is at a place. A directory exists as soon as something is in it. -/
def node? (t : FileTree) (place : List String) : Option FileNode :=
  match t.nodes.find? (·.1 == place) with
  | some (_, node) => some node
  | none =>
    if place.isPrefixOf t.directory || t.nodes.any (fun n => place.isPrefixOf n.1) then
      some .directory
    else none

def isDirectory (t : FileTree) (place : List String) : Bool := t.node? place == some .directory

/-- The place one name further. The root is its own parent. -/
def enter (t : FileTree) (place : List String) (name : String) :
    Except FileError (List String) :=
  if !t.isDirectory place then .error .notDirectory
  else if name = "" ∨ name = "." then .ok place
  else if name = ".." then .ok place.dropLast
  else if maxNameSize < name.utf8ByteSize then .error .nameTooLong
  else if (t.node? (place ++ [name])).isSome then .ok (place ++ [name])
  else .error .noEntry

def walk (t : FileTree) (place : List String) : List String → Except FileError (List String)
  | [] => .ok place
  | name :: rest =>
    match t.enter place name with
    | .error e => .error e
    | .ok next => t.walk next rest

/-- Where a path begins. -/
def startOf (t : FileTree) (path : String) : List String :=
  if isAbsolute path then [] else t.directory

/-- The place of a path. -/
def locate (t : FileTree) (path : String) : Except FileError (List String) :=
  if path.isEmpty then .error .noEntry
  else if maxPathSize ≤ path.utf8ByteSize then .error .nameTooLong
  else t.walk (t.startOf path) (pathParts path)

/-- The contents of the file at a path. -/
def read (t : FileTree) (path : String) : Except FileError (List UInt8) :=
  match t.locate path with
  | .error e => .error e
  | .ok place =>
    match t.node? place with
    | some (.file octets) => .ok octets
    | some .sink => .ok []
    | some .directory => .error .isDirectory
    | some (.refused e) => .error e
    | none => .error .noEntry

/-- A path is a file; what does not exist is none. -/
def isFile (t : FileTree) (path : String) : Except FileError Bool :=
  match t.locate path with
  | .error .nameTooLong => .error .nameTooLong
  | .error _ => .ok false
  | .ok place =>
    match t.node? place with
    | some (.file _) => .ok true
    | some (.refused _) => .ok true
    | _ => .ok false

/-- The place at which a file can be written under a path. -/
def target (t : FileTree) (path : String) : Except FileError (List String) :=
  let parts := pathParts path
  let named := (parts.reverse.dropWhile (· == "")).reverse
  let last := named.getLastD ""
  if path.isEmpty then .error .noEntry
  else if maxPathSize ≤ path.utf8ByteSize then .error .nameTooLong
  else
    match t.walk (t.startOf path) named.dropLast with
    | .error e => .error e
    | .ok place =>
      if !t.isDirectory place then .error .notDirectory
      else if named.length < parts.length ∨ last = "" ∨ last = "." ∨ last = ".." then
        .error .isDirectory
      else if maxNameSize < last.utf8ByteSize then .error .nameTooLong
      else
        match t.node? (place ++ [last]) with
        | some .directory => .error .isDirectory
        | some (.refused e) => .error e
        | _ => .ok (place ++ [last])

/-- The tree with a node at a place. -/
def store (t : FileTree) (place : List String) (node : FileNode) : FileTree :=
  { t with nodes := t.nodes.filter (·.1 != place) ++ [(place, node)] }

/-- Opens a path for writing: its place, and the tree in which the file there is empty. -/
def create (t : FileTree) (path : String) : Except FileError (List String × FileTree) :=
  match t.target path with
  | .error e => .error e
  | .ok place =>
    if t.node? place = some .sink then .ok (place, t) else .ok (place, t.store place (.file []))

/-- Writes into the file at a place. -/
def put (t : FileTree) (place : List String) (position : Nat) (octets : List UInt8) : FileTree :=
  match t.node? place with
  | some (.file old) => t.store place (.file (overwriteAt old position octets))
  | _ => t

/-- Opens a path for writing and gives it its contents. -/
def write (t : FileTree) (path : String) (octets : List UInt8) : Except FileError FileTree :=
  match t.create path with
  | .error e => .error e
  | .ok (place, opened) => .ok (opened.put place 0 octets)

theorem node?_store_self (t : FileTree) (place : List String) (node : FileNode) :
    (t.store place node).node? place = some node := by
  have gone : (t.nodes.filter (·.1 != place)).find? (·.1 == place) = none := by
    simp
  simp [node?, store, List.find?_append, gone]

/-- The files that differ from those of an earlier tree, by place. -/
def changedSince (t earlier : FileTree) : List (List String × List UInt8) :=
  t.nodes.filterMap fun (place, node) =>
    match node with
    | .file octets => if earlier.node? place = some node then none else some (place, octets)
    | _ => none

/-- The path from the working directory to a place in it. -/
def pathTo? (t : FileTree) (place : List String) : Option String :=
  if t.directory.isPrefixOf place then
    some (joinStrings "/" (place.drop t.directory.length))
  else none

end FileTree

end LexLint
