import LexLint.Document.Collection
import LexLint.Document.Kind

/-!
Linting of documents as they change. An update has two steps: it begins by noting how often its
document has been closed, and it commits once it is its turn. Between the two the document may be
closed, and then the update is dropped. An update is also dropped if it carries a version below
the one recorded for its document.
-/

namespace LexLint

/-- Findings published so far, and for every document the version last published and how often it
has been closed. -/
structure Linter where
  runner : Runner
  collection : Collection
  versions : List (String × Int) := []
  generations : List (String × Nat) := []

/-- An update that has begun. -/
structure Ticket where
  document : String
  text : String
  version : Option Int
  /-- How often the document had been closed when the update began. -/
  generation : Nat
  deriving DecidableEq, Repr

/-- What a step leaves behind: the linter, the result that the caller gets, and the events. -/
structure LinterStep (α : Type) where
  linter : Linter
  result : α
  events : List Publication

namespace Linter

def version? (l : Linter) (document : String) : Option Int :=
  (l.versions.find? (·.1 == document)).map (·.2)

/-- How often a document has been closed. -/
def generation (l : Linter) (document : String) : Nat :=
  ((l.generations.find? (·.1 == document)).map (·.2)).getD 0

/-- The findings of a document's text. -/
def findings (l : Linter) (document text : String) : List Finding :=
  (l.runner.runCheckers (.ofString document text) l.runner.registry.enabled).findings

/-- Begins an update. -/
def begin (l : Linter) (document text : String) (version : Option Int) : Ticket :=
  ⟨document, text, version, l.generation document⟩

/-- A version is below the one recorded for a document. -/
def isStale (l : Linter) (document : String) (version : Option Int) : Bool :=
  match version, l.version? document with
  | some v, some last => v < last
  | _, _ => false

/-- Commits an update: publishes its findings, unless its document was closed since it began or
its version is stale. -/
def commit (l : Linter) (t : Ticket) : LinterStep (Option (List Finding)) :=
  if l.generation t.document ≠ t.generation ∨ l.isStale t.document t.version then ⟨l, none, []⟩
  else
    let findings := l.findings t.document t.text
    let (collection, events) := l.collection.set t.document findings
    let versions := match t.version with
      | some v => putEntry t.document v l.versions
      | none => l.versions
    ⟨{ l with collection := collection, versions := versions }, some findings, events⟩

/-- Closes a document: withdraws its findings and forgets its version. -/
def close (l : Linter) (document : String) : LinterStep Unit :=
  let (collection, events) := l.collection.delete document
  ⟨{ l with
      collection := collection
      versions := l.versions.filter (·.1 != document)
      generations := putEntry document (l.generation document + 1) l.generations },
    (), events⟩

/-- An update that nothing comes between. A document that is no script is left alone. -/
def update (l : Linter) (document text : String) (version : Option Int)
    (language : Option String) : LinterStep (Option (List Finding)) :=
  if isScript document language then l.commit (l.begin document text version)
  else ⟨l, none, []⟩

/-- An update whose document is closed between its two steps. -/
def updateRacedByClose (l : Linter) (document text : String) (version : Option Int) :
    LinterStep (Option (List Finding)) :=
  if isScript document none then
    let ticket := l.begin document text version
    let closed := l.close document
    let committed := closed.linter.commit ticket
    ⟨committed.linter, committed.result, closed.events ++ committed.events⟩
  else ⟨l, none, []⟩

/-- Changes the collection itself. -/
def publish (l : Linter) (change : Collection → Collection × List Publication) :
    LinterStep Unit :=
  let (collection, events) := change l.collection
  ⟨{ l with collection := collection }, (), events⟩

end Linter

end LexLint
