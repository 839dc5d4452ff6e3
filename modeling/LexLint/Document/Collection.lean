import LexLint.Run

/-!
The findings published for documents. A document that is published again keeps its place, and one
that is removed and published later comes last. Every change is an event that a listener can
follow.
-/

namespace LexLint

/-- What a listener is told: the findings that a document now has. -/
structure Publication where
  document : String
  findings : List Finding
  deriving DecidableEq, Repr

/-- The published findings by document, in the order of publication. -/
structure Collection where
  name : String
  entries : List (String × List Finding) := []
  deriving DecidableEq, Repr

namespace Collection

def contains (c : Collection) (document : String) : Bool :=
  c.entries.any (·.1 == document)

/-- The findings of a document, or none if it is not published. -/
def get (c : Collection) (document : String) : List Finding :=
  ((c.entries.find? (·.1 == document)).map (·.2)).getD []

def size (c : Collection) : Nat := c.entries.length

/-- Publishes findings in the place of the document's earlier ones. -/
def set (c : Collection) (document : String) (findings : List Finding) :
    Collection × List Publication :=
  ({ c with entries := putEntry document findings c.entries }, [⟨document, findings⟩])

/-- Withdraws a document. There is no event if it was not published. -/
def delete (c : Collection) (document : String) : Collection × List Publication :=
  ({ c with entries := c.entries.filter (·.1 != document) },
    if c.contains document then [⟨document, []⟩] else [])

/-- Withdraws all documents. -/
def clear (c : Collection) : Collection × List Publication :=
  ({ c with entries := [] }, c.entries.map fun e => ⟨e.1, []⟩)

def summary (c : Collection) : String :=
  s!"<DiagnosticCollection '{c.name}' ({c.size} documents)>"

end Collection

end LexLint
