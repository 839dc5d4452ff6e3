import LexLint.Source.View
import LexLint.Source.LineIndex
import LexLint.Text.Quoted

/-!
A document: its name and its text, with the views and lines that the checkers read.
-/

namespace LexLint

structure Source where
  name : String
  text : List Char

/-- One line of a document, cut from the text and from its two views. -/
structure Line where
  number : Nat
  span : Span
  raw : List Char
  masked : List Char
  code : List Char

/-- The line holds nothing but a comment. -/
def Line.isComment (line : Line) : Bool := (trim line.raw).head? == some '#'

/-- Cuts lines out of a text and its two views, all given from an offset on. -/
def linesFrom (number offset : Nat) (raw masked code : List Char) : List Span → List Line
  | [] => []
  | span :: rest =>
    let skip := span.start - offset
    let size := span.stop - span.start
    let raw := raw.drop skip
    let masked := masked.drop skip
    let code := code.drop skip
    ⟨number, span, raw.take size, masked.take size, code.take size⟩ ::
      linesFrom (number + 1) span.start raw masked code rest

/-- Each line is the slice of its span. -/
theorem linesFrom_spansFrom (text masked code : List Char) (pieces : List (List Char))
    (number offset start : Nat) (h : offset ≤ start) :
    linesFrom number offset (text.drop offset) (masked.drop offset) (code.drop offset)
        (spansFrom start pieces) =
      ((spansFrom start pieces).zipIdx number).map fun (span, n) =>
        ⟨n, span, slice text span, slice masked span, slice code span⟩ := by
  induction pieces generalizing number offset start with
  | nil => rfl
  | cons piece rest ih =>
    have cut (view : List Char) : (view.drop offset).drop (start - offset) = view.drop start := by
      rw [List.drop_drop, Nat.add_sub_cancel' h]
    have later := ih (number + 1) start (start + piece.length + 1) (by omega)
    simp only [spansFrom, linesFrom, cut, later, List.zipIdx_cons, List.map_cons, slice]

namespace Source

/-- The name of a document that has none. -/
def defaultName : String := "<input>"

def ofString (name text : String) : Source := ⟨name, text.toList⟩

def length (source : Source) : Nat := source.text.length

def masked (source : Source) : List Char := mask source.text

def code (source : Source) : List Char := codeView source.text

def index (source : Source) : LineIndex := LineIndex.ofText source.text

def lines (source : Source) : List Line :=
  linesFrom 0 0 source.text source.masked source.code source.index.spans

theorem lines_eq (source : Source) :
    source.lines = source.index.spans.zipIdx.map fun (span, n) =>
      ⟨n, span, slice source.text span, slice source.masked span, slice source.code span⟩ :=
  linesFrom_spansFrom source.text source.masked source.code (splitAtChar '\n' source.text) 0 0 0
    (Nat.le_refl 0)

/-- The raw text of a line, or nothing past the last line. -/
def rawLine (source : Source) (index : LineIndex) (number : Nat) : List Char :=
  match index.spans[number]? with
  | some span => slice source.text span
  | none => []

/-- A document named by its kind, name and length. -/
def summary (source : Source) : String :=
  s!"SourceText({quoted source.name}, {source.length} chars)"

end Source

end LexLint
