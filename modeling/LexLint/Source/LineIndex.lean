import LexLint.Text.Split

/-!
Lines of a text and the conversion between offsets and positions. A line ends at a newline; one
return directly before the newline, or at the end of the text, is no part of the line. Offsets,
lines and columns count from zero, and what lies outside the text is moved to its nearest place
inside.
-/

namespace LexLint

/-- Offsets from `start` to before `stop`. -/
structure Span where
  start : Nat
  stop : Nat
  deriving DecidableEq, Repr

/-- The part of a text within a span. -/
def slice (text : List Char) (span : Span) : List Char :=
  (text.drop span.start).take (span.stop - span.start)

/-- A line and a column. -/
structure Position where
  line : Nat
  column : Nat
  deriving DecidableEq, Repr

/-- A line without the return at its end. -/
def cutReturn (line : List Char) : List Char :=
  if line.getLast? = some '\r' then line.dropLast else line

/-- The spans of lines of which the first begins at `start`. -/
def spansFrom (start : Nat) : List (List Char) → List Span
  | [] => []
  | line :: rest =>
    ⟨start, start + (cutReturn line).length⟩ :: spansFrom (start + line.length + 1) rest

/-- The length of a text and the spans of its lines. -/
structure LineIndex where
  length : Nat
  spans : List Span
  deriving DecidableEq, Repr

namespace LineIndex

def ofText (text : List Char) : LineIndex :=
  ⟨text.length, spansFrom 0 (splitAtChar '\n' text)⟩

def lineCount (index : LineIndex) : Nat := index.spans.length

/-- The nearest offset of the text. -/
def clamp (index : LineIndex) (offset : Int) : Nat := min offset.toNat index.length

/-- The nearest line of the text. -/
def clampLine (index : LineIndex) (line : Int) : Nat := min line.toNat (index.lineCount - 1)

/-- The span of the nearest line. -/
def lineSpan (index : LineIndex) (line : Int) : Span :=
  (index.spans[index.clampLine line]?).getD ⟨0, 0⟩

def lineStart (index : LineIndex) (line : Int) : Nat := (index.lineSpan line).start

/-- The last line that starts at or before an offset, and how far into it the offset is. -/
def position (index : LineIndex) (offset : Int) : Position :=
  let o := index.clamp offset
  let line := index.spans.countP (fun s => s.start ≤ o) - 1
  ⟨line, o - index.lineStart line⟩

/-- The offset of a position; a column past the end of its line is moved there. -/
def offset (index : LineIndex) (line column : Int) : Nat :=
  let span := index.lineSpan line
  index.clamp (span.start + min column.toNat (span.stop - span.start))

end LineIndex

theorem length_spansFrom (start : Nat) (lines : List (List Char)) :
    (spansFrom start lines).length = lines.length := by
  induction lines generalizing start with
  | nil => rfl
  | cons line rest ih => simp [spansFrom, ih]

theorem LineIndex.lineCount_pos (text : List Char) : 0 < (LineIndex.ofText text).lineCount := by
  rw [LineIndex.lineCount, LineIndex.ofText, length_spansFrom]
  exact List.length_pos_iff.mpr (splitAtChar_ne_nil '\n' text)

end LexLint
