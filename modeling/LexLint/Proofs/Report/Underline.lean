import LexLint.Proofs.Checker.LineStarts
import LexLint.Proofs.Report.Findings
import LexLint.Report.Terminal
import Mathlib.Order.Interval.Finset.Nat

/-!
# Carets below the text

A terminal shows the line on which a finding begins and marks with carets, in the row below, the
characters of the finding that are on the line. How many carets there are comes from the ends of the
finding and of the line, and how far in they begin comes from a position; both count from the same
place because the finding begins on the line (`Terminal.exists_marks`). The findings of the checkers
of the language do (`carets_mark_findings`).
-/

namespace LexLint

theorem Source.rawLine_of_getElem?_lines {source : Source} {n : Nat} {line : Line}
    (found : source.lines[n]? = some line) : source.rawLine source.index n = line.raw := by
  rw [rawLine, ← map_span_lines, List.getElem?_map, found]
  exact (stands_of_mem_lines (List.mem_of_getElem? found)).raw.symm

/-- The offsets within a span that are in the range of a finding. -/
def Finding.offsetsOn (f : Finding) (span : Span) : Finset Nat :=
  (Finset.range span.stop).filter fun i => span.start ≤ i ∧ f.start ≤ i ∧ i < f.stop

/-- A finding that begins within a span covers it from there on, to where the first of them ends. -/
theorem Finding.card_offsetsOn {f : Finding} {span : Span} {start : Nat} (placed : f.start = start)
    (begins : span.start ≤ start) :
    (f.offsetsOn span).card = (min f.stop span.stop - start).toNat := by
  have interval : f.offsetsOn span = Finset.Ico start (min f.stop span.stop).toNat := by
    ext i
    simp only [offsetsOn, Finset.mem_filter, Finset.mem_range, Finset.mem_Ico, placed]
    omega
  rw [interval, Nat.card_Ico]
  omega

namespace Terminal

def blanks (n : Nat) : String := String.ofList (List.replicate n ' ')

def carets (n : Nat) : String := String.ofList (List.replicate n '^')

/-- A row with a bar behind a gutter. -/
def row (ansi : Bool) (gutter body : String) : String :=
  " " ++ gutter ++ " " ++ boldIn ansi .blue "|" ++ " " ++ body

/-- A finding is drawn as a line of text and, behind as many blanks as its column says and a gutter
of the same width, a number of carets below. -/
def Draws (source : Source) (f : Finding) (text : List Char) (width : Nat) : Prop :=
  ∀ ansi, ∃ heading place notes,
    let p := source.index.position f.start
    let number := toString (p.line + 1)
    render ansi source source.index f = joinStrings "\n" (heading :: place ::
      row ansi (boldIn ansi .blue (" " ++ number)) (String.ofList text) ::
      row ansi (blanks (number.length + 1))
        (blanks p.column ++ boldIn ansi f.severity.colour (carets width)) :: notes) ++ "\n"

/-- The carets below a line mark the characters of a finding that are on it, as long as there are
any; they end with the line at the latest, unless there is only one. -/
structure Marks (source : Source) (f : Finding) (line : Line) (width : Nat) : Prop where
  start_nonneg : 0 ≤ f.start
  found : source.lines[(source.index.position f.start).line]? = some line
  isLine : IsLine source.text (source.index.position f.start).line line.span
  draws : Draws source f line.raw width
  covers : (f.offsetsOn line.span).Nonempty →
    let column := (source.index.position f.start).column
    width = (f.offsetsOn line.span).card ∧
      slice line.raw ⟨column, column + width⟩ =
        slice source.text ⟨f.start.toNat, f.start.toNat + width⟩
  single : f.offsetsOn line.span = ∅ →
    width = 1 ∧ (source.index.position f.start).column ≤ line.raw.length
  fits : let column := (source.index.position f.start).column
    column + width ≤ max line.raw.length (column + 1)

theorem draws_rawLine {source : Source} {f : Finding} {n : Nat}
    (number : (source.index.position f.start).line = n) :
    Draws source f (source.rawLine source.index n)
      (caretCount f (source.index.lineSpan n).stop) := by
  intro ansi
  subst number
  simp only [render, row, blanks, carets, List.cons_append, List.nil_append, String.append_assoc]
  exact ⟨_, _, _, rfl⟩

/-- There are as many carets as the finding has offsets on its line, and at least one. -/
theorem caretCount_eq {f : Finding} {span : Span} {start : Nat} (placed : f.start = start)
    (begins : span.start ≤ start) :
    caretCount f span.stop = max (f.offsetsOn span).card 1 := by
  rw [Finding.card_offsetsOn placed begins, caretCount, placed]
  omega

/-- A finding that lies in the text and begins on a line is marked there. -/
theorem exists_marks {source : Source} {f : Finding} (inText : f.LiesIn source.text)
    (onLine : ¬ BehindReturn source.text f.start.toNat) :
    ∃ line width, Marks source f line width := by
  obtain ⟨start, placed⟩ := Int.eq_ofNat_of_zero_le inText.1
  have inside : start ≤ source.text.length := by
    have := inText.2
    omega
  rw [placed, Int.toNat_natCast] at onLine
  obtain ⟨line, found, span, begins, ends, position⟩ := source.exists_line_at inside onLine
  rw [← placed] at position
  have number : (source.index.position f.start).line = lineAt source.text start := by
    rw [position]
  have column : (source.index.position f.start).column = start - line.span.start := by
    rw [position]
  have stands := Source.stands_of_mem_lines (List.mem_of_getElem? found)
  have size : line.raw.length = line.span.stop - line.span.start := by
    rw [stands.raw, length_slice stands.stop_le]
  -- The carets are counted by offsets, and end within the line because the offsets do.
  have count := caretCount_eq placed begins
  have reach : start + (f.offsetsOn line.span).card ≤ line.span.stop := by
    rw [Finding.card_offsetsOn placed begins]
    omega
  refine ⟨line, caretCount f line.span.stop, ?start_nonneg, ?found, ?isLine, ?draws, ?covers,
    ?single, ?fits⟩
  case start_nonneg => exact inText.1
  case found => rwa [number]
  case isLine =>
    rw [number]
    exact Source.isLine_of_getElem?_lines found
  case draws =>
    have drawn := draws_rawLine number
    rwa [span, Source.rawLine_of_getElem?_lines found] at drawn
  case covers =>
    intro covered
    have pos := covered.card_pos
    have width : caretCount f line.span.stop = (f.offsetsOn line.span).card := by omega
    refine ⟨width, ?_⟩
    rw [column, stands.raw, slice_slice (by omega), placed, Int.toNat_natCast]
    congr 2 <;> omega
  case single =>
    intro empty
    rw [empty, Finset.card_empty] at count
    omega
  case fits => omega

end Terminal

/-- **Carets mark the right characters.** Whatever the document holds and however the run is set up,
a finding of the checkers of the language is shown with the line on which it begins. If any of its
characters are on that line, return and newline aside, there are as many carets as these, below
these; else there is one caret, on the line or right behind it. -/
theorem carets_mark_findings {runner : Runner} {names : Option (List String)}
    {checkers : List Checker} (chosen : runner.registry.resolve names = .ok checkers)
    (builtins : ∀ c ∈ checkers, c ∈ Registry.builtinCheckers) (source : Source) :
    ∃ result, runner.run source names = .ok result ∧
      ∀ f ∈ result.findings, ∃ line width, Terminal.Marks source f line width := by
  have ran : runner.run source names = .ok (runner.runCheckers source checkers) := by
    rw [Runner.run, chosen]
    rfl
  refine ⟨_, ran, fun f hf => ?_⟩
  obtain ⟨turn, inTurns, found⟩ := List.mem_flatMap.mp hf
  exact Terminal.exists_marks (liesIn_of_mem_takeTurns inTurns found)
    (ofBuiltin_of_mem_takeTurns builtins inTurns found).not_behindReturn

/-- An unclosed string goes on to the newline, but the return before that is not marked. -/
theorem carets_mark_findings_before_return :
    let source : Source := .ofString "a" "\"ab\r\n"
    let names := some ["strings"]
    Registry.builtin.resolve names = .ok [Strings.checker] ∧
      (∀ c ∈ [Strings.checker], c ∈ Registry.builtinCheckers) ∧
      ∃ result, ({} : Runner).run source names = .ok result ∧
        result.findings.map (fun f => (f.start, f.stop)) = [(0, 4)] ∧
        ∀ f ∈ result.findings, ∃ line, Terminal.Marks source f line 3 := by
  intro source names
  have chosen : Registry.builtin.resolve names = .ok [Strings.checker] := rfl
  have builtins : ∀ c ∈ [Strings.checker], c ∈ Registry.builtinCheckers := by
    simp [Registry.builtinCheckers]
  obtain ⟨result, runs, marked⟩ :=
    @carets_mark_findings {} names [Strings.checker] chosen builtins source
  have ran : result = ({} : Runner).runCheckers source [Strings.checker] :=
    Except.ok.inj (runs.symm.trans rfl)
  have only : result.findings =
      [⟨0, 4, "Unclosed string literal", .error, "unclosedString", "strings"⟩] := by
    rw [ran]
    decide +kernel
  refine ⟨chosen, builtins, result, runs, by rw [only]; rfl, fun f hf => ?_⟩
  obtain ⟨line, width, marks⟩ := marked f hf
  rw [only, List.mem_singleton] at hf
  subst hf
  have first : (source.lines[(source.index.position 0).line]?).map (·.span) = some ⟨0, 3⟩ := by
    decide +kernel
  have span : line.span = ⟨0, 3⟩ := by
    rw [marks.found] at first
    exact Option.some.inj first
  have three : width = 3 := by
    have covers := marks.covers
    rw [span] at covers
    exact (covers (by decide)).1
  exact ⟨line, three ▸ marks⟩

end LexLint
