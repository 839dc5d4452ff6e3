import LexLint.Proofs.View.Returns

/-!
# Columns by their newlines

The column of an offset is the number of characters behind the last newline before it
(`position_eq_at`). So the position of an offset can be told from the text before it, and later
offsets have later positions (`Position.at_notAfter`).
-/

namespace LexLint

/-- How far into its line an offset is: how many characters stand before it, back to a newline. -/
def columnAt (text : List Char) (offset : Nat) : Nat :=
  ((text.take offset).reverse.takeWhile (· ≠ '\n')).length

/-- The position of an offset, by the text before it. -/
def Position.at (text : List Char) (offset : Nat) : Position :=
  ⟨lineAt text offset, columnAt text offset⟩

/-- An earlier line, or the same line and no later column. -/
def Position.NotAfter (p q : Position) : Prop :=
  p.line < q.line ∨ p.line = q.line ∧ p.column ≤ q.column

theorem lineAt_add (text : List Char) (start n : Nat) :
    lineAt text (start + n) = lineAt text start + ((text.drop start).take n).count '\n' := by
  rw [lineAt, lineAt, List.take_add, List.count_append]

theorem lineAt_mono (text : List Char) {a b : Nat} (h : a ≤ b) : lineAt text a ≤ lineAt text b := by
  obtain ⟨n, rfl⟩ := Nat.exists_eq_add_of_le h
  rw [lineAt_add]
  exact Nat.le_add_right _ _

/-- A line begins where the text does or behind a newline. -/
def BeginsLine (text : List Char) (start : Nat) : Prop :=
  start = 0 ∨ text[start - 1]? = some '\n'

/-- Fewer newlines stand before an offset than before a line that begins later. -/
theorem BeginsLine.le_of_lineAt_eq {text : List Char} {start offset : Nat}
    (begins : BeginsLine text start) (same : lineAt text start = lineAt text offset) :
    start ≤ offset := by
  rcases begins with rfl | newline
  · exact Nat.zero_le offset
  · apply Nat.le_of_not_lt
    intro before
    have earlier := lineAt_mono text (show offset ≤ start - 1 by omega)
    have next := lineAt_add text (start - 1) 1
    rw [List.take_one, List.head?_drop, newline, Nat.sub_add_cancel (by omega)] at next
    simp at next
    omega

theorem BeginsLine.columnAt_self {text : List Char} {start : Nat}
    (begins : BeginsLine text start) : columnAt text start = 0 := by
  by_cases first : start = 0
  · rw [first]
    rfl
  · have last : (text.take start).getLast? = some '\n' := by
      rw [List.getLast?_take, if_neg first, begins.resolve_left first, Option.some_or]
    obtain ⟨front, split⟩ := List.getLast?_eq_some_iff.mp last
    rw [columnAt, split, List.reverse_append]
    rfl

/-- Where no newline stands between two offsets, the columns are as far apart. -/
theorem columnAt_of_lineAt_eq {text : List Char} {a b : Nat} (le : a ≤ b) (h : b ≤ text.length)
    (same : lineAt text a = lineAt text b) : columnAt text b = columnAt text a + (b - a) := by
  obtain ⟨n, rfl⟩ := Nat.exists_eq_add_of_le le
  have free : '\n' ∉ (text.drop a).take n := by
    rw [lineAt_add] at same
    rw [← List.count_eq_zero]
    omega
  have between : ∀ c ∈ ((text.drop a).take n).reverse, decide (c ≠ '\n') = true := by
    intro c hc
    rw [List.mem_reverse] at hc
    exact decide_eq_true fun newline => free (newline ▸ hc)
  rw [columnAt, columnAt, List.take_add, List.reverse_append,
    List.takeWhile_append_of_pos between, List.length_append, List.length_reverse,
    List.length_take, List.length_drop]
  omega

/-- The position of an offset is told by the text before it. -/
theorem position_eq_at (source : Source) {offset : Nat} (h : offset ≤ source.length) :
    source.index.position offset = .at source.text offset := by
  obtain ⟨span, found, position⟩ := position_eq source h
  have line := (lineAt_of_getElem?_spansFrom found).2
  have begins : BeginsLine source.text span.start := by
    have member := List.mem_of_getElem? found
    rw [← source.map_span_lines] at member
    obtain ⟨line, inLines, rfl⟩ := List.mem_map.mp member
    exact (Source.stands_of_mem_lines inLines).begins
  have start := begins.le_of_lineAt_eq line
  rw [position, Position.at, columnAt_of_lineAt_eq start h line, begins.columnAt_self,
    Nat.zero_add]

/-- Later offsets have later positions. -/
theorem Position.at_notAfter {text : List Char} {a b : Nat} (le : a ≤ b) (h : b ≤ text.length) :
    (Position.at text a).NotAfter (.at text b) := by
  rcases Nat.lt_or_eq_of_le (lineAt_mono text le) with earlier | same
  · exact .inl earlier
  · have apart := columnAt_of_lineAt_eq le h same
    refine .inr ⟨same, ?_⟩
    show columnAt text a ≤ columnAt text b
    omega

end LexLint
