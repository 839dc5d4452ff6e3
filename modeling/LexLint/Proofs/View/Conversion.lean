import LexLint.Proofs.View.Column

/-!
# Offsets and positions, there and back

A line is told by where it begins and by the first place behind that where a line ends
(`IsLine.unique`), and there is one for each number of newlines (`isLine_lineSpan`). The position of
an offset counts the newlines before it and the characters behind the last of these, and leads back
to the offset, except where a return that no line counts stands before it
(`positions_and_offsets_convert`).
-/

namespace LexLint

/-- The number from 0 to `last` that is nearest to a number. -/
def nearest (i : Int) (last : Nat) : Nat := (max 0 (min i last)).toNat

theorem nearest_eq (i : Int) (last : Nat) : nearest i last = min i.toNat last := by
  rw [nearest]
  omega

theorem nearest_le (i : Int) (last : Nat) : nearest i last ≤ last := by
  rw [nearest]
  omega

theorem nearest_of_le {n last : Nat} (h : n ≤ last) : nearest n last = n := by
  rw [nearest]
  omega

/-- A return stands before the offset, and behind it a newline or nothing. -/
def BehindReturn (text : List Char) (offset : Nat) : Prop :=
  0 < offset ∧ text[offset - 1]? = some '\r' ∧
    (offset = text.length ∨ text[offset]? = some '\n')

instance (text : List Char) (offset : Nat) : Decidable (BehindReturn text offset) :=
  inferInstanceAs (Decidable (_ ∧ _ ∧ _))

/-- The range of a line: as many newlines stand before it as its number says, it begins behind the
last of them, and it ends at the first place where a line can end. -/
structure IsLine (text : List Char) (number : Nat) (span : Span) : Prop where
  begins : BeginsLine text span.start
  number_eq : lineAt text span.start = number
  start_le : span.start ≤ span.stop
  ends : EndsLine text span.stop
  first : ∀ i, span.start ≤ i → EndsLine text i → span.stop ≤ i

/-! ### Ends of lines -/

theorem lineAt_lt_of_newline {text : List Char} {i j : Nat} (newline : text[i]? = some '\n')
    (lt : i < j) : lineAt text i < lineAt text j := by
  have next := lineAt_add text i 1
  rw [List.take_one, List.head?_drop, newline] at next
  have later := lineAt_mono text (show i + 1 ≤ j from lt)
  simp at next
  omega

theorem endsLine_of_newline {text : List Char} {i : Nat} (newline : text[i]? = some '\n') :
    EndsLine text i :=
  ⟨_, .inr (by rw [List.head?_drop, newline]), .inl rfl⟩

theorem endsLine_length (text : List Char) : EndsLine text text.length :=
  ⟨[], .inl rfl, .inl List.drop_length⟩

theorem BehindReturn.endsLine {text : List Char} {offset : Nat} (h : BehindReturn text offset) :
    EndsLine text (offset - 1) := by
  obtain ⟨pos, returned, behind⟩ := h
  obtain ⟨bound, char⟩ := List.getElem?_eq_some_iff.mp returned
  refine ⟨text.drop offset, ?_, .inr ?_⟩
  · rcases behind with rfl | newline
    · exact .inl List.drop_length
    · exact .inr (by rw [List.head?_drop, newline])
  · rw [List.drop_eq_getElem_cons bound, char, Nat.sub_add_cancel pos]

theorem BeginsLine.not_behindReturn {text : List Char} {start : Nat}
    (begins : BeginsLine text start) : ¬ BehindReturn text start := by
  rintro ⟨pos, returned, -⟩
  rcases begins with zero | newline
  · omega
  · rw [returned] at newline
    cases newline

/-- A line goes on behind a place where it could end only by a return. -/
theorem EndsLine.behindReturn {text : List Char} {i j : Nat} (h : EndsLine text i) (lt : i < j)
    (fits : j ≤ text.length) (same : lineAt text i = lineAt text j) :
    j = i + 1 ∧ BehindReturn text j := by
  have noNewline {k : Nat} (lo : i ≤ k) (hi : k < j) : text[k]? ≠ some '\n' := by
    intro newline
    have before := lineAt_mono text lo
    have behind := lineAt_lt_of_newline newline hi
    omega
  obtain ⟨rest, last, dropped | dropped⟩ := h
  · rcases last with rfl | newline
    · have := List.drop_eq_nil_iff.mp dropped
      omega
    · rw [← dropped, List.head?_drop] at newline
      exact absurd newline (noNewline (Nat.le_refl i) lt)
  · have returned : text[i]? = some '\r' := by rw [← List.head?_drop, dropped]; rfl
    have tail : text.drop (i + 1) = rest := by rw [← List.drop_drop, dropped]; rfl
    have next : j = i + 1 ∧ (j = text.length ∨ text[j]? = some '\n') := by
      rcases last with rfl | newline
      · have := List.drop_eq_nil_iff.mp tail
        omega
      · rw [← tail, List.head?_drop] at newline
        have := mt (noNewline (Nat.le_succ i)) (not_not_intro newline)
        obtain rfl : j = i + 1 := by omega
        exact ⟨rfl, .inr newline⟩
    obtain ⟨rfl, behind⟩ := next
    exact ⟨rfl, Nat.succ_pos i, returned, behind⟩

/-! ### Lines -/

namespace IsLine

variable {text : List Char} {number : Nat} {span : Span}

/-- There is one line with a number. -/
theorem unique (h : IsLine text number span) {other : Span} (h' : IsLine text number other) :
    span = other := by
  have start : span.start = other.start := by
    have same : lineAt text span.start = lineAt text other.start :=
      h.number_eq.trans h'.number_eq.symm
    exact Nat.le_antisymm (h.begins.le_of_lineAt_eq same) (h'.begins.le_of_lineAt_eq same.symm)
  have stop : span.stop = other.stop :=
    Nat.le_antisymm (h.first _ (start ▸ h'.start_le) h'.ends)
      (h'.first _ (start ▸ h.start_le) h.ends)
  cases span
  cases other
  simp only at start stop
  rw [start, stop]

theorem start_le_length (h : IsLine text number span) : span.start ≤ text.length := by
  rcases h.begins with zero | newline
  · omega
  · have := (List.getElem?_eq_some_iff.mp newline).1
    omega

theorem stop_le (h : IsLine text number span) : span.stop ≤ text.length :=
  h.first _ h.start_le_length (endsLine_length text)

/-- No newline stands on a line. -/
theorem lineAt_eq (h : IsLine text number span) {i : Nat} (lo : span.start ≤ i)
    (hi : i ≤ span.stop) : lineAt text i = number := by
  obtain ⟨n, rfl⟩ := Nat.exists_eq_add_of_le lo
  rw [lineAt_add, h.number_eq, Nat.add_eq_left, List.count_eq_zero]
  intro newline
  obtain ⟨k, found⟩ := List.getElem?_of_mem newline
  rw [List.getElem?_take] at found
  split at found
  · rw [List.getElem?_drop] at found
    have := h.first _ (Nat.le_add_right _ k) (endsLine_of_newline found)
    omega
  · cases found

/-- A place in a line is as many columns into it as it is behind the line's start. -/
theorem at_eq (h : IsLine text number span) {column : Nat}
    (inside : column ≤ span.stop - span.start) :
    Position.at text (span.start + column) = ⟨number, column⟩ := by
  have le := h.start_le
  have stop := h.stop_le
  have here := h.lineAt_eq (Nat.le_add_right span.start column) (by omega)
  have column := columnAt_of_lineAt_eq (Nat.le_add_right span.start column) (by omega)
    (h.number_eq.trans here.symm)
  rw [h.begins.columnAt_self, Nat.zero_add, Nat.add_sub_cancel_left] at column
  rw [Position.at, here, column]

/-- No offset on the line comes before it begins. -/
theorem start_le_of_lineAt {c : Nat} (h : IsLine text (lineAt text c) span) : span.start ≤ c :=
  h.begins.le_of_lineAt_eq h.number_eq

theorem columnAt_eq {c : Nat} (h : IsLine text (lineAt text c) span) (fits : c ≤ text.length) :
    columnAt text c = c - span.start := by
  rw [columnAt_of_lineAt_eq h.start_le_of_lineAt fits h.number_eq, h.begins.columnAt_self,
    Nat.zero_add]

/-- An offset behind the end of its line is behind a return. -/
theorem behindReturn_of_lt {c : Nat} (h : IsLine text (lineAt text c) span)
    (fits : c ≤ text.length) (beyond : span.stop < c) : c = span.stop + 1 ∧ BehindReturn text c :=
  h.ends.behindReturn beyond fits (h.lineAt_eq h.start_le (Nat.le_refl _))

theorem le_stop {c : Nat} (h : IsLine text (lineAt text c) span) (fits : c ≤ text.length)
    (kept : ¬ BehindReturn text c) : c ≤ span.stop :=
  Nat.le_of_not_lt fun beyond => kept (h.behindReturn_of_lt fits beyond).2

/-- A line does not end behind a return of its own. -/
theorem not_behindReturn_stop (h : IsLine text number span) : ¬ BehindReturn text span.stop := by
  intro returned
  rcases Nat.lt_or_eq_of_le h.start_le with lt | same
  · have := h.first _ (Nat.le_sub_one_of_lt lt) returned.endsLine
    omega
  · exact h.begins.not_behindReturn (same ▸ returned)

end IsLine

/-- The lines of a document are lines. -/
theorem Source.isLine_of_getElem?_lines {source : Source} {n : Nat} {line : Line}
    (h : source.lines[n]? = some line) : IsLine source.text n line.span := by
  have member := List.mem_of_getElem? h
  have stands := Source.stands_of_mem_lines member
  have lineAt_eq {i : Nat} (lo : line.span.start ≤ i) (hi : i ≤ line.span.stop) :
      lineAt source.text i = n := by
    rw [Source.lineAt_of_mem_lines member lo hi, Source.number_of_getElem?_lines h]
  constructor
  case begins => exact stands.begins
  case number_eq => exact lineAt_eq (Nat.le_refl _) stands.start_le
  case start_le => exact stands.start_le
  case ends => exact stands.ends
  case first =>
    intro i lo ends
    apply Nat.le_of_not_lt
    intro early
    have same := (lineAt_eq lo (Nat.le_of_lt early)).trans
      (lineAt_eq stands.start_le (Nat.le_refl _)).symm
    obtain ⟨-, -, returned, behind⟩ := ends.behindReturn early stands.stop_le same
    obtain ⟨m, pre, piece, post, text, -, whole, -⟩ := Source.exists_split_of_mem_lines member
    have start : line.span.start = pre.length := by rw [whole]; rfl
    have stop : line.span.stop = pre.length + (cutReturn piece).length := by rw [whole]; rfl
    -- If the line has lost a return, then that stands behind it, and else it does not end in one.
    by_cases cut : piece.getLast? = some '\r'
    · obtain ⟨front, rfl⟩ := List.getLast?_eq_some_iff.mp cut
      have kept : cutReturn (front ++ ['\r']) = front := by simp [cutReturn]
      rw [kept] at stop
      have char : source.text[line.span.stop]? = some '\r' := by
        rw [text, stop]
        simp
      rw [char, text] at behind
      simp at behind
      omega
    · have kept : cutReturn piece = piece := by simp [cutReturn, cut]
      rw [kept] at stop
      apply cut
      rw [text, List.getElem?_append_right (by omega),
        List.getElem?_append_left (by omega)] at returned
      rw [List.getLast?_eq_getElem?, ← returned]
      congr 1
      omega

theorem LineIndex.lineCount_ofText (text : List Char) :
    (LineIndex.ofText text).lineCount = text.count '\n' + 1 := by
  rw [LineIndex.lineCount, LineIndex.ofText, length_spansFrom, length_splitAtChar]

theorem Source.length_lines (source : Source) :
    source.lines.length = source.text.count '\n' + 1 := by
  have spans : source.lines.length = source.index.spans.length := by
    rw [← Source.map_span_lines, List.length_map]
  rw [spans]
  exact LineIndex.lineCount_ofText source.text

/-- The span that is looked up for a line is that of the nearest line. -/
theorem Source.exists_line_nearest (source : Source) (l : Int) :
    ∃ line, source.lines[nearest l (source.text.count '\n')]? = some line ∧
      source.index.lineSpan l = line.span := by
  have number : source.index.clampLine l = nearest l (source.text.count '\n') := by
    rw [nearest_eq, LineIndex.clampLine]
    exact congrArg (fun n => min l.toNat (n - 1)) (LineIndex.lineCount_ofText source.text)
  have bound : nearest l (source.text.count '\n') < source.lines.length := by
    have := nearest_le l (source.text.count '\n')
    rw [source.length_lines]
    omega
  have found := List.getElem?_eq_getElem bound
  refine ⟨_, found, ?_⟩
  rw [LineIndex.lineSpan, number, ← Source.map_span_lines, List.getElem?_map, found]
  rfl

theorem isLine_lineSpan (text : List Char) (l : Int) :
    IsLine text (nearest l (text.count '\n')) ((LineIndex.ofText text).lineSpan l) := by
  obtain ⟨line, found, span⟩ := Source.exists_line_nearest ⟨"", text⟩ l
  have isLine := Source.isLine_of_getElem?_lines found
  rwa [← span] at isLine

/-! ### Conversion -/

/-- An offset outside of the text has the position of the nearest one inside. -/
theorem position_eq_at_nearest (text : List Char) (o : Int) :
    (LineIndex.ofText text).position o = .at text (nearest o text.length) := by
  have clamped : (LineIndex.ofText text).position o =
      (LineIndex.ofText text).position (nearest o text.length) := by
    have same : (LineIndex.ofText text).clamp o =
        (LineIndex.ofText text).clamp (nearest o text.length) := by
      simp only [LineIndex.clamp, LineIndex.ofText, nearest_eq]
      omega
    rw [LineIndex.position, LineIndex.position, same]
  rw [clamped]
  exact position_eq_at ⟨"", text⟩ (nearest_le o text.length)

theorem offset_eq (text : List Char) (l k : Int) :
    let span := (LineIndex.ofText text).lineSpan l
    (LineIndex.ofText text).offset l k = span.start + nearest k (span.stop - span.start) := by
  have line := isLine_lineSpan text l
  have size : (LineIndex.ofText text).length = text.length := rfl
  rw [LineIndex.offset, LineIndex.clamp, size]
  generalize (LineIndex.ofText text).lineSpan l = span at line ⊢
  have le := line.start_le
  have fits := line.stop_le
  simp only [nearest_eq]
  omega

theorem lineAt_le_count (text : List Char) (offset : Nat) : lineAt text offset ≤ text.count '\n' :=
  (List.take_sublist offset text).count_le '\n'

/-- The position of an offset leads to the offset, or to the return before it. -/
theorem offset_at (text : List Char) {c : Nat} (fits : c ≤ text.length) :
    let p := Position.at text c
    (LineIndex.ofText text).offset p.line p.column = if BehindReturn text c then c - 1 else c := by
  intro p
  have line := isLine_lineSpan text p.line
  rw [offset_eq]
  generalize (LineIndex.ofText text).lineSpan p.line = span at line ⊢
  rw [nearest_of_le (show p.line ≤ _ from lineAt_le_count text c)] at line
  have start := line.start_le_of_lineAt
  rw [show p.column = c - span.start from line.columnAt_eq fits, nearest_eq]
  split
  · rename_i returned
    have pos := returned.1
    have behind : span.start ≠ c := fun same =>
      line.begins.not_behindReturn (same ▸ returned)
    have stop := line.first (c - 1) (by omega) returned.endsLine
    have next := line.behindReturn_of_lt fits (by omega)
    omega
  · rename_i kept
    have inside := line.le_stop fits kept
    omega

/-- An offset that is not behind a return at the end of a line is on its line, as many columns into
it as it is behind the line's start. -/
theorem Source.exists_line_at (source : Source) {c : Nat} (fits : c ≤ source.text.length)
    (kept : ¬ BehindReturn source.text c) :
    ∃ line, source.lines[lineAt source.text c]? = some line ∧
      source.index.lineSpan (lineAt source.text c) = line.span ∧
      line.span.start ≤ c ∧ c ≤ line.span.stop ∧
      source.index.position c = ⟨lineAt source.text c, c - line.span.start⟩ := by
  obtain ⟨line, found, span⟩ := source.exists_line_nearest (lineAt source.text c)
  rw [nearest_of_le (lineAt_le_count source.text c)] at found
  have isLine := isLine_of_getElem?_lines found
  refine ⟨line, found, span, isLine.start_le_of_lineAt, isLine.le_stop fits kept, ?_⟩
  rw [position_eq_at source fits, Position.at, isLine.columnAt_eq fits]

/-- **Offsets and positions convert into each other.** The position of an offset, which is first
moved into the text, is the number of newlines before it and the number of characters behind the
last of them; it leads back to the offset, or to the return before it where no line counts that. The
offset of a line and a column, whatever they are, has the nearest line there is and the nearest
column of that line. -/
theorem positions_and_offsets_convert (text : List Char) :
    let index := LineIndex.ofText text
    (∀ o : Int,
      let c := nearest o text.length
      let p := index.position o
      p = ⟨(text.take c).count '\n', ((text.take c).reverse.takeWhile (· ≠ '\n')).length⟩ ∧
      index.offset p.line p.column = if BehindReturn text c then c - 1 else c) ∧
    ∀ l k : Int, ∃ span, (∀ s, IsLine text (nearest l (text.count '\n')) s ↔ s = span) ∧
      index.position (index.offset l k) =
        ⟨nearest l (text.count '\n'), nearest k (span.stop - span.start)⟩ := by
  intro index
  refine ⟨fun o => ?_, fun l k => ?_⟩
  · have position := position_eq_at_nearest text o
    refine ⟨position, ?_⟩
    rw [position]
    exact offset_at text (nearest_le o text.length)
  · have line := isLine_lineSpan text l
    refine ⟨_, fun s => ⟨(·.unique line), (· ▸ line)⟩, ?_⟩
    rw [show index.offset l k = _ from offset_eq text l k, position_eq_at_nearest]
    generalize (LineIndex.ofText text).lineSpan l = span at line ⊢
    have inside : nearest k (span.stop - span.start) ≤ span.stop - span.start := nearest_le _ _
    have le := line.start_le
    have fits := line.stop_le
    rw [nearest_of_le (show span.start + nearest k (span.stop - span.start) ≤ _ by omega),
      line.at_eq inside]

/-- A return before a newline is not on the line, so the place between the two leads back to it. -/
example :
    let index := LineIndex.ofText "a\r\nb".toList
    index.position 2 = ⟨0, 2⟩ ∧ index.offset 0 2 = 1 := by
  decide

end LexLint
