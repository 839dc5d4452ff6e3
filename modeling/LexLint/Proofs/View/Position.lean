import LexLint.Proofs.View.Lines

/-!
# Lines by their newlines

The line of an offset is the number of newlines before it (`position_line_eq_lineAt`), whatever
the line ends with. A line stands between two newlines, or a newline and an end of the text
(`Source.exists_split_of_mem_lines`).
-/

namespace LexLint

/-- The number of the line that an offset is on: how many newlines stand before it. -/
def lineAt (text : List Char) (offset : Nat) : Nat := (text.take offset).count '\n'

theorem le_start_of_mem_spansFrom {start : Nat} {pieces : List (List Char)} {span : Span}
    (h : span ∈ spansFrom start pieces) : start ≤ span.start := by
  induction pieces generalizing start with
  | nil => simp [spansFrom] at h
  | cons piece rest ih =>
    rcases List.mem_cons.mp h with rfl | later
    · exact Nat.le_refl start
    · have := ih later
      omega

/-- One line more begins up to an offset than there are newlines before it. -/
theorem countP_spansFrom_splitAtChar (text : List Char) (start offset : Nat) :
    (spansFrom start (splitAtChar '\n' text)).countP (fun s => s.start ≤ start + offset) =
      lineAt text offset + 1 := by
  induction text generalizing start offset with
  | nil => simp [splitAtChar, spansFrom, lineAt]
  | cons c rest ih =>
    cases offset with
    | zero =>
      obtain ⟨piece, pieces, split⟩ :=
        List.exists_cons_of_ne_nil (splitAtChar_ne_nil '\n' (c :: rest))
      have later : ∀ s ∈ spansFrom (start + piece.length + 1) pieces, start < s.start := by
        intro s hs
        have := le_start_of_mem_spansFrom hs
        omega
      simpa [split, spansFrom, lineAt] using later
    | succ offset =>
      have inRest := ih (start + 1) offset
      obtain ⟨piece, pieces, split⟩ := List.exists_cons_of_ne_nil (splitAtChar_ne_nil '\n' rest)
      have shift : start + (offset + 1) = start + 1 + offset := by omega
      rw [shift]
      by_cases newline : c = '\n'
      · subst newline
        rw [splitAtChar_cons_self, spansFrom, List.countP_cons, List.length_nil, Nat.add_zero,
          inRest]
        simp [lineAt, Nat.add_assoc]
      · rw [split, spansFrom, List.countP_cons] at inRest
        rw [splitAtChar_cons_of_ne newline split, spansFrom, List.countP_cons, List.length_cons]
        have next : start + (piece.length + 1) + 1 = start + 1 + piece.length + 1 := by omega
        rw [next]
        simpa [lineAt, newline, Nat.add_assoc] using inRest

/-- The line of an offset is told by the newlines before it. -/
theorem position_line_eq_lineAt (source : Source) (offset : Int) :
    (source.index.position offset).line = lineAt source.text offset.toNat := by
  have count := countP_spansFrom_splitAtChar source.text 0 (source.index.clamp offset)
  rw [Nat.zero_add] at count
  have clamped : lineAt source.text (source.index.clamp offset) =
      lineAt source.text offset.toNat := by
    change lineAt source.text (min offset.toNat source.text.length) = _
    rw [lineAt, lineAt, ← List.take_take, List.take_length]
  change (spansFrom 0 (splitAtChar '\n' source.text)).countP
    (fun s => s.start ≤ source.index.clamp offset) - 1 = _
  rw [count, clamped, Nat.add_sub_cancel]

theorem Source.number_of_getElem?_lines {source : Source} {number : Nat} {line : Line}
    (h : source.lines[number]? = some line) : line.number = number := by
  rw [Source.lines_eq, List.getElem?_map, List.getElem?_zipIdx] at h
  simp only [Option.map_map, Option.map_eq_some_iff] at h
  obtain ⟨span, -, rfl⟩ := h
  exact Nat.zero_add number

/-- A piece of a joined text with what stands before and after it. -/
theorem exists_split_of_mem_pieceLines {number start : Nat} {pieces : List (List Char)}
    {line : Line} (h : line ∈ pieceLines number start pieces) :
    ∃ n pre piece post, joinWithChar '\n' pieces = pre ++ (piece ++ post) ∧ piece ∈ pieces ∧
      line = pieceLine n (start + pre.length) piece ∧
      (pre = [] ∨ pre.getLast? = some '\n') ∧ (post = [] ∨ post.head? = some '\n') := by
  induction pieces generalizing number start with
  | nil => simp [pieceLines] at h
  | cons piece rest ih =>
    rcases List.mem_cons.mp h with rfl | later
    · cases rest with
      | nil => exact ⟨number, [], piece, [], by simp [joinWithChar], by simp, rfl, by simp, by simp⟩
      | cons next more => exact ⟨number, [], piece, _, rfl, by simp, rfl, by simp, by simp⟩
    · obtain ⟨n, pre, inner, post, joined, member, same, first, last⟩ := ih later
      cases rest with
      | nil => simp at member
      | cons next more =>
        refine ⟨n, piece ++ '\n' :: pre, inner, post, ?_, List.mem_cons_of_mem piece member, ?_,
          ?_, last⟩
        · rw [joinWithChar, joined]
          simp
        · rw [same]
          congr 1
          simp only [List.length_append, List.length_cons]
          omega
        · rcases first with rfl | newline
          · simp
          · right
            simp [List.getLast?_cons, newline]

/-- A line stands between two newlines, or a newline and an end of the text. -/
theorem Source.exists_split_of_mem_lines {source : Source} {line : Line}
    (h : line ∈ source.lines) :
    ∃ n pre piece post, source.text = pre ++ (piece ++ post) ∧ '\n' ∉ piece ∧
      line = pieceLine n pre.length piece ∧
      (pre = [] ∨ pre.getLast? = some '\n') ∧ (post = [] ∨ post.head? = some '\n') := by
  rw [Source.lines_eq_pieceLines] at h
  obtain ⟨n, pre, piece, post, joined, member, same, first, last⟩ :=
    exists_split_of_mem_pieceLines h
  rw [joinWithChar_splitAtChar] at joined
  rw [Nat.zero_add] at same
  exact ⟨n, pre, piece, post, joined, not_mem_of_mem_splitAtChar member, same, first, last⟩

/-- A line ends at an offset: a newline follows, or the end of the text, and a return may stand
before it. -/
def EndsLine (text : List Char) (offset : Nat) : Prop :=
  ∃ rest, (rest = [] ∨ rest.head? = some '\n') ∧
    (text.drop offset = rest ∨ text.drop offset = '\r' :: rest)

/-- Where a line of a document stands. -/
structure Line.Stands (source : Source) (line : Line) : Prop where
  raw : line.raw = slice source.text line.span
  code : line.code = slice source.code line.span
  start_le : line.span.start ≤ line.span.stop
  stop_le : line.span.stop ≤ source.length
  begins : line.span.start = 0 ∨ source.text[line.span.start - 1]? = some '\n'
  ends : EndsLine source.text line.span.stop

/-- What follows a line in its text. -/
theorem drop_length_cutReturn (piece post : List Char) :
    (piece ++ post).drop (cutReturn piece).length = post ∨
      (piece ++ post).drop (cutReturn piece).length = '\r' :: post := by
  unfold cutReturn
  split
  · rename_i last
    obtain ⟨front, rfl⟩ := List.getLast?_eq_some_iff.mp last
    exact .inr (by simp)
  · exact .inl List.drop_left

theorem Source.stands_of_mem_lines {source : Source} {line : Line} (h : line ∈ source.lines) :
    line.Stands source := by
  have slices : line.raw = slice source.text line.span ∧
      line.code = slice source.code line.span := by
    rw [Source.lines_eq] at h
    obtain ⟨⟨span, n⟩, -, rfl⟩ := List.mem_map.mp h
    exact ⟨rfl, rfl⟩
  obtain ⟨n, pre, piece, post, text, -, same, first, last⟩ := Source.exists_split_of_mem_lines h
  have span : line.span = ⟨pre.length, pre.length + (cutReturn piece).length⟩ := by
    rw [same]
    rfl
  have size := length_cutReturn_le piece
  refine ⟨slices.1, slices.2, ?_, ?_, ?_, post, last, ?_⟩
  · rw [span]
    exact Nat.le_add_right ..
  · rw [span, Source.length, text]
    simp only [List.length_append]
    omega
  · rcases first with rfl | newline
    · exact .inl (by rw [span]; rfl)
    · right
      rw [List.getLast?_eq_getElem?] at newline
      obtain ⟨bound, -⟩ := List.getElem?_eq_some_iff.mp newline
      rw [span, text, List.getElem?_append_left bound, newline]
  · rw [span, text, ← List.drop_drop, List.drop_left]
    exact drop_length_cutReturn piece post

end LexLint
