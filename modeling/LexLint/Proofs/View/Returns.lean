import LexLint.Proofs.Scan.Alignment
import LexLint.Proofs.View.Position
import Mathlib.Order.Monotone.Basic

/-!
# Lines that end with a return

A text with a return before each newline (`withReturns`) is aligned with the text without
(`aligned_withReturns`): an offset moves by the number of its line (`returnedPlace`). The lines are
the same, at their places (`lines_withReturns`), and so are positions (`position_withReturns`).
-/

namespace LexLint

/-- The text with a return before each newline. -/
def withReturns (text : List Char) : List Char :=
  text.flatMap fun c => if c = '\n' then ['\r', '\n'] else [c]

example : withReturns "a\n\nb".toList = "a\r\n\r\nb".toList := by decide

/-- Where an offset of a text is once returns are put before its newlines. -/
def returnedPlace (text : List Char) (offset : Nat) : Nat := offset + lineAt text offset

theorem returnedPlace_zero (text : List Char) : returnedPlace text 0 = 0 := rfl

theorem lineAt_le_succ (text : List Char) (offset : Nat) :
    lineAt text offset ≤ lineAt text (offset + 1) := by
  rw [lineAt, lineAt]
  exact (List.take_sublist_take_left (Nat.le_succ offset)).count_le '\n'

theorem strictMono_returnedPlace (text : List Char) : StrictMono (returnedPlace text) := by
  refine strictMono_nat_of_lt_succ fun offset => ?_
  have := lineAt_le_succ text offset
  simp only [returnedPlace]
  omega

theorem lineAt_append (pre rest : List Char) (n : Nat) :
    lineAt (pre ++ rest) (pre.length + n) = pre.count '\n' + lineAt rest n := by
  rw [lineAt, List.take_length_add_append, List.count_append, lineAt]

theorem aligned_withReturns_append (pre rest : List Char) :
    Aligned (returnedPlace (pre ++ rest)) pre.length rest (withReturns rest) := by
  induction rest generalizing pre with
  | nil => exact .nil _
  | cons c rest ih =>
    have later := ih (pre ++ [c])
    rw [List.append_assoc, List.length_append, List.length_singleton, List.singleton_append]
      at later
    have here := lineAt_append pre (c :: rest) 0
    have next := lineAt_append pre (c :: rest) 1
    rw [Nat.add_zero] at here
    by_cases newline : c = '\n'
    · subst newline
      refine .newline (by decide) (by decide) ?_ later
      simp only [returnedPlace, here, next]
      simp [lineAt]
      omega
    · have shown : withReturns (c :: rest) = c :: withReturns rest := by
        simp [withReturns, newline]
      rw [shown]
      refine .char c ?_ later
      simp only [returnedPlace, here, next]
      simp [lineAt, newline]
      omega

theorem aligned_withReturns (text : List Char) :
    Aligned (returnedPlace text) 0 text (withReturns text) :=
  aligned_withReturns_append [] text

theorem length_withReturns (text : List Char) :
    (withReturns text).length = returnedPlace text text.length := by
  have stop := (aligned_withReturns text).place_stop
  rw [returnedPlace_zero, Nat.zero_add, Nat.zero_add] at stop
  exact stop.symm

/-! ### Lines -/

/-- Pieces with a return at the end of each but the last. -/
def returnedPieces : List (List Char) → List (List Char)
  | [] => []
  | [piece] => [piece]
  | piece :: next :: rest => (piece ++ ['\r']) :: returnedPieces (next :: rest)

theorem returnedPieces_cons_cons (c : Char) (piece : List Char) (rest : List (List Char)) :
    ∃ first more, returnedPieces (piece :: rest) = first :: more ∧
      returnedPieces ((c :: piece) :: rest) = (c :: first) :: more := by
  cases rest with
  | nil => exact ⟨piece, [], rfl, rfl⟩
  | cons next more => exact ⟨piece ++ ['\r'], _, rfl, rfl⟩

theorem splitAtChar_withReturns (text : List Char) :
    splitAtChar '\n' (withReturns text) = returnedPieces (splitAtChar '\n' text) := by
  induction text with
  | nil => rfl
  | cons c rest ih =>
    obtain ⟨piece, pieces, split⟩ := List.exists_cons_of_ne_nil (splitAtChar_ne_nil '\n' rest)
    by_cases newline : c = '\n'
    · subst newline
      have shown : withReturns ('\n' :: rest) = '\r' :: '\n' :: withReturns rest := rfl
      have line : '\r' ≠ '\n' := by decide
      rw [shown, splitAtChar_cons_of_ne line (splitAtChar_cons_self '\n' (withReturns rest)),
        splitAtChar_cons_self, ih, split]
      rfl
    · have shown : withReturns (c :: rest) = c :: withReturns rest := by
        simp [withReturns, newline]
      obtain ⟨first, more, returned, longer⟩ := returnedPieces_cons_cons c piece pieces
      rw [split, returned] at ih
      rw [shown, splitAtChar_cons_of_ne newline ih, splitAtChar_cons_of_ne newline split, longer]

theorem take_maskFrom_append (inString escaped : Bool) (a b : List Char) :
    (maskFrom inString escaped (a ++ b)).take a.length = maskFrom inString escaped a := by
  induction a generalizing inString escaped with
  | nil => rfl
  | cons c rest ih =>
    simp only [List.cons_append, maskFrom, List.length_cons]
    split
    · rw [List.take_succ_cons, ih]
    · split
      · rw [List.take_succ_cons, ih]
      · split
        · rw [List.take_succ_cons, ih]
        · rw [List.take_succ_cons, ih]

theorem take_codeView_append (a b : List Char) :
    (codeView (a ++ b)).take a.length = codeView a := by
  have size : (LexState.start.view a).length = a.length := by
    rw [← codeView_eq_view, length_codeView]
  rw [codeView_eq_view, codeView_eq_view, LexState.view_append, ← size, List.take_left]

theorem cutReturn_of_not_mem {piece : List Char} (h : '\r' ∉ piece) : cutReturn piece = piece := by
  rw [cutReturn, if_neg]
  exact fun last => h (List.mem_of_getLast? last)

/-- A line moved to the right. -/
def Line.shift (n : Nat) (line : Line) : Line :=
  { line with span := ⟨line.span.start + n, line.span.stop + n⟩ }

/-- The return at the end of a line is no part of it. -/
theorem pieceLine_append_return {piece : List Char} (h : '\r' ∉ piece) (number start n : Nat) :
    pieceLine number (start + n) (piece ++ ['\r']) = (pieceLine number start piece).shift n := by
  have cut : cutReturn (piece ++ ['\r']) = piece := by simp [cutReturn]
  have masks : (mask (piece ++ ['\r'])).take piece.length = (mask piece).take piece.length := by
    rw [mask, take_maskFrom_append, ← length_mask piece, List.take_length]
    rfl
  have codes : (codeView (piece ++ ['\r'])).take piece.length =
      (codeView piece).take piece.length := by
    rw [take_codeView_append, ← length_codeView piece, List.take_length]
  simp only [pieceLine, cut, cutReturn_of_not_mem h, masks, codes, Line.shift, Line.mk.injEq,
    Span.mk.injEq, true_and, and_true]
  omega

theorem pieceLines_returnedPieces {pieces : List (List Char)} (h : ∀ p ∈ pieces, '\r' ∉ p)
    (number start : Nat) :
    pieceLines number (start + number) (returnedPieces pieces) =
      (pieceLines number start pieces).map fun line => line.shift line.number := by
  induction pieces generalizing number start with
  | nil => rfl
  | cons piece rest ih =>
    obtain ⟨noReturn, others⟩ := List.forall_mem_cons.mp h
    cases rest with
    | nil =>
      simp only [returnedPieces, pieceLines, List.map_cons, List.map_nil, pieceLine, Line.shift,
        List.cons.injEq, Line.mk.injEq, Span.mk.injEq, true_and, and_true]
      omega
    | cons next more =>
      have start' : start + number + (piece ++ ['\r']).length + 1 =
          start + piece.length + 1 + (number + 1) := by
        rw [List.length_append, List.length_singleton]
        omega
      rw [returnedPieces, pieceLines, start', ih others, pieceLine_append_return noReturn,
        pieceLines, List.map_cons]
      rfl

theorem mem_of_mem_splitAtChar {sep c : Char} {s piece : List Char}
    (h : piece ∈ splitAtChar sep s) (hc : c ∈ piece) : c ∈ s := by
  induction s generalizing piece with
  | nil =>
    obtain rfl : piece = [] := by simpa [splitAtChar] using h
    cases hc
  | cons d rest ih =>
    obtain ⟨first, more, split⟩ := List.exists_cons_of_ne_nil (splitAtChar_ne_nil sep rest)
    by_cases same : d = sep
    · subst same
      rw [splitAtChar_cons_self] at h
      rcases List.mem_cons.mp h with rfl | later
      · cases hc
      · exact List.mem_cons_of_mem d (ih later hc)
    · rw [splitAtChar_cons_of_ne same split] at h
      rcases List.mem_cons.mp h with rfl | later
      · rcases List.mem_cons.mp hc with rfl | inFirst
        · exact List.mem_cons_self
        · exact List.mem_cons_of_mem d (ih (split ▸ List.mem_cons_self) inFirst)
      · exact List.mem_cons_of_mem d (ih (split ▸ List.mem_cons_of_mem first later) hc)

/-- As many newlines stand before a line as its number says. -/
theorem lineAt_of_getElem?_spansFrom {text : List Char} {start n : Nat} {span : Span}
    (h : (spansFrom start (splitAtChar '\n' text))[n]? = some span) :
    start ≤ span.start ∧ lineAt text (span.start - start) = n := by
  induction text generalizing start n with
  | nil =>
    cases n with
    | zero =>
      obtain rfl := Option.some.inj h
      exact ⟨Nat.le_refl start, by simp [lineAt]⟩
    | succ n => cases h
  | cons c rest ih =>
    obtain ⟨piece, pieces, split⟩ := List.exists_cons_of_ne_nil (splitAtChar_ne_nil '\n' rest)
    cases n with
    | zero =>
      obtain ⟨first, more, whole⟩ :=
        List.exists_cons_of_ne_nil (splitAtChar_ne_nil '\n' (c :: rest))
      rw [whole] at h
      obtain rfl := Option.some.inj h
      simp [lineAt]
    | succ n =>
      by_cases newline : c = '\n'
      · subst newline
        rw [splitAtChar_cons_self, spansFrom, List.getElem?_cons_succ, List.length_nil] at h
        obtain ⟨le, line⟩ := ih h
        have size : span.start - start = span.start - (start + 0 + 1) + 1 := by omega
        refine ⟨by omega, ?_⟩
        rw [size, ← line]
        simp [lineAt]
      · rw [splitAtChar_cons_of_ne newline split, spansFrom, List.getElem?_cons_succ,
          List.length_cons] at h
        have inRest : (spansFrom (start + 1) (splitAtChar '\n' rest))[n + 1]? = some span := by
          rw [split, spansFrom, List.getElem?_cons_succ, ← h]
          congr 2
          omega
        obtain ⟨le, line⟩ := ih inRest
        have size : span.start - start = span.start - (start + 1) + 1 := by omega
        refine ⟨by omega, ?_⟩
        rw [size, ← line]
        simp [lineAt, newline]

theorem Source.map_span_lines (source : Source) :
    source.lines.map (·.span) = source.index.spans := by
  rw [Source.lines_eq, List.map_map]
  exact List.zipIdx_map_fst ..

/-- What stands on a line stands behind as many newlines as the line's number says. -/
theorem Source.lineAt_of_mem_lines {source : Source} {line : Line} (h : line ∈ source.lines)
    {offset : Nat} (lo : line.span.start ≤ offset) (hi : offset ≤ line.span.stop) :
    lineAt source.text offset = line.number := by
  obtain ⟨n, found⟩ := List.getElem?_of_mem h
  have span : source.index.spans[n]? = some line.span := by
    rw [← source.map_span_lines, List.getElem?_map, found, Option.map_some]
  obtain ⟨-, start⟩ := lineAt_of_getElem?_spansFrom span
  rw [Nat.sub_zero, ← number_of_getElem?_lines found] at start
  obtain ⟨m, pre, piece, post, text, noNewline, same, -⟩ := exists_split_of_mem_lines h
  have first : line.span.start = pre.length := by rw [same]; rfl
  have last : line.span.stop = pre.length + (cutReturn piece).length := by rw [same]; rfl
  have size := length_cutReturn_le piece
  -- No newline stands on the line itself.
  have inside (k : Nat) (hk : k ≤ piece.length) : lineAt (piece ++ post) k = 0 := by
    rw [lineAt, List.take_append_of_le_length hk, List.count_eq_zero]
    exact fun newline => noNewline (List.mem_of_mem_take newline)
  have same : lineAt source.text offset = lineAt source.text line.span.start := by
    obtain ⟨k, rfl⟩ := Nat.exists_eq_add_of_le lo
    have here := lineAt_append pre (piece ++ post) k
    have there := lineAt_append pre (piece ++ post) 0
    rw [inside k (by omega)] at here
    rw [inside 0 (Nat.zero_le _), Nat.add_zero pre.length] at there
    rw [text, first, here, there]
  rw [same, start]

/-- A line with its span at another place. -/
def Line.move (place : Nat → Nat) (line : Line) : Line :=
  { line with span := ⟨place line.span.start, place line.span.stop⟩ }

/-- Offsets of a line move by its number. -/
theorem returnedPlace_of_mem_lines {source : Source} {line : Line} (h : line ∈ source.lines)
    {offset : Nat} (lo : line.span.start ≤ offset) (hi : offset ≤ line.span.stop) :
    returnedPlace source.text offset = offset + line.number := by
  rw [returnedPlace, Source.lineAt_of_mem_lines h lo hi]

/-- A document with a return before each newline. -/
def Source.withReturns (source : Source) : Source :=
  { source with text := LexLint.withReturns source.text }

/-- The lines of a text with returns are those of the text without, each at its place. -/
theorem lines_withReturns {source : Source} (noReturn : '\r' ∉ source.text) :
    source.withReturns.lines = source.lines.map (Line.move (returnedPlace source.text)) := by
  have pieces : ∀ p ∈ splitAtChar '\n' source.text, '\r' ∉ p := fun p hp returned =>
    noReturn (mem_of_mem_splitAtChar hp returned)
  have moved : source.withReturns.lines = source.lines.map fun line => line.shift line.number := by
    rw [Source.lines_eq_pieceLines, Source.lines_eq_pieceLines, Source.withReturns,
      splitAtChar_withReturns]
    exact pieceLines_returnedPieces pieces 0 0
  rw [moved]
  refine List.map_congr_left fun line h => ?_
  have le := (Source.stands_of_mem_lines h).start_le
  rw [Line.move, returnedPlace_of_mem_lines h (Nat.le_refl _) le,
    returnedPlace_of_mem_lines h le (Nat.le_refl _)]
  rfl

theorem spans_withReturns {source : Source} (noReturn : '\r' ∉ source.text) :
    source.withReturns.index.spans = source.index.spans.map fun span =>
      ⟨returnedPlace source.text span.start, returnedPlace source.text span.stop⟩ := by
  rw [← Source.map_span_lines, ← Source.map_span_lines, lines_withReturns noReturn, List.map_map,
    List.map_map]
  rfl

/-- As many lines begin up to an offset as its line's number says, and one more. -/
theorem countP_spans (source : Source) (offset : Nat) :
    source.index.spans.countP (fun s => s.start ≤ offset) = lineAt source.text offset + 1 := by
  have count := countP_spansFrom_splitAtChar source.text 0 offset
  rwa [Nat.zero_add] at count

/-- The position of an offset: the number of its line, and how far into that line it is. -/
theorem position_eq (source : Source) {offset : Nat} (h : offset ≤ source.length) :
    ∃ span, source.index.spans[lineAt source.text offset]? = some span ∧
      source.index.position offset = ⟨lineAt source.text offset, offset - span.start⟩ := by
  have count := countP_spans source offset
  have inRange : lineAt source.text offset < source.index.spans.length := by
    have : _ ≤ source.index.spans.length := List.countP_le_length (p := fun s => s.start ≤ offset)
    omega
  have clamped : source.index.clamp offset = offset := by
    change min (offset : Int).toNat source.length = offset
    rw [Int.toNat_natCast]
    omega
  have line : source.index.clampLine (lineAt source.text offset : Nat) =
      lineAt source.text offset := by
    rw [LineIndex.clampLine, LineIndex.lineCount, Int.toNat_natCast]
    omega
  refine ⟨_, List.getElem?_eq_getElem inRange, ?_⟩
  simp only [LineIndex.position, clamped, count, Nat.add_sub_cancel, LineIndex.lineStart,
    LineIndex.lineSpan, line, List.getElem?_eq_getElem inRange, Option.getD_some]

theorem lineAt_withReturns {source : Source} (noReturn : '\r' ∉ source.text) (offset : Nat) :
    lineAt source.withReturns.text (returnedPlace source.text offset) =
      lineAt source.text offset := by
  have mono := strictMono_returnedPlace source.text
  have there := countP_spans source.withReturns (returnedPlace source.text offset)
  have here := countP_spans source offset
  rw [spans_withReturns noReturn, List.countP_map] at there
  simp only [Function.comp_def, mono.le_iff_le] at there
  omega

/-- Positions stay the same. -/
theorem position_withReturns {source : Source} (noReturn : '\r' ∉ source.text) {offset : Nat}
    (h : offset ≤ source.length) :
    source.withReturns.index.position (returnedPlace source.text offset) =
      source.index.position offset := by
  have fits : returnedPlace source.text offset ≤ source.withReturns.length := by
    change _ ≤ (withReturns source.text).length
    rw [length_withReturns]
    exact (strictMono_returnedPlace source.text).monotone h
  obtain ⟨span, found, here⟩ := position_eq source h
  obtain ⟨span', found', there⟩ := position_eq source.withReturns fits
  rw [lineAt_withReturns noReturn] at found' there
  rw [spans_withReturns noReturn, List.getElem?_map, found, Option.map_some] at found'
  obtain rfl := Option.some.inj found'
  have first := (lineAt_of_getElem?_spansFrom found).2
  rw [Nat.sub_zero] at first
  rw [there, here]
  simp only [Position.mk.injEq, true_and, returnedPlace, first]
  omega

end LexLint
