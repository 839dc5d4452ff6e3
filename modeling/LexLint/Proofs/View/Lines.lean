import LexLint.Proofs.Text.Split
import LexLint.Proofs.Text.Trim
import LexLint.Proofs.View.Lexer
import LexLint.Source.Basic

/-!
# Views line by line

Both views are made line by line (`splitAtChar_mask`, `splitAtChar_codeView`), and the lines of a
document are its pieces between newlines (`Source.lines_eq_pieceLines`). What the code view alone
tells of a line is its row: where it begins, and its code without the blanks at its end
(`Source.map_row_lines`). A search that starts afresh after each newline finds the same row by row
(`Source.flatMap_row_lines`).
-/

namespace LexLint

/-- A pass over a text that keeps newlines, makes no new ones, and starts afresh after each. -/
structure LinePass {σ : Type} (pass : σ → List Char → List Char) (fresh : σ) : Prop where
  nil : ∀ s, pass s [] = []
  newline : ∀ s rest, pass s ('\n' :: rest) = '\n' :: pass fresh rest
  other : ∀ s c, c ≠ '\n' → ∃ d next, d ≠ '\n' ∧
    ∀ rest, pass s (c :: rest) = d :: pass next rest

/-- Such a pass may be made line by line. -/
theorem LinePass.splitAtChar {σ : Type} {pass : σ → List Char → List Char} {fresh : σ}
    (h : LinePass pass fresh) (s : σ) {text first : List Char} {more : List (List Char)}
    (hs : splitAtChar '\n' text = first :: more) :
    LexLint.splitAtChar '\n' (pass s text) = pass s first :: more.map (pass fresh) := by
  induction text generalizing s first more with
  | nil =>
    obtain ⟨rfl, rfl⟩ : [] = first ∧ [] = more := by simpa [LexLint.splitAtChar] using hs
    rw [h.nil]
    rfl
  | cons c rest ih =>
    obtain ⟨next, others, hrest⟩ := List.exists_cons_of_ne_nil (splitAtChar_ne_nil '\n' rest)
    by_cases newline : c = '\n'
    · subst newline
      rw [splitAtChar_cons_self, hrest] at hs
      obtain ⟨rfl, rfl⟩ := List.cons.inj hs
      rw [h.newline, splitAtChar_cons_self, ih fresh hrest, h.nil, List.map_cons]
    · rw [splitAtChar_cons_of_ne newline hrest] at hs
      obtain ⟨rfl, rfl⟩ := List.cons.inj hs
      obtain ⟨d, s', hd, written⟩ := h.other s c newline
      rw [written, written, splitAtChar_cons_of_ne hd (ih s' hrest)]

theorem LinePass.splitAtChar_map {σ : Type} {pass : σ → List Char → List Char} {fresh : σ}
    (h : LinePass pass fresh) (text : List Char) :
    LexLint.splitAtChar '\n' (pass fresh text) =
      (LexLint.splitAtChar '\n' text).map (pass fresh) := by
  obtain ⟨first, more, hs⟩ := List.exists_cons_of_ne_nil (splitAtChar_ne_nil '\n' text)
  rw [h.splitAtChar fresh hs, hs, List.map_cons]

theorem linePass_mask : LinePass (fun s : Bool × Bool => maskFrom s.1 s.2) (false, false) where
  nil := fun _ => rfl
  newline := fun s rest => by simp [maskFrom]
  other := fun s c newline => by
    obtain ⟨d, inString, escaped, hd, written⟩ := maskFrom_cons newline s.1 s.2
    exact ⟨d, (inString, escaped), hd, written⟩

theorem linePass_view : LinePass LexState.view .start where
  nil := fun _ => rfl
  newline := fun s rest => by
    rw [LexState.view, LexState.read_newline, LexState.shown_eq_newline.mpr rfl]
  other := fun s c newline =>
    ⟨s.shown c, s.read c, fun h => newline (LexState.shown_eq_newline.mp h), fun _ => rfl⟩

/-- String contents are blanked line by line. -/
theorem splitAtChar_mask (text : List Char) :
    splitAtChar '\n' (mask text) = (splitAtChar '\n' text).map mask :=
  linePass_mask.splitAtChar_map text

/-- The code view is made line by line. -/
theorem splitAtChar_codeView (text : List Char) :
    splitAtChar '\n' (codeView text) = (splitAtChar '\n' text).map codeView := by
  have same : codeView = LexState.start.view := funext codeView_eq_view
  rw [same]
  exact linePass_view.splitAtChar_map text

theorem length_cutReturn_le (line : List Char) : (cutReturn line).length ≤ line.length := by
  unfold cutReturn
  split <;> simp

theorem take_cutReturn (line : List Char) :
    line.take (cutReturn line).length = cutReturn line := by
  unfold cutReturn
  split
  · rw [List.length_dropLast, List.dropLast_eq_take]
  · exact List.take_length

theorem cutReturn_prefix (line : List Char) : cutReturn line <+: line :=
  take_cutReturn line ▸ List.take_prefix _ line

/-- The line that a piece between two newlines is. -/
def pieceLine (number start : Nat) (piece : List Char) : Line :=
  let size := (cutReturn piece).length
  ⟨number, ⟨start, start + size⟩, cutReturn piece, (mask piece).take size,
    (codeView piece).take size⟩

/-- The lines of successive pieces, of which the first begins at `start`. -/
def pieceLines (number start : Nat) : List (List Char) → List Line
  | [] => []
  | piece :: rest =>
    pieceLine number start piece :: pieceLines (number + 1) (start + piece.length + 1) rest

theorem mem_pieceLines {number start : Nat} {pieces : List (List Char)} {line : Line}
    (h : line ∈ pieceLines number start pieces) :
    ∃ n s piece, piece ∈ pieces ∧ line = pieceLine n s piece := by
  induction pieces generalizing number start with
  | nil => simp [pieceLines] at h
  | cons piece rest ih =>
    rcases List.mem_cons.mp h with rfl | later
    · exact ⟨number, start, piece, List.mem_cons_self, rfl⟩
    · obtain ⟨n, s, other, member, same⟩ := ih later
      exact ⟨n, s, other, List.mem_cons_of_mem piece member, same⟩

theorem slice_append {pre piece : List Char} {start size : Nat} (hpre : pre.length = start)
    (h : size ≤ piece.length) (post : List Char) :
    slice (pre ++ (piece ++ post)) ⟨start, start + size⟩ = piece.take size := by
  subst hpre
  rw [slice, List.drop_left, Nat.add_sub_cancel_left, List.take_append_of_le_length h]

/-- The first piece and what follows it. -/
theorem exists_joinWithChar_cons (piece : List Char) (rest : List (List Char)) :
    ∃ post, joinWithChar '\n' (piece :: rest) = piece ++ post := by
  cases rest with
  | nil => exact ⟨[], by simp [joinWithChar]⟩
  | cons next more => exact ⟨_, rfl⟩

theorem length_mask_codeView (piece : List Char) :
    (cutReturn piece).length ≤ (mask piece).length ∧
    (cutReturn piece).length ≤ (codeView piece).length := by
  rw [length_mask, length_codeView]
  exact ⟨length_cutReturn_le piece, length_cutReturn_le piece⟩

/-- The slices of a text and its views, where `before`, `masked` and `code` stand before the
pieces, are the lines of the pieces. -/
theorem map_slice_spansFrom (pieces : List (List Char)) (number start : Nat)
    (before masked code : List Char) (hb : before.length = start) (hm : masked.length = start)
    (hc : code.length = start) :
    ((spansFrom start pieces).zipIdx number).map (fun (span, n) =>
        (⟨n, span, slice (before ++ joinWithChar '\n' pieces) span,
          slice (masked ++ joinWithChar '\n' (pieces.map mask)) span,
          slice (code ++ joinWithChar '\n' (pieces.map codeView)) span⟩ : Line)) =
      pieceLines number start pieces := by
  induction pieces generalizing number start before masked code with
  | nil => rfl
  | cons piece rest ih =>
    obtain ⟨masks, codes⟩ := length_mask_codeView piece
    obtain ⟨post, hpost⟩ := exists_joinWithChar_cons piece rest
    obtain ⟨postM, hpostM⟩ := exists_joinWithChar_cons (mask piece) (rest.map mask)
    obtain ⟨postC, hpostC⟩ := exists_joinWithChar_cons (codeView piece) (rest.map codeView)
    rw [spansFrom, List.zipIdx_cons, List.map_cons, pieceLines]
    congr 1
    · simp only [List.map_cons, hpost, hpostM, hpostC, slice_append hb (length_cutReturn_le piece),
        slice_append hm masks, slice_append hc codes, take_cutReturn]
      rfl
    · cases rest with
      | nil => rfl
      | cons next more =>
        have later := ih (number + 1) (start + piece.length + 1) (before ++ (piece ++ ['\n']))
          (masked ++ (mask piece ++ ['\n'])) (code ++ (codeView piece ++ ['\n']))
          (by simp; omega) (by simp [length_mask]; omega) (by simp [length_codeView]; omega)
        simpa [joinWithChar] using later

/-- The lines of a document are its pieces between newlines. -/
theorem Source.lines_eq_pieceLines (source : Source) :
    source.lines = pieceLines 0 0 (splitAtChar '\n' source.text) := by
  have text := joinWithChar_splitAtChar '\n' source.text
  have masked := joinWithChar_splitAtChar '\n' source.masked
  have code := joinWithChar_splitAtChar '\n' source.code
  rw [Source.masked, splitAtChar_mask] at masked
  rw [Source.code, splitAtChar_codeView] at code
  rw [Source.lines_eq, ← map_slice_spansFrom _ 0 0 [] [] [] rfl rfl rfl]
  simp only [List.nil_append, text, masked, code]
  rfl

/-- What the code view alone tells of a line: where it begins, and its code without the blanks at
its end. The return that a line may end with is one of those. -/
def Line.row (line : Line) : Nat × List Char := (line.span.start, trimEnd line.code)

/-- The rows of successive pieces of a code view. -/
def codeRows (start : Nat) : List (List Char) → List (Nat × List Char)
  | [] => []
  | piece :: rest => (start, trimEnd piece) :: codeRows (start + piece.length + 1) rest

theorem LexState.view_append (s : LexState) (a b : List Char) :
    s.view (a ++ b) = s.view a ++ (a.foldl read s).view b := by
  induction a generalizing s with
  | nil => rfl
  | cons c rest ih => simp only [List.cons_append, view, ih, List.foldl_cons]

theorem LexState.isBlank_shown {c : Char} (h : isBlank c = true) (s : LexState) :
    isBlank (s.shown c) = true := by
  unfold LexState.shown
  split
  · exact h
  · exact isBlank_space

/-- The return that a line does not count is blank in its code. -/
theorem exists_codeView_cutReturn (piece : List Char) :
    ∃ blanks, AllBlank blanks ∧ codeView piece = codeView (cutReturn piece) ++ blanks := by
  by_cases h : piece.getLast? = some '\r'
  · obtain ⟨line, rfl⟩ := List.getLast?_eq_some_iff.mp h
    have cut : cutReturn (line ++ ['\r']) = line := by simp [cutReturn]
    refine ⟨(line.foldl LexState.read .start).view ['\r'], fun c hc => ?_, ?_⟩
    · obtain rfl := List.mem_singleton.mp hc
      exact LexState.isBlank_shown (by decide) _
    · rw [cut, codeView_eq_view, codeView_eq_view, LexState.view_append]
  · have whole : cutReturn piece = piece := by simp [cutReturn, h]
    exact ⟨[], by simp [AllBlank], by rw [whole, List.append_nil]⟩

theorem trimEnd_code_pieceLine (number start : Nat) (piece : List Char) :
    trimEnd (pieceLine number start piece).code = trimEnd (codeView piece) := by
  obtain ⟨blanks, blank, split⟩ := exists_codeView_cutReturn piece
  rw [pieceLine, split, trimEnd_append_blank blank, ← length_codeView, List.take_left]

theorem map_row_pieceLines (number start : Nat) (pieces : List (List Char)) :
    (pieceLines number start pieces).map Line.row = codeRows start (pieces.map codeView) := by
  induction pieces generalizing number start with
  | nil => rfl
  | cons piece rest ih =>
    rw [pieceLines, List.map_cons, ih, List.map_cons, codeRows, length_codeView, Line.row,
      trimEnd_code_pieceLine]
    rfl

/-- The rows of a document are cut from its code view. -/
theorem Source.map_row_lines (source : Source) :
    source.lines.map Line.row = codeRows 0 (splitAtChar '\n' source.code) := by
  rw [Source.lines_eq_pieceLines, map_row_pieceLines, Source.code, splitAtChar_codeView]

theorem LexState.start_read_of_isBlank {c : Char} (h : isBlank c = true) :
    start.read c = start := by
  have hash : c ≠ '#' := by rintro rfl; revert h; decide
  have slash : c ≠ '\\' := by rintro rfl; revert h; decide
  have quote : c ≠ '"' := by rintro rfl; revert h; decide
  simp [read, start, hash, slash, quote]

theorem LexState.foldl_read_of_allBlank {blanks : List Char} (h : AllBlank blanks) :
    blanks.foldl read start = start := by
  induction blanks with
  | nil => rfl
  | cons c rest ih =>
    rw [List.foldl_cons, start_read_of_isBlank (h c List.mem_cons_self)]
    exact ih fun d hd => h d (List.mem_cons_of_mem c hd)

theorem LexState.allBlank_view {blanks : List Char} (h : AllBlank blanks) (s : LexState) :
    AllBlank (s.view blanks) := by
  induction blanks generalizing s with
  | nil => exact h
  | cons c rest ih =>
    intro d hd
    rcases List.mem_cons.mp hd with rfl | later
    · exact isBlank_shown (h c List.mem_cons_self) s
    · exact ih (fun d hd => h d (List.mem_cons_of_mem c hd)) _ d later

/-- A comment is blank to the end of its line. -/
theorem LexState.allBlank_view_comment {s : LexState} (h : s.mode = .comment) {text : List Char}
    (line : '\n' ∉ text) : AllBlank (s.view text) := by
  induction text generalizing s with
  | nil => simp [AllBlank, view]
  | cons c rest ih =>
    obtain ⟨newline, others⟩ := not_or.mp (mt List.mem_cons.mpr line)
    have stays : s.read c = s := by simp [read, h, Ne.symm newline]
    have hidden : s.shown c = ' ' := by simp [shown, shows, h, Ne.symm newline]
    intro d hd
    rw [view, stays, hidden] at hd
    rcases List.mem_cons.mp hd with rfl | later
    · exact isBlank_space
    · exact ih h others d later

theorem LexState.allBlank_view_hash {blanks rest : List Char} (h : AllBlank blanks)
    (line : '\n' ∉ rest) : AllBlank (start.view (blanks ++ '#' :: rest)) := by
  rw [view_append, foldl_read_of_allBlank h, view]
  intro c hc
  rcases List.mem_append.mp hc with before | after
  · exact allBlank_view h start c before
  · rcases List.mem_cons.mp after with rfl | later
    · decide
    · exact allBlank_view_comment (by decide) line c later

/-- A comment line has an empty row. -/
theorem Source.trimEnd_code_of_isComment {source : Source} {line : Line}
    (h : line ∈ source.lines) (comment : line.isComment = true) : trimEnd line.code = [] := by
  obtain ⟨number, start, piece, hp, rfl⟩ := mem_pieceLines (source.lines_eq_pieceLines ▸ h)
  have raw : (trim (cutReturn piece)).head? = some '#' := by
    simpa [Line.isComment, pieceLine] using comment
  obtain ⟨blanks, rest, allBlank, split⟩ := exists_blanks_of_head?_trim raw
  obtain ⟨tail, whole⟩ := cutReturn_prefix piece
  rw [split, List.append_assoc, List.cons_append] at whole
  have line : '\n' ∉ rest ++ tail := by
    intro newline
    apply not_mem_of_mem_splitAtChar hp
    rw [← whole]
    exact List.mem_append_right _ (List.mem_cons_of_mem _ newline)
  rw [trimEnd_code_pieceLine, codeView_eq_view, ← whole]
  exact trimEnd_of_allBlank (LexState.allBlank_view_hash allBlank line)

/-! ### Searches line by line -/

section
variable {α : Type} {shift : Nat → α → α} {find : List Char → List α}
  {inRow : Nat × List Char → List α}
  (additive : ∀ m n a, shift m (shift n a) = shift (m + n) a)
  (newline : ∀ above below, find (above ++ '\n' :: below) =
    find above ++ (find below).map (shift (above.length + 1)))
  (row : ∀ start piece, '\n' ∉ piece →
    inRow (start, trimEnd piece) = (find piece).map (shift start))
include additive newline row

/-- A search that starts afresh after each newline, and to which blanks at the end of a line do not
matter, may be made row by row. -/
theorem flatMap_codeRows (start : Nat) (piece : List Char) {rest : List (List Char)}
    (lines : ∀ p ∈ piece :: rest, '\n' ∉ p) :
    (codeRows start (piece :: rest)).flatMap inRow =
      (find (joinWithChar '\n' (piece :: rest))).map (shift start) := by
  induction rest generalizing start piece with
  | nil =>
    rw [codeRows, codeRows, List.flatMap_singleton, joinWithChar,
      row start piece (lines piece List.mem_cons_self)]
  | cons next more ih =>
    obtain ⟨line, others⟩ := List.forall_mem_cons.mp lines
    rw [codeRows, List.flatMap_cons, ih (start + piece.length + 1) next others,
      row start piece line, joinWithChar, newline, List.map_append, List.map_map]
    congr 1
    refine List.map_congr_left fun a _ => ?_
    rw [Function.comp_apply, additive, Nat.add_assoc]

/-- What such a search finds in the rows of a document is what it finds in the code view. -/
theorem Source.flatMap_row_lines (zero : ∀ a, shift 0 a = a) (source : Source) :
    (source.lines.map Line.row).flatMap inRow = find source.code := by
  obtain ⟨piece, rest, split⟩ := List.exists_cons_of_ne_nil (splitAtChar_ne_nil '\n' source.code)
  have lines : ∀ p ∈ piece :: rest, '\n' ∉ p := fun p hp =>
    not_mem_of_mem_splitAtChar (split ▸ hp)
  rw [Source.map_row_lines, split, flatMap_codeRows additive newline row 0 piece lines, ← split,
    joinWithChar_splitAtChar]
  exact (List.map_congr_left fun a _ => zero a).trans (List.map_id' _)

end

end LexLint
