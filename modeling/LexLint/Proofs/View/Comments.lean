import LexLint.Proofs.View.Offsets
import LexLint.Proofs.View.Returns

/-!
# Comments

A comment begins at a `#` that is read as code, and goes on to the end of its line
(`Source.CommentOn`). Its place is found in the masked view of the line: although the masked view
counts quotes inside comments too, the first `#` that it leaves is the one that begins the comment
(`hash_read_as_code_iff`), so that the line's own comment is found (`Source.commentText_iff`).
-/

namespace LexLint

/-- A comment begins at an offset. -/
def BeginsComment (text : List Char) (offset : Nat) : Prop :=
  text[offset]? = some '#' ∧ (LexState.before text offset).mode = .code

/-- Where the comment of a line stands: it begins on the line and goes on to its end. -/
structure Source.CommentOn (source : Source) (n : Nat) (comment : Span) : Prop where
  onLine : ∃ line, source.index.spans[n]? = some line ∧ line.start ≤ comment.start ∧
    comment.start < line.stop ∧ comment.stop = line.stop
  begins : BeginsComment source.text comment.start

/-- The text of a line's comment, from the `#` on. -/
def Source.CommentText (source : Source) (n : Nat) (text : List Char) : Prop :=
  ∃ comment, source.CommentOn n comment ∧ text = slice source.text comment

namespace LexState

/-- In a comment the reader stays up to the end of the line. -/
theorem foldl_read_comment {s : LexState} (h : s.mode = .comment) {text : List Char}
    (line : '\n' ∉ text) : text.foldl read s = s := by
  induction text with
  | nil => rfl
  | cons c rest ih =>
    obtain ⟨newline, others⟩ := not_or.mp (mt List.mem_cons.mpr line)
    have stays : s.read c = s := by simp [read, h, Ne.symm newline]
    rw [List.foldl_cons, stays, ih others]

/-- Before a line nothing is pending. -/
theorem foldl_read_of_getLast? {pre : List Char} (h : pre = [] ∨ pre.getLast? = some '\n') :
    pre.foldl read start = start := by
  rcases h with rfl | newline
  · rfl
  · obtain ⟨front, rfl⟩ := List.getLast?_eq_some_iff.mp newline
    rw [List.foldl_append, List.foldl_cons, read_newline, List.foldl_nil]

end LexState

/-- One character that does not begin a comment: the masked view shows no `#`, and still stands
where the reader does. -/
theorem tracks_mask_step {s : LexState} {inString escaped : Bool}
    (h : Tracks s inString escaped false) {c : Char} (newline : c ≠ '\n')
    (noComment : ¬ (s.mode = .code ∧ c = '#')) :
    ∃ d inString' escaped', d ≠ '#' ∧ Tracks (s.read c) inString' escaped' false ∧
      ∀ rest, maskFrom inString escaped (c :: rest) = d :: maskFrom inString' escaped' rest := by
  obtain ⟨mode, e⟩ := s
  cases mode with
  | comment => cases h
  | code =>
    obtain ⟨-, rfl, rfl⟩ : _ ∧ inString = false ∧ escaped = e := h
    have hash : c ≠ '#' := fun same => noComment ⟨rfl, same⟩
    by_cases slash : c = '\\'
    · subst slash
      exact ⟨'\\', false, !escaped, by decide, by simp [Tracks, LexState.read], by simp [maskFrom]⟩
    by_cases quote : c = '"' ∧ escaped = false
    · obtain ⟨rfl, rfl⟩ := quote
      exact ⟨'"', true, false, by decide, by simp [Tracks, LexState.read, LexMode.toggle],
        by simp [maskFrom]⟩
    · exact ⟨c, false, false, hash, by simp [Tracks, LexState.read, newline, hash, slash, quote],
        by simp [maskFrom, newline, slash, quote]⟩
  | string =>
    obtain ⟨-, rfl, rfl⟩ : _ ∧ inString = true ∧ escaped = e := h
    by_cases slash : c = '\\'
    · subst slash
      exact ⟨' ', true, !escaped, by decide, by simp [Tracks, LexState.read], by simp [maskFrom]⟩
    by_cases quote : c = '"' ∧ escaped = false
    · obtain ⟨rfl, rfl⟩ := quote
      exact ⟨'"', false, false, by decide, by simp [Tracks, LexState.read, LexMode.toggle],
        by simp [maskFrom]⟩
    · exact ⟨' ', true, false, by decide, by simp [Tracks, LexState.read, newline, slash, quote],
        by simp [maskFrom, newline, slash, quote]⟩

/-- On a line, the `#` that is read as code is the first one of the masked view. -/
theorem hash_read_as_code_iff {s : LexState} {inString escaped : Bool}
    (h : Tracks s inString escaped false) {text : List Char} (line : '\n' ∉ text) (i : Nat) :
    (text[i]? = some '#' ∧ ((text.take i).foldl LexState.read s).mode = .code) ↔
      i = ((maskFrom inString escaped text).takeWhile (· != '#')).length ∧ i < text.length := by
  induction text generalizing s inString escaped i with
  | nil => simp
  | cons c rest ih =>
    obtain ⟨newline, others⟩ := not_or.mp (mt List.mem_cons.mpr line)
    by_cases comment : s.mode = .code ∧ c = '#'
    · -- The comment begins here, and no other can begin before the line ends.
      obtain ⟨code, rfl⟩ := comment
      obtain ⟨-, rfl, rfl⟩ : _ ∧ inString = false ∧ escaped = s.escaped := by
        simpa only [Tracks, code] using h
      have first : ((maskFrom false s.escaped ('#' :: rest)).takeWhile (· != '#')).length = 0 := by
        simp [maskFrom]
      rw [first]
      cases i with
      | zero => simp [code]
      | succ i =>
        have stays : (rest.take i).foldl LexState.read (s.read '#') = s.read '#' :=
          LexState.foldl_read_comment (by simp [LexState.read, code])
            fun inside => others (List.mem_of_mem_take inside)
        rw [List.take_succ_cons, List.foldl_cons, stays]
        simp [LexState.read, code]
    · obtain ⟨d, inString', escaped', visible, tracks, masked⟩ :=
        tracks_mask_step h (Ne.symm newline) comment
      rw [masked, List.takeWhile_cons_of_pos (by simpa using visible), List.length_cons]
      cases i with
      | zero =>
        simp only [List.getElem?_cons_zero, Option.some.injEq, List.take_zero, List.foldl_nil]
        constructor
        · rintro ⟨hash, code⟩
          exact absurd ⟨code, hash⟩ comment
        · rintro ⟨zero, -⟩
          cases zero
      | succ i =>
        rw [List.getElem?_cons_succ, List.take_succ_cons, List.foldl_cons, ih tracks others,
          List.length_cons]
        omega

/-- A line in its text, and its masked view: each line is read from a fresh start. -/
theorem Source.exists_read_of_mem_lines {source : Source} {line : Line}
    (h : line ∈ source.lines) :
    ∃ pre post, source.text = pre ++ (line.raw ++ post) ∧ '\n' ∉ line.raw ∧
      line.span = ⟨pre.length, pre.length + line.raw.length⟩ ∧ line.masked = mask line.raw ∧
      pre.foldl LexState.read .start = .start := by
  obtain ⟨n, pre, piece, post, text, noNewline, same, first, -⟩ :=
    Source.exists_split_of_mem_lines h
  obtain ⟨tail, whole⟩ := cutReturn_prefix piece
  have raw : line.raw = cutReturn piece := by rw [same]; rfl
  have masked : line.masked = (mask piece).take (cutReturn piece).length := by rw [same]; rfl
  refine ⟨pre, tail ++ post, ?_, ?_, ?_, ?_, LexState.foldl_read_of_getLast? first⟩
  · rw [text, raw, ← List.append_assoc (cutReturn piece), whole]
  · rw [raw]
    intro newline
    apply noNewline
    rw [← whole]
    exact List.mem_append_left tail newline
  · rw [raw, same]
    rfl
  · have cut := take_maskFrom_append false false (cutReturn piece) tail
    rw [whole] at cut
    rw [masked, raw]
    exact cut

/-- The comment of a line goes from the first `#` of its masked view to its end. -/
theorem Source.commentOn_iff {source : Source} {n : Nat} {line : Line}
    (h : source.lines[n]? = some line) {comment : Span} :
    source.CommentOn n comment ↔
      (line.masked.takeWhile (· != '#')).length < line.raw.length ∧
      comment = ⟨line.span.start + (line.masked.takeWhile (· != '#')).length, line.span.stop⟩ := by
  obtain ⟨pre, post, text, noNewline, span, masked, fresh⟩ :=
    Source.exists_read_of_mem_lines (List.mem_of_getElem? h)
  have onLine : source.index.spans[n]? = some line.span := by
    rw [← source.map_span_lines, List.getElem?_map, h, Option.map_some]
  have begins {i : Nat} (inside : i < line.raw.length) :
      BeginsComment source.text (pre.length + i) ↔
        i = (line.masked.takeWhile (· != '#')).length := by
    have state : LexState.before source.text (pre.length + i) =
        (line.raw.take i).foldl LexState.read .start := by
      rw [LexState.before, text, List.take_length_add_append, List.foldl_append, fresh,
        List.take_append_of_le_length (Nat.le_of_lt inside)]
    have char : source.text[pre.length + i]? = line.raw[i]? := by
      rw [text, List.getElem?_append_right (Nat.le_add_right ..), Nat.add_sub_cancel_left,
        List.getElem?_append_left inside]
    rw [BeginsComment, state, char, masked]
    have place := hash_read_as_code_iff (s := .start) ⟨rfl, rfl, rfl⟩ noNewline i
    exact place.trans (and_iff_left inside)
  obtain ⟨start, stop⟩ := comment
  constructor
  · rintro ⟨⟨span', found, lo, hi, last⟩, comment⟩
    obtain rfl := Option.some.inj (onLine.symm.trans found)
    rw [span] at lo hi last
    obtain ⟨i, rfl⟩ := Nat.exists_eq_add_of_le lo
    have inside : i < line.raw.length := by
      change pre.length + i < pre.length + line.raw.length at hi
      omega
    have place := (begins inside).mp comment
    rw [← place, span]
    exact ⟨inside, by rw [← last]⟩
  · rintro ⟨inside, same⟩
    obtain ⟨rfl, rfl⟩ := Span.mk.inj same
    refine ⟨⟨line.span, onLine, Nat.le_add_right .., ?_, rfl⟩, ?_⟩
    · rw [span]
      exact Nat.add_lt_add_left inside _
    · rw [span]
      exact (begins inside).mpr rfl

/-- The text of a line from some place on. -/
theorem Source.slice_line_end {source : Source} {line : Line} (h : line ∈ source.lines) (k : Nat) :
    slice source.text ⟨line.span.start + k, line.span.stop⟩ = line.raw.drop k := by
  obtain ⟨pre, post, text, -, span, -⟩ := Source.exists_read_of_mem_lines h
  have size : pre.length + line.raw.length - (pre.length + k) = line.raw.length - k := by omega
  rw [slice, span, text, ← List.drop_drop, List.drop_left, size, ← List.drop_take,
    List.take_left]

/-- No newline stands on a line. -/
theorem Source.getElem?_ne_newline {source : Source} {line : Line} (h : line ∈ source.lines)
    {i : Nat} (lo : line.span.start ≤ i) (hi : i < line.span.stop) :
    ∃ c, source.text[i]? = some c ∧ c ≠ '\n' := by
  obtain ⟨pre, post, text, noNewline, span, -⟩ := Source.exists_read_of_mem_lines h
  rw [span] at lo hi
  obtain ⟨k, rfl⟩ := Nat.exists_eq_add_of_le lo
  have inside : k < line.raw.length := Nat.lt_of_add_lt_add_left hi
  refine ⟨line.raw[k], ?_, fun newline => noNewline (newline ▸ List.getElem_mem inside)⟩
  rw [text, List.getElem?_append_right (Nat.le_add_right ..), Nat.add_sub_cancel_left,
    List.getElem?_append_left inside, List.getElem?_eq_getElem inside]

namespace Source.CommentOn

variable {source : Source} {n : Nat} {comment : Span}

theorem exists_line (h : source.CommentOn n comment) :
    ∃ line, source.lines[n]? = some line ∧ line.span.start ≤ comment.start ∧
      comment.stop = line.span.stop := by
  obtain ⟨span, found, lo, -, last⟩ := h.onLine
  rw [← source.map_span_lines, List.getElem?_map] at found
  obtain ⟨line, at_n, rfl⟩ := Option.map_eq_some_iff.mp found
  exact ⟨line, at_n, lo, last⟩

/-- A line has one comment at most. -/
theorem unique (h : source.CommentOn n comment) {other : Span} (h' : source.CommentOn n other) :
    comment = other := by
  obtain ⟨line, found, -⟩ := h.exists_line
  rw [(commentOn_iff found).mp h |>.2, (commentOn_iff found).mp h' |>.2]

/-- A comment is no code and no string from its `#` to the end of its line. -/
theorem mode_eq (h : source.CommentOn n comment) {i : Nat} (lo : comment.start < i)
    (hi : i ≤ comment.stop) : (LexState.before source.text i).mode = .comment := by
  obtain ⟨line, found, first, last⟩ := h.exists_line
  induction i, lo using Nat.le_induction with
  | base => simp [LexState.before_succ h.begins.1, LexState.read, h.begins.2]
  | succ i lo ih =>
    obtain ⟨c, char, newline⟩ := getElem?_ne_newline (List.mem_of_getElem? found)
      (i := i) (by omega) (by omega)
    have inside := ih (Nat.le_of_lt hi)
    rw [LexState.before_succ char]
    simp [LexState.read, newline, inside]

end Source.CommentOn

/-- What follows the first `#` of a line's masked view, with it. -/
def Line.comment? (line : Line) : Option (List Char) :=
  let before := line.masked.takeWhile (· != '#')
  if before.length = line.masked.length then none else some (line.raw.drop before.length)

/-- A line's own comment is found, and no other text is taken for one. -/
theorem Source.commentText_iff {source : Source} {n : Nat} {text : List Char} :
    source.CommentText n text ↔ (source.lines[n]?).bind Line.comment? = some text := by
  cases found : source.lines[n]? with
  | none =>
    simp only [Option.bind_none, reduceCtorEq, iff_false]
    rintro ⟨comment, on, -⟩
    obtain ⟨line, other, -⟩ := on.exists_line
    rw [found] at other
    cases other
  | some line =>
    have member := List.mem_of_getElem? found
    obtain ⟨-, -, -, -, -, masked, -⟩ := exists_read_of_mem_lines member
    have size : line.masked.length = line.raw.length := by rw [masked, length_mask]
    have bound : (line.masked.takeWhile (· != '#')).length ≤ line.masked.length :=
      (List.takeWhile_sublist _).length_le
    simp only [CommentText, commentOn_iff found, and_assoc, exists_eq_left, exists_and_left,
      slice_line_end member, Option.bind_some, Line.comment?]
    split
    · rename_i whole
      simp only [reduceCtorEq, iff_false, not_and]
      omega
    · rename_i shorter
      rw [Option.some.injEq, eq_comm]
      exact and_iff_right (by omega)

end LexLint
