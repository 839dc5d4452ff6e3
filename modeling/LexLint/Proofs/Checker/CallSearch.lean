import LexLint.Proofs.Checker.LineByLine
import LexLint.Proofs.View.Column

/-!
# The search for calls reads words

The words of the code view are found by one pass over it, and whether a word calls a built-in
without the namespace mark is told by its line (`CallsBare`). The search for every built-in on
every line that is no comment finds exactly these words (`bare_calls_are_words`).
-/

namespace LexLint

/-- The span of the line that an offset is on. -/
def Source.lineOf (source : Source) (offset : Nat) : Span :=
  source.index.lineSpan (source.index.position offset).line

/-- The code of a word's line before the word. -/
def Source.codeBefore (source : Source) (w : Word) : List Char :=
  slice source.code ⟨(source.lineOf w.start).start, w.start⟩

/-- The code of a word's line behind the word. -/
def Source.codeBehind (source : Source) (w : Word) : List Char :=
  slice source.code ⟨w.stop, (source.lineOf w.start).stop⟩

/-- The code view around the line of an offset. What the line's end cuts off is blank. -/
structure LineSplit (source : Source) (offset : Nat) (above line cut below : List Char) :
    Prop where
  code : source.code = above ++ (line ++ cut ++ below)
  span : source.lineOf offset = ⟨above.length, above.length + line.length⟩
  blank : AllBlank cut
  oneLine : '\n' ∉ line ++ cut
  begins : above = [] ∨ ∃ more, above = more ++ ['\n']
  ends : below = [] ∨ ∃ more, below = '\n' :: more
  start_le : above.length ≤ offset
  le_stop : offset ≤ above.length + (line ++ cut).length

/-- The line of an offset is the one with as many newlines before it. -/
theorem Source.exists_line_of_offset {source : Source} {offset : Nat} (h : offset ≤ source.length) :
    ∃ line ∈ source.lines, source.lineOf offset = line.span ∧
      lineAt source.text line.span.start = lineAt source.text offset := by
  obtain ⟨span, found, position⟩ := position_eq source h
  have inRange : lineAt source.text offset < source.index.spans.length :=
    (List.getElem?_eq_some_iff.mp found).1
  have nearest : source.index.clampLine (lineAt source.text offset : Nat) =
      lineAt source.text offset := by
    rw [LineIndex.clampLine, LineIndex.lineCount, Int.toNat_natCast]
    omega
  have same : source.lineOf offset = span := by
    rw [lineOf, position, LineIndex.lineSpan, nearest, found, Option.getD_some]
  have member := List.mem_of_getElem? found
  rw [← source.map_span_lines] at member
  obtain ⟨line, inLines, rfl⟩ := List.mem_map.mp member
  have newlines := (lineAt_of_getElem?_spansFrom found).2
  rw [Nat.sub_zero] at newlines
  exact ⟨line, inLines, same, newlines⟩

/-- A part of a code view that is parted from the rest by newlines. -/
theorem exists_codeView_split {pre post : List Char} (piece : List Char)
    (first : pre = [] ∨ pre.getLast? = some '\n') (last : post = [] ∨ post.head? = some '\n') :
    ∃ above below, codeView (pre ++ (piece ++ post)) = above ++ (codeView piece ++ below) ∧
      above.length = pre.length ∧ (above = [] ∨ ∃ more, above = more ++ ['\n']) ∧
      (below = [] ∨ ∃ more, below = '\n' :: more) := by
  have behind : ∃ below, codeView (piece ++ post) = codeView piece ++ below ∧
      (below = [] ∨ ∃ more, below = '\n' :: more) := by
    rcases last with rfl | newline
    · exact ⟨[], by simp, .inl rfl⟩
    · obtain ⟨more, rfl⟩ := List.head?_eq_some_iff.mp newline
      exact ⟨_, codeView_append_newline piece more, .inr ⟨_, rfl⟩⟩
  obtain ⟨below, split, ends⟩ := behind
  rcases first with rfl | newline
  · exact ⟨[], below, split, rfl, .inl rfl, ends⟩
  · obtain ⟨more, rfl⟩ := List.getLast?_eq_some_iff.mp newline
    refine ⟨codeView more ++ ['\n'], below, ?_, ?_, .inr ⟨_, rfl⟩, ends⟩
    · rw [List.append_assoc, List.singleton_append, codeView_append_newline, split,
        List.append_assoc, List.singleton_append]
    · rw [List.length_append, List.length_append, length_codeView]

/-- An offset stands before the newline that ends its line. -/
theorem le_of_lineAt_eq {pre piece post : List Char} {offset : Nat}
    (last : post = [] ∨ post.head? = some '\n')
    (h : offset ≤ (pre ++ (piece ++ post)).length)
    (same : lineAt (pre ++ (piece ++ post)) pre.length = lineAt (pre ++ (piece ++ post)) offset) :
    offset ≤ pre.length + piece.length := by
  rcases last with rfl | newline
  · simpa using h
  · obtain ⟨more, rfl⟩ := List.head?_eq_some_iff.mp newline
    apply Nat.le_of_not_lt
    intro beyond
    have split : pre ++ (piece ++ '\n' :: more) = (pre ++ piece) ++ '\n' :: more := by simp
    rw [← List.length_append] at beyond
    rw [split] at same
    have start := lineAt_mono (pre ++ piece ++ '\n' :: more)
      (Nat.le_add_right pre.length piece.length)
    have stop := lineAt_add (pre ++ piece ++ '\n' :: more) (pre ++ piece).length 1
    have later := lineAt_mono (pre ++ piece ++ '\n' :: more)
      (show (pre ++ piece).length + 1 ≤ offset from beyond)
    rw [← List.length_append] at start
    rw [List.drop_left, List.take_succ_cons, List.take_zero, List.count_singleton_self] at stop
    omega

theorem exists_lineSplit {source : Source} {offset : Nat} (h : offset ≤ source.length) :
    ∃ above line cut below, LineSplit source offset above line cut below := by
  obtain ⟨line, member, lineOf, newlines⟩ := Source.exists_line_of_offset h
  obtain ⟨n, pre, piece, post, text, oneLine, same, first, last⟩ :=
    Source.exists_split_of_mem_lines member
  obtain ⟨cut, blank, shown⟩ := exists_codeView_cutReturn piece
  obtain ⟨above, below, code, size, begins, ends⟩ :=
    exists_codeView_split piece first last
  have span : line.span = ⟨pre.length, pre.length + (cutReturn piece).length⟩ := by
    rw [same]
    rfl
  have start : BeginsLine source.text line.span.start := (Source.stands_of_mem_lines member).begins
  have start_le := start.le_of_lineAt_eq newlines
  rw [span] at start_le newlines lineOf
  have stop : offset ≤ pre.length + piece.length := by
    rw [text] at newlines
    rw [Source.length, text] at h
    exact le_of_lineAt_eq last h newlines
  refine ⟨above, codeView (cutReturn piece), cut, below, ?_, ?_, blank, ?_, begins, ends, ?_, ?_⟩
  · rw [Source.code, text, code, shown]
  · rw [lineOf, size, length_codeView]
  · intro newline
    rw [← shown] at newline
    obtain ⟨i, hi⟩ := List.getElem?_of_mem newline
    exact oneLine (List.mem_of_getElem? (getElem?_codeView_eq_newline.mp hi))
  · rw [size]
    exact start_le
  · rw [size, ← shown, length_codeView]
    exact stop

section
variable {source : Source} {s : WordSite} {above line cut below : List Char}
  (around : LineSplit source s.word.start above line cut below) (fits : s.Fits source.code)
include around fits

/-- Before a word stands what its line has before it, and above that the lines above. -/
theorem LineSplit.before_eq : s.before = (source.codeBefore s.word).reverse ++ above.reverse := by
  have whole : s.before.reverse = source.code.take s.word.start := by
    rw [fits.start, fits.split, ← List.length_reverse, List.take_left]
  have onLine : source.codeBefore s.word =
      (line ++ cut ++ below).take (s.word.start - above.length) := by
    rw [Source.codeBefore, around.span, slice, around.code, List.drop_left]
  have parts : s.before.reverse = above ++ source.codeBefore s.word := by
    rw [whole, onLine, around.code, List.take_append, List.take_of_length_le around.start_le]
  rw [← List.reverse_append, ← parts, List.reverse_reverse]

/-- A word ends on the line on which it begins. -/
theorem LineSplit.stop_le : s.word.stop ≤ above.length + (line ++ cut).length := by
  apply Nat.le_of_not_lt
  intro beyond
  have inCode := fits.wordAt.stop_le
  rcases around.ends with rfl | ⟨more, rfl⟩
  · rw [around.code, List.append_nil, List.length_append] at inCode
    omega
  · have newline : source.code[above.length + (line ++ cut).length]? = some '\n' := by
      rw [around.code, ← List.append_assoc, ← List.length_append,
        List.getElem?_append_right (Nat.le_refl _), Nat.sub_self]
      rfl
    have word := fits.wordAt.isWordChar_at around.le_stop beyond
    rw [newline] at word
    revert word
    decide

/-- Behind a word its line goes on, with blanks at most where it is cut. -/
theorem LineSplit.exists_lineRest_after :
    ∃ blanks, AllBlank blanks ∧ lineRest s.after = source.codeBehind s.word ++ blanks := by
  have lt := fits.wordAt.start_lt
  have start_le := around.start_le
  have stop_le := around.stop_le fits
  obtain ⟨k, stop⟩ : ∃ k, s.word.stop = above.length + k :=
    Nat.exists_eq_add_of_le (by omega)
  have dropped : source.code.drop s.word.stop = s.after := by
    rw [fits.stop, fits.split, ← List.append_assoc, ← List.length_reverse, ← List.length_append,
      List.drop_left]
  have behind : source.code.drop s.word.stop = (line ++ cut ++ below).drop k := by
    rw [stop, around.code, ← List.drop_drop, List.drop_left]
  have onLine : source.codeBehind s.word = line.drop k := by
    have size : above.length + line.length - s.word.stop = (line.drop k).length := by
      rw [List.length_drop]
      omega
    rw [Source.codeBehind, around.span, slice]
    simp only
    rw [behind, size, List.append_assoc, List.drop_append, List.take_left]
  refine ⟨cut.drop (k - line.length), fun c hc => around.blank c (List.mem_of_mem_drop hc), ?_⟩
  have oneLine : '\n' ∉ (line ++ cut).drop k := fun newline =>
    around.oneLine (List.mem_of_mem_drop newline)
  rw [onLine, ← List.drop_append, ← dropped, behind, List.drop_append_of_le_length (by omega)]
  rcases around.ends with rfl | ⟨more, rfl⟩
  · rw [List.append_nil, lineRest_of_not_mem oneLine]
  · rw [lineRest_append_newline, lineRest_of_not_mem oneLine]

end

namespace BuiltinCalls

/-- The word calls a built-in without the namespace mark, told by what its line shows: neither
`::` nor a point leads to it, and a bracket or a quote follows, after blanks at most. -/
structure CallsBare (source : Source) (w : Word) : Prop where
  builtin : w.text ∈ Vocabulary.builtinNames
  unmarked : ¬ [':', ':'] <:+ source.codeBefore w
  noMember : (source.codeBefore w).getLast? ≠ some '.'
  called : ∃ c ∈ ['(', '"', '\''], (trimStart (source.codeBehind w)).head? = some c

theorem callsBare_iff (source : Source) (w : Word) : CallsBare source w ↔
    w.text ∈ Vocabulary.builtinNames ∧ ¬ [':', ':'] <:+ source.codeBefore w ∧
      (source.codeBefore w).getLast? ≠ some '.' ∧
      ∃ c ∈ ['(', '"', '\''], (trimStart (source.codeBehind w)).head? = some c :=
  ⟨fun ⟨a, b, c, d⟩ => ⟨a, b, c, d⟩, fun ⟨a, b, c, d⟩ => ⟨a, b, c, d⟩⟩

-- Decided along the list of marks, not over all characters.
instance (source : Source) : DecidablePred (CallsBare source) := fun w =>
  haveI : Decidable (∃ c ∈ ['(', '"', '\''], (trimStart (source.codeBehind w)).head? = some c) :=
    List.decidableBEx _ _
  decidable_of_iff' _ (callsBare_iff source w)

/-- Where no word is continued, a call starts unless `::` or a point leads to it. -/
theorem startsCall_iff {before : List Char} (edge : NoWordFirst before) :
    startsCall before = true ↔ ¬ [':', ':'] <+: before ∧ before.head? ≠ some '.' := by
  cases before with
  | nil => simp [startsCall]
  | cons c rest =>
    have marked : [':', ':'] <+: c :: rest ↔ c = ':' ∧ rest.head? = some ':' := by
      cases rest with
      | nil => simp [List.cons_prefix_cons]
      | cons d more => simp [List.cons_prefix_cons, eq_comm]
    rw [startsCall_cons, noWordFirst_cons.mp edge, marked, not_and_or]
    simp

theorem startsCall_reverse_iff {before : List Char} (edge : NoWordFirst before.reverse) :
    startsCall before.reverse = true ↔ ¬ [':', ':'] <:+ before ∧ before.getLast? ≠ some '.' := by
  have reversed : [':', ':'].reverse <+: before.reverse ↔ [':', ':'] <:+ before :=
    List.reverse_prefix
  rw [startsCall_iff edge, List.head?_reverse, ← reversed]
  rfl

/-- What follows a call is told by the first character that is not blank. -/
theorem continuesCall_iff (after : List Char) : continuesCall after = true ↔
    ∃ c ∈ ['(', '"', '\''], (trimStart after).head? = some c := by
  rw [continuesCall_eq]
  cases (trimStart after).head? with
  | none => simp
  | some d => simp [or_assoc]

/-- What a scan tells of the place of a word is what its line shows. -/
theorem isBareBuiltin_iff {source : Source} {s : WordSite} (scanned : s ∈ scanSites source.code) :
    isBareBuiltin s = true ↔ CallsBare source s.word := by
  have fits := fits_of_mem_scanSites scanned
  have stop_le := fits.wordAt.stop_le
  have lt := fits.wordAt.start_lt
  rw [Source.code, length_codeView] at stop_le
  have inText : s.word.start ≤ source.length := by
    change s.word.start ≤ source.text.length
    omega
  obtain ⟨above, line, cut, below, around⟩ := exists_lineSplit inText
  have before := around.before_eq fits
  have edge : NoWordFirst (source.codeBefore s.word).reverse := by
    have first := fits.before
    rw [before] at first
    cases front : (source.codeBefore s.word).reverse with
    | nil => rfl
    | cons c rest => exact noWordFirst_cons.mpr (by simpa [front] using first)
  have starts : startsCall s.before = startsCall (source.codeBefore s.word).reverse := by
    rw [before]
    rcases around.begins with rfl | ⟨more, rfl⟩
    · rw [List.reverse_nil, List.append_nil]
    · rw [List.reverse_append, List.reverse_singleton, List.singleton_append,
        startsCall_append_newline]
  obtain ⟨blanks, blank, rest⟩ := around.exists_lineRest_after fits
  have continues : continuesCall (lineRest s.after) = continuesCall (source.codeBehind s.word) := by
    rw [continuesCall_eq, continuesCall_eq, rest, head?_trimStart_append_blank blank]
  rw [callsBare_iff, isBareBuiltin, starts, continues, Bool.and_eq_true, Bool.and_eq_true,
    List.contains_iff_mem, startsCall_reverse_iff edge, continuesCall_iff, and_assoc, and_assoc]

/-- Leaving out comment lines leaves out no call. -/
theorem bareCalls_eq_all_lines (source : Source) :
    bareCalls source =
      (source.lines.flatMap fun line => sortedNames.flatMap (callsOf line)).mergeSort before := by
  rw [bareCalls_eq, List.flatMap_map]
  simp only [flatMap_callsOf]

/-- **The search for calls is one pass over the words.** Looking for each built-in on each line
that is no comment, and sorting what is found, gives the words of the code view that call a
built-in without the namespace mark, each once and in text order. Comment lines may be searched as
well. -/
theorem bare_calls_are_words (source : Source) :
    bareCalls source = (scanWords source.code).filter (CallsBare source) ∧
    (bareCalls source).Pairwise (fun v w => v.start < w.start) ∧
    bareCalls source =
      (source.lines.flatMap fun line => sortedNames.flatMap (callsOf line)).mergeSort before := by
  refine ⟨?_, ?_, bareCalls_eq_all_lines source⟩
  · rw [bareCalls_eq_words, bareWords, scanWords, List.filter_map]
    refine congrArg _ (List.filter_congr fun s scanned => ?_)
    rw [Function.comp_apply, Bool.eq_iff_iff, decide_eq_true_iff]
    exact isBareBuiltin_iff scanned
  · rw [bareCalls_eq_words]
    exact bareWords_ordered source.code

end BuiltinCalls

end LexLint
