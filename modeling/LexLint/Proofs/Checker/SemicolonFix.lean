import LexLint.Proofs.Checker.FirstUses
import LexLint.Proofs.Checker.LineByLine
import LexLint.Proofs.Checker.Returns
import LexLint.Proofs.Checker.Statements

/-!
# Putting in the missing semicolon

A character put at the end of a line, before its return if it has one, makes that line longer and
moves those below (`Source.lines_insert`). The semicolon ends the statement and changes nothing for
its neighbours: the line above asks how the line begins, the line below whether it ends in a
backslash. So the checker then emits what it did, but for the one finding
(`semicolon_removes_its_finding`).
-/

namespace LexLint

/-! ### A character at the end of a line -/

/-- Lines with their newlines. -/
def withNewlines (pieces : List (List Char)) : List Char := pieces.flatMap (· ++ ['\n'])

/-- The text of lines, around one of them. -/
theorem joinWithChar_append_cons (xs : List (List Char)) (piece : List Char)
    (ys : List (List Char)) :
    joinWithChar '\n' (xs ++ piece :: ys) =
      withNewlines xs ++ (piece ++ ys.flatMap ('\n' :: ·)) := by
  induction xs with
  | nil => exact joinWithChar_cons '\n' piece ys
  | cons x rest ih =>
    rw [List.cons_append, joinWithChar_cons, withNewlines, List.flatMap_cons, List.append_assoc,
      List.append_assoc, List.singleton_append, ← withNewlines, ← ih]
    cases rest with
    | nil => rw [List.nil_append, joinWithChar_cons, List.flatMap_cons]; rfl
    | cons y more => rw [List.cons_append, joinWithChar_cons, List.flatMap_cons]; rfl

theorem pieceLines_append_cons (number start : Nat) (xs : List (List Char)) (piece : List Char)
    (ys : List (List Char)) :
    pieceLines number start (xs ++ piece :: ys) = pieceLines number start xs ++
      pieceLine (number + xs.length) (start + (withNewlines xs).length) piece ::
        pieceLines (number + xs.length + 1)
          (start + (withNewlines xs).length + piece.length + 1) ys := by
  induction xs generalizing number start with
  | nil => rfl
  | cons x rest ih =>
    have first : start + x.length + 1 + (withNewlines rest).length =
        start + (withNewlines (x :: rest)).length := by
      simp only [withNewlines, List.flatMap_cons, List.length_append, List.length_singleton]
      omega
    have count : number + 1 + rest.length = number + (x :: rest).length := by
      rw [List.length_cons]
      omega
    rw [List.cons_append, pieceLines, ih, first, count, pieceLines, List.cons_append]

theorem length_pieceLines (number start : Nat) (pieces : List (List Char)) :
    (pieceLines number start pieces).length = pieces.length := by
  induction pieces generalizing number start with
  | nil => rfl
  | cons piece rest ih => rw [pieceLines, List.length_cons, ih, List.length_cons]

theorem pieceLines_shift (n number start : Nat) (pieces : List (List Char)) :
    pieceLines number (start + n) pieces =
      (pieceLines number start pieces).map (Line.shift n) := by
  induction pieces generalizing number start with
  | nil => rfl
  | cons piece rest ih =>
    have next : start + n + piece.length + 1 = start + piece.length + 1 + n := by omega
    have here : pieceLine number (start + n) piece = (pieceLine number start piece).shift n := by
      simp only [pieceLine, Line.shift, Line.mk.injEq, Span.mk.injEq, true_and, and_true]
      omega
    rw [pieceLines, next, ih, here, pieceLines, List.map_cons]

/-- The piece that a line is, between the pieces of the lines above and below. -/
theorem Source.exists_pieces {source : Source} {above below : List Line} {line : Line}
    (h : source.lines = above ++ line :: below) :
    ∃ xs piece ys, splitAtChar '\n' source.text = xs ++ piece :: ys ∧
      above = pieceLines 0 0 xs ∧ line = pieceLine xs.length (withNewlines xs).length piece ∧
      below = pieceLines (xs.length + 1) ((withNewlines xs).length + piece.length + 1) ys := by
  rw [Source.lines_eq_pieceLines] at h
  have size := congrArg List.length h
  rw [length_pieceLines, List.length_append, List.length_cons] at size
  have bound : above.length < (splitAtChar '\n' source.text).length := by omega
  have split := (List.take_append_drop above.length (splitAtChar '\n' source.text)).symm
  rw [List.drop_eq_getElem_cons bound] at split
  refine ⟨_, _, _, split, ?_⟩
  rw [split, pieceLines_append_cons, Nat.zero_add, Nat.zero_add] at h
  have sameSize : (pieceLines 0 0 ((splitAtChar '\n' source.text).take above.length)).length =
      above.length := by
    rw [length_pieceLines, List.length_take]
    omega
  obtain ⟨first, rest⟩ := List.append_inj h sameSize
  obtain ⟨same, others⟩ := List.cons.inj rest
  exact ⟨first.symm, same.symm, others.symm⟩

/-- The document with a character put in before an offset. -/
def Source.insert (source : Source) (offset : Nat) (c : Char) : Source :=
  { source with text := source.text.take offset ++ c :: source.text.drop offset }

theorem cutReturn_insert {c : Char} (visible : c ≠ '\r') (piece : List Char) :
    cutReturn (cutReturn piece ++ c :: piece.drop (cutReturn piece).length) =
      cutReturn piece ++ [c] := by
  by_cases returned : piece.getLast? = some '\r'
  · obtain ⟨front, rfl⟩ := List.getLast?_eq_some_iff.mp returned
    have cut : cutReturn (front ++ ['\r']) = front := by simp [cutReturn]
    have longer : front ++ [c, '\r'] = front ++ [c] ++ ['\r'] := by simp
    rw [cut, List.drop_left, longer]
    simp [cutReturn]
  · have whole : cutReturn piece = piece := by simp [cutReturn, returned]
    rw [whole, List.drop_length]
    simp [cutReturn, visible]

/-- A character put in at the end of a line makes this line longer and moves those below. -/
theorem Source.lines_insert {source : Source} {above below : List Line} {line : Line}
    (h : source.lines = above ++ line :: below) {c : Char} (newline : c ≠ '\n')
    (visible : c ≠ '\r') :
    ∃ longer : Line, longer.raw = line.raw ++ [c] ∧ longer.code = codeView (line.raw ++ [c]) ∧
      (source.insert line.span.stop c).lines = above ++ longer :: below.map (Line.shift 1) := by
  obtain ⟨xs, piece, ys, pieces, rfl, rfl, rfl⟩ := Source.exists_pieces h
  have clean : ∀ p ∈ xs ++ piece :: ys, '\n' ∉ p := fun p hp =>
    not_mem_of_mem_splitAtChar (pieces ▸ hp)
  have size := length_cutReturn_le piece
  let cut := (cutReturn piece).length
  let edited := cutReturn piece ++ c :: piece.drop cut
  have text : (source.insert ((withNewlines xs).length + cut) c).text =
      joinWithChar '\n' (xs ++ edited :: ys) := by
    have whole := joinWithChar_splitAtChar '\n' source.text
    rw [pieces, joinWithChar_append_cons] at whole
    rw [Source.insert, ← whole, List.take_length_add_append, ← List.drop_drop, List.drop_left,
      List.take_append_of_le_length size, List.drop_append_of_le_length size, take_cutReturn,
      joinWithChar_append_cons]
    simp [edited, cut]
  have editedClean : ∀ p ∈ xs ++ edited :: ys, '\n' ∉ p := by
    obtain ⟨inXs, inRest⟩ := List.forall_mem_append.mp clean
    obtain ⟨inPiece, inYs⟩ := List.forall_mem_cons.mp inRest
    refine List.forall_mem_append.mpr ⟨inXs, List.forall_mem_cons.mpr ⟨?_, inYs⟩⟩
    have kept := cutReturn_prefix piece
    rw [List.mem_append, List.mem_cons, not_or, not_or]
    exact ⟨fun front => inPiece (kept.subset front), Ne.symm newline,
      fun back => inPiece (List.mem_of_mem_drop back)⟩
  have longer : edited.length = piece.length + 1 := by
    simp only [edited, cut, List.length_append, List.length_cons, List.length_drop]
    omega
  have raw := cutReturn_insert visible piece
  refine ⟨pieceLine xs.length (withNewlines xs).length edited, raw, ?_, ?_⟩
  · rw [code_pieceLine, raw]
    rfl
  · change (source.insert ((withNewlines xs).length + cut) c).lines = _
    have next : (withNewlines xs).length + (piece.length + 1) + 1 =
        (withNewlines xs).length + piece.length + 1 + 1 := by omega
    rw [Source.lines_eq_pieceLines, text, splitAtChar_joinWithChar (by simp) editedClean,
      pieceLines_append_cons, Nat.zero_add, Nat.zero_add, longer, next, pieceLines_shift]

namespace Terminators

/-! ### What neighbours see of a line -/

theorem isUnterminated_congr {above above' below below' : Option Line}
    (sameAbove : above'.any isContinued = above.any isContinued)
    (sameBelow : below'.any isContinuation = below.any isContinuation) (line : Line) :
    isUnterminated above' line below' = isUnterminated above line below := by
  simp only [isUnterminated, sameAbove, sameBelow]

/-- The lines below a line ask whether it ends in a backslash. -/
theorem unterminatedFrom_congr {above above' : Option Line}
    (same : above'.any isContinued = above.any isContinued) (lines : List Line) :
    unterminatedFrom above' lines = unterminatedFrom above lines := by
  cases lines with
  | nil => rfl
  | cons line rest =>
    rw [unterminatedFrom, unterminatedFrom, isUnterminated_congr same rfl]

/-- A flagged line between the flagged lines above and below. Those above ask how it begins. -/
theorem exists_split_of_mem_unterminatedFrom {above : Option Line} {lines : List Line}
    {line : Line} (h : line ∈ unterminatedFrom above lines) :
    ∃ before after found last, lines = before ++ line :: after ∧ found.Sublist before ∧
      isUnterminated last line after.head? = true ∧
      unterminatedFrom above lines = found ++ line :: unterminatedFrom (some line) after ∧
      ∀ line' after', isContinuation line' = isContinuation line →
        unterminatedFrom above (before ++ line' :: after') =
          found ++ unterminatedFrom last (line' :: after') := by
  induction lines generalizing above with
  | nil => cases h
  | cons first rest ih =>
    by_cases here : isUnterminated above first rest.head? = true ∧ line = first
    · obtain ⟨flagged, rfl⟩ := here
      refine ⟨[], rest, [], above, rfl, List.Sublist.refl _, flagged, ?_, fun _ _ _ => rfl⟩
      rw [unterminatedFrom, if_pos flagged]
      rfl
    · have later : line ∈ unterminatedFrom (some first) rest := by
        rw [unterminatedFrom] at h
        split at h
        · rename_i flagged
          exact (List.mem_cons.mp h).resolve_left fun same => here ⟨flagged, same⟩
        · exact h
      obtain ⟨before, after, found, last, rfl, sublist, flagged, split, other⟩ := ih later
      have next (line' : Line) (after' : List Line)
          (same : isContinuation line' = isContinuation line) :
          isUnterminated above first (before ++ line' :: after').head? =
            isUnterminated above first (before ++ line :: after).head? := by
        refine isUnterminated_congr rfl ?_ first
        cases before with
        | nil => exact same
        | cons b bs => rfl
      cases firstFlagged : isUnterminated above first (before ++ line :: after).head? with
      | true =>
        refine ⟨first :: before, after, first :: found, last, rfl, sublist.cons_cons first,
          flagged, ?_, fun line' after' same => ?_⟩
        · rw [unterminatedFrom, if_pos firstFlagged, split, List.cons_append]
        · rw [List.cons_append, unterminatedFrom, next line' after' same, if_pos firstFlagged,
            other line' after' same, List.cons_append]
      | false =>
        refine ⟨first :: before, after, found, last, rfl, sublist.cons first, flagged, ?_,
          fun line' after' same => ?_⟩
        · rw [unterminatedFrom, firstFlagged]
          exact split
        · rw [List.cons_append, unterminatedFrom, next line' after' same, firstFlagged]
          exact other line' after' same

/-! ### The semicolon -/

/-- What follows a text cannot complete a literal that has none of it. -/
theorem isSome_afterLiteral?_append {literal more : List Char}
    (apart : ∀ c ∈ more, c ∉ literal) (s : List Char) :
    (afterLiteral? literal (s ++ more)).isSome = (afterLiteral? literal s).isSome := by
  induction literal generalizing s with
  | nil => rfl
  | cons p ps ih =>
    have others := ih fun c hc inside => apart c hc (List.mem_cons_of_mem p inside)
    cases s with
    | cons d ds =>
      simp only [List.cons_append, afterLiteral?]
      split
      · exact others ds
      · rfl
    | nil =>
      cases more with
      | nil => rfl
      | cons c cs =>
        have differs : p ≠ c := by
          rintro rfl
          exact apart p List.mem_cons_self List.mem_cons_self
        simp [afterLiteral?, differs]

/-- A statement begins as it did. -/
theorem startsWithAny_trim_concat {raw : List Char} (some_code : trim raw ≠ []) :
    startsWithAny continuations (trim (raw ++ [';'])) =
      startsWithAny continuations (trim raw) := by
  obtain ⟨blanks, blank, split⟩ := exists_trimEnd_append (trimStart raw)
  have start : trimStart (raw ++ [';']) = trimStart raw ++ [';'] := by
    have visible : trimStart raw ≠ [] := by
      intro empty
      rw [trim, empty] at some_code
      exact some_code rfl
    rw [trimStart, List.dropWhile_append, ← trimStart, ← trimStart, if_neg]
    exact fun empty => visible (List.isEmpty_iff.mp empty)
  rw [trim, start, trimEnd_concat (by decide), ← split, List.append_assoc]
  refine startsWithAny_congr fun literal member => isSome_afterLiteral?_append ?_ _
  intro c hc inside
  rcases List.mem_append.mp hc with inBlanks | semicolon
  · have visible := List.any_eq_false.mp (isPlain_of_mem_continuations literal member).1 c inside
    exact visible (blank c inBlanks)
  · obtain rfl := List.mem_singleton.mp semicolon
    revert inside
    revert member
    revert literal
    decide

/-- A line of a document that is flagged and ends in code, and the same line with a semicolon put
at its end. -/
structure Finished (source : Source) (line longer : Line) : Prop where
  member : line ∈ source.lines
  flagged : ∃ above below, isUnterminated above line below = true
  endsInCode : line.EndsInCode
  raw : longer.raw = line.raw ++ [';']
  code : longer.code = codeView (line.raw ++ [';'])

namespace Finished

variable {source : Source} {line longer : Line}

/-- The semicolon stands in the code, and ends it. -/
theorem isUnterminated_eq_false (h : Finished source line longer) (above below : Option Line) :
    isUnterminated above longer below = false := by
  have code : (line.raw.foldl LexState.read .start).mode = .code := h.endsInCode
  have shown : (line.raw.foldl LexState.read .start).view [';'] = [';'] := by
    rw [LexState.view, LexState.shown_of_mode_read_code (by decide)]
    · rfl
    · simp [LexState.read, code]
  have last : (trim longer.code).getLast? = some ';' := by
    rw [h.code, getLast?_trim, codeView_eq_view, LexState.view_append, shown,
      trimEnd_concat (by decide), List.getLast?_concat]
  simp [isUnterminated, isEnded, last]

/-- The lines above see no difference: the line begins as it did. -/
theorem isContinuation_eq (h : Finished source line longer) :
    isContinuation longer = isContinuation line := by
  obtain ⟨above, below, flagged⟩ := h.flagged
  rw [isContinuation, isContinuation, h.raw]
  refine startsWithAny_trim_concat fun empty => ?_
  simp [isUnterminated, empty] at flagged

/-- The lines below see no difference: neither with the semicolon nor without it does the line
end in a backslash, with which its code would go on. -/
theorem isContinued_eq (h : Finished source line longer) :
    isContinued longer = isContinued line := by
  obtain ⟨above, below, flagged⟩ := h.flagged
  have finished : isContinued longer = false := by
    rw [isContinued, h.raw, getLast?_trim, trimEnd_concat (by decide), List.getLast?_concat]
    rfl
  rw [finished, eq_comm, Bool.eq_false_iff]
  intro backslash
  obtain ⟨front, last⟩ := List.getLast?_eq_some_iff.mp
    ((showsBackslash h.member h.endsInCode).mp backslash)
  simp [isUnterminated, isEnded, last, endsWithAny, openTails, afterLiteral?] at flagged

end Finished

theorem placed_site_shift (n : Nat) (line : Line) :
    checker.placed (site (line.shift n)) = (checker.placed (site line)).shift n := by
  have moved : ((line.span.stop + n : Nat) : Int) = n + line.span.stop := by omega
  simp only [Checker.placed, site, Site.at, Finding.shift, Line.shift, moved]

/-- What is unterminated once a flagged line has its semicolon. -/
theorem unterminatedFrom_insert {source : Source} {line : Line}
    (h : line ∈ unterminatedFrom none source.lines) (code : line.EndsInCode) :
    ∃ before after found later, source.lines = before ++ line :: after ∧ found.Sublist before ∧
      later.Sublist after ∧
      unterminatedFrom none source.lines = found ++ line :: later ∧
      unterminatedFrom none (source.insert line.span.stop ';').lines =
        found ++ later.map (Line.shift 1) := by
  obtain ⟨before, after, found, last, lines, sublist, flagged, split, other⟩ :=
    exists_split_of_mem_unterminatedFrom h
  obtain ⟨longer, raw, longerCode, edited⟩ :=
    Source.lines_insert lines (c := ';') (by decide) (by decide)
  have finished : Finished source line longer :=
    ⟨lines ▸ by simp, ⟨last, _, flagged⟩, code, raw, longerCode⟩
  have seen : (some longer).any isContinued =
      ((some line).map (Line.move (· + 1))).any isContinued := finished.isContinued_eq
  refine ⟨before, after, found, unterminatedFrom (some line) after, lines, sublist,
    unterminatedFrom_sublist _ _, split, ?_⟩
  rw [edited, other longer _ finished.isContinuation_eq, unterminatedFrom,
    finished.isUnterminated_eq_false, if_neg Bool.false_ne_true, unterminatedFrom_congr seen]
  exact congrArg (found ++ ·) (unterminatedFrom_move (· + 1) (some line) after)

/-- **The missing semicolon removes its finding and no other.** Where a line with neither a comment
nor an unclosed string is flagged, the checker finds on the text with a semicolon put in there what
it found before, but for this finding: what stands before it, and further on by one what stands
behind it. -/
theorem semicolon_removes_its_finding (source : Source) (options : Options)
    (declared : List String) :
    ∃ findings, (checker.emit ⟨source, options⟩).outcome declared = (.ok findings, declared) ∧
      ∀ f ∈ findings,
        (∀ comment, ¬ source.CommentOn (source.index.position f.start).line comment) →
        (∀ span ∈ scanUnclosedStrings source.text,
          (source.index.position span.start).line ≠ (source.index.position f.start).line) →
        ∃ (e : Nat) (earlier later : List Finding), f.start = e ∧ f.stop = e ∧
          findings = earlier ++ f :: later ∧
          (∀ g ∈ earlier, g.start < e) ∧ (∀ g ∈ later, (e : Int) < g.start) ∧
          (checker.emit ⟨source.insert e ';', options⟩).outcome declared =
            (.ok (earlier ++ later.map (Finding.shift 1)), declared) := by
  refine ⟨_, outcome_emit_lines source options declared, ?_⟩
  intro f member noComment closed
  obtain ⟨line, flagged, rfl⟩ := List.mem_map.mp member
  have inLines := (unterminatedFrom_sublist none _).subset flagged
  obtain ⟨n, found⟩ := List.getElem?_of_mem inLines
  have number : (source.index.position (checker.placed (site line)).start).line = n := by
    rw [position_line_placed inLines, Source.number_of_getElem?_lines found]
  simp only [Function.comp_apply, number] at noComment closed
  obtain ⟨before, after, earlier, later, lines, inBefore, inAfter, split, edited⟩ :=
    unterminatedFrom_insert flagged (Source.endsInCode found noComment closed)
  have ordered := source.lines_separated
  rw [lines, List.pairwise_append, List.pairwise_cons] at ordered
  have stop {l : Line} (h : l ∈ source.lines) := (Source.stands_of_mem_lines h).start_le
  refine ⟨line.span.stop, earlier.map (checker.placed ∘ site), later.map (checker.placed ∘ site),
    rfl, rfl, ?_, ?_, ?_, ?_⟩
  · rw [split, List.map_append, List.map_cons]
  · intro g hg
    obtain ⟨l, inEarlier, rfl⟩ := List.mem_map.mp hg
    have above := ordered.2.2 l (inBefore.subset inEarlier) line List.mem_cons_self
    have le := stop inLines
    exact Int.ofNat_lt.mpr (by omega)
  · intro g hg
    obtain ⟨l, inLater, rfl⟩ := List.mem_map.mp hg
    have below := ordered.2.1.1 l (inAfter.subset inLater)
    have le := stop (l := l) (lines ▸ by simp [inAfter.subset inLater])
    exact Int.ofNat_lt.mpr (by omega)
  · have moved : (later.map (Line.shift 1)).map (checker.placed ∘ site) =
        (later.map (checker.placed ∘ site)).map (Finding.shift 1) := by
      rw [List.map_map, List.map_map]
      exact List.map_congr_left fun l _ => placed_site_shift 1 l
    rw [outcome_emit_lines, edited, List.map_append, moved]

/-- A statement with a `#` in a string and a return behind it, between two others. -/
theorem semicolon_removes_its_finding_between :
    let source : Source := .ofString "a" "let$ a = 1\nf(\"#\")\r\nlet$ b = 2"
    ∃ findings, (checker.emit ⟨source, {}⟩).outcome [] = (.ok findings, []) ∧
      findings.map (·.start) = [10, 17, 29] ∧
      (∀ comment, ¬ source.CommentOn 1 comment) ∧ scanUnclosedStrings source.text = [] ∧
      ∃ f ∈ findings, f.start = 17 ∧ ∃ earlier later, findings = earlier ++ f :: later ∧
        (checker.emit ⟨source.insert 17 ';', {}⟩).outcome [] =
          (.ok (earlier ++ later.map (Finding.shift 1)), []) := by
  intro source
  obtain ⟨findings, emitted, removes⟩ := semicolon_removes_its_finding source {} []
  have starts : ((checker.emit ⟨source, {}⟩).outcome []).1.toOption.map (·.map (·.start)) =
      some [10, 17, 29] := by decide +kernel
  rw [emitted] at starts
  have starts : findings.map (·.start) = [10, 17, 29] := Option.some.inj starts
  have noHash : ∀ line ∈ source.lines[1]?,
      ¬ (line.masked.takeWhile (· != '#')).length < line.raw.length := by decide +kernel
  have noComment (comment : Span) : ¬ source.CommentOn 1 comment := by
    intro on
    obtain ⟨line, found, -⟩ := on.exists_line
    exact noHash line found ((Source.commentOn_iff found).mp on).1
  have closed : scanUnclosedStrings source.text = [] := by decide +kernel
  obtain ⟨f, member, start⟩ : ∃ f ∈ findings, f.start = 17 :=
    List.mem_map.mp (starts ▸ by decide)
  have line : (source.index.position f.start).line = 1 := by
    rw [start]
    decide +kernel
  obtain ⟨e, earlier, later, place, -, split, -, -, repaired⟩ :=
    removes f member (line ▸ noComment) (by simp [closed])
  obtain rfl : e = 17 := by omega
  exact ⟨findings, emitted, starts, noComment, closed, f, member, start, earlier, later, split,
    repaired⟩

end Terminators

end LexLint
