import LexLint.Proofs.Checker.Ranges
import LexLint.Proofs.View.LineEnds

/-!
# Statements without a semicolon

The check for semicolons reads a line and its neighbours, partly in the text and partly in the
code. All that it reads of a line and of the line below, the code alone decides
(`isUnterminated_eq`). The line above is asked in the text whether it ends in a backslash, and
there a comment or an unclosed string may end in one (`hidden_backslashes_hide_statements`).
-/

namespace LexLint

/-- The numbers of the lines on which findings begin. -/
def Source.linesOf (source : Source) (findings : List Finding) : List Nat :=
  findings.map fun f => (source.index.position f.start).line

/-- The code of each line, without the blanks at either end. -/
def codeLines (code : List Char) : List (List Char) := (splitAtChar '\n' code).map trim

theorem map_trim_codeRows (start : Nat) (pieces : List (List Char)) :
    (codeRows start pieces).map (fun row => trim row.2) = pieces.map trim := by
  induction pieces generalizing start with
  | nil => rfl
  | cons piece rest ih =>
    rw [codeRows, List.map_cons, List.map_cons, ih, trim_trimEnd]

/-- The code of the lines of a document is cut from its code view. -/
theorem Source.map_trim_code_lines (source : Source) :
    source.lines.map (fun line => trim line.code) = codeLines source.code := by
  have rows := congrArg (List.map fun row : Nat × List Char => trim row.2) source.map_row_lines
  rw [map_trim_codeRows, List.map_map] at rows
  rw [codeLines, ← rows]
  exact List.map_congr_left fun line _ => (trim_trimEnd line.code).symm

namespace Terminators

/-! ### What the code decides -/

theorem isHeader_eq (s : List Char) : isHeader s = (identifier? s).any fun r =>
    String.ofList r.1 == "else" ||
      (Vocabulary.headerKeywords.contains (String.ofList r.1) && r.2.head? == some '$') := by
  unfold isHeader
  cases identifier? s <;> rfl

theorem head?_marker_append_blank {blanks : List Char} (blank : AllBlank blanks) (s : List Char) :
    ((s ++ blanks).head? == some '$') = (s.head? == some '$') := by
  cases s with
  | cons c rest => rfl
  | nil =>
    cases blanks with
    | nil => rfl
    | cons b bs =>
      have differs : b ≠ '$' := by
        rintro rfl
        exact absurd (blank '$' List.mem_cons_self) (by decide)
      simp [differs]

theorem head?_marker_view (s : List Char) :
    ((LexState.start.view s).head? == some '$') = (s.head? == some '$') := by
  cases s with
  | nil => rfl
  | cons c rest =>
    by_cases hash : c = '#'
    · subst hash
      rfl
    · rw [LexState.view, LexState.start_shown hash]
      rfl

/-- A line is a header if its code is. -/
theorem isHeader_trim_codeView {text : List Char} (line : '\n' ∉ text) :
    isHeader (trim (codeView text)) = isHeader (trim text) := by
  refine LexState.trim_codeView_congr (fun s blanks blank => ?_) (fun _ => rfl) (fun s => ?_) line
  · simp only [isHeader_eq, identifier?_append_blank blank, Option.any_map,
      head?_marker_append_blank blank]
  · simp only [isHeader_eq, LexState.identifier?_view, Option.any_map, head?_marker_view]

/-- Lines go on from the one above with visible characters that are read as they are. -/
theorem isPlain_of_mem_continuations :
    ∀ literal ∈ continuations, literal.any isBlank = false ∧
      ∀ c ∈ literal, LexState.IsPlain c := by
  have plain : ∀ literal ∈ continuations, literal.any isBlank = false ∧
      (literal.all fun c => decide (LexState.IsPlain c)) = true := by decide
  intro literal member
  obtain ⟨visible, asItIs⟩ := plain literal member
  exact ⟨visible, fun c hc => of_decide_eq_true (List.all_eq_true.mp asItIs c hc)⟩

theorem startsWithAny_congr {starts : List (List Char)} {s t : List Char}
    (same : ∀ literal ∈ starts,
      (afterLiteral? literal s).isSome = (afterLiteral? literal t).isSome) :
    startsWithAny starts s = startsWithAny starts t := by
  rw [Bool.eq_iff_iff, startsWithAny, startsWithAny, List.any_eq_true, List.any_eq_true]
  exact exists_congr fun literal => and_congr_right fun member => by rw [same literal member]

/-- A line goes on from the one above if its code does. -/
theorem startsWithAny_trim_codeView {text : List Char} (line : '\n' ∉ text) :
    startsWithAny continuations (trim (codeView text)) =
      startsWithAny continuations (trim text) := by
  refine LexState.trim_codeView_congr (fun s blanks blank => ?_) (fun _ => rfl) (fun s => ?_) line
  · refine startsWithAny_congr fun literal member => ?_
    rw [afterLiteral?_append_blank blank (isPlain_of_mem_continuations literal member).1,
      Option.isSome_map]
  · refine startsWithAny_congr fun literal member => ?_
    rw [LexState.afterLiteral?_view (isPlain_of_mem_continuations literal member).2,
      Option.isSome_map]

/-- A line with nothing on it, or nothing but a comment, has no code. -/
theorem trim_code_of_noCode {source : Source} {line : Line} (h : line ∈ source.lines)
    (noCode : ((trim line.raw).isEmpty || (trim line.raw).head? == some '#') = true) :
    trim line.code = [] := by
  rcases Bool.or_eq_true_iff.mp noCode with empty | comment
  · obtain ⟨left, right, blankLeft, blankRight, split⟩ := exists_trim_append line.raw
    rw [List.isEmpty_iff.mp empty, List.nil_append] at split
    have blank : AllBlank line.raw := by
      rw [split]
      intro c hc
      exact (List.mem_append.mp hc).elim (blankLeft c) (blankRight c)
    rw [Source.code_of_mem_lines h, codeView_eq_view, trim,
      trimStart_of_allBlank (LexState.allBlank_view blank _)]
    rfl
  · rw [← trim_trimEnd, Source.trimEnd_code_of_isComment h comment]
    rfl

/-- The code of a line, above the code of the next, is a statement without its semicolon. -/
def lacksSemicolon (code : List Char) (below : Option (List Char)) : Bool :=
  !(isHeader code || below.any (startsWithAny continuations) || isEnded code) &&
    looksLikeStatement code

/-- The code of a line and of the line below decide all but whether the line goes on from the one
above. -/
theorem isUnterminated_eq {source : Source} {line : Line} (h : line ∈ source.lines)
    (above : Option Line) {below : Option Line} (hb : ∀ l ∈ below, l ∈ source.lines) :
    isUnterminated above line below = (!above.any isContinued &&
      lacksSemicolon (trim line.code) (below.map fun l => trim l.code)) := by
  have header : isHeader (trim line.raw) = isHeader (trim line.code) := by
    rw [Source.code_of_mem_lines h, isHeader_trim_codeView (Source.noNewline_of_mem_lines h)]
  have continued : below.any isContinuation =
      (below.map fun l => trim l.code).any (startsWithAny continuations) := by
    cases below with
    | none => rfl
    | some l =>
      have member := hb l rfl
      rw [Option.map_some, Option.any_some, Option.any_some, Source.code_of_mem_lines member,
        startsWithAny_trim_codeView (Source.noNewline_of_mem_lines member), isContinuation]
  simp only [isUnterminated, lacksSemicolon, header, continued]
  cases noCode : (trim line.raw).isEmpty || (trim line.raw).head? == some '#' with
  | false => grind
  | true =>
    rw [trim_code_of_noCode h noCode]
    simp [isEnded]

/-! ### Which lines are flagged -/

/-- The line above the line with a number. -/
def lineAbove (above : Option Line) (lines : List Line) : Nat → Option Line
  | 0 => above
  | n + 1 => lines[n]?

theorem lineAbove_cons (above : Option Line) (line : Line) (rest : List Line) (n : Nat) :
    lineAbove above (line :: rest) (n + 1) = lineAbove (some line) rest n := by
  cases n <;> rfl

/-- A line is flagged if it is unterminated between its neighbours. -/
theorem mem_unterminatedFrom {above : Option Line} {lines : List Line} {line : Line} :
    line ∈ unterminatedFrom above lines ↔ ∃ n, lines[n]? = some line ∧
      isUnterminated (lineAbove above lines n) line lines[n + 1]? = true := by
  induction lines generalizing above with
  | nil => simp [unterminatedFrom]
  | cons first rest ih =>
    have parts : line ∈ unterminatedFrom above (first :: rest) ↔
        (isUnterminated above first rest.head? = true ∧ line = first) ∨
          line ∈ unterminatedFrom (some first) rest := by
      rw [unterminatedFrom]
      split
      · rename_i flagged
        rw [List.mem_cons, and_iff_right flagged]
      · rename_i fine
        simp [fine]
    rw [parts, ih]
    constructor
    · rintro (⟨flagged, rfl⟩ | ⟨n, found, flagged⟩)
      · exact ⟨0, rfl, by rwa [List.head?_eq_getElem?] at flagged⟩
      · exact ⟨n + 1, found, by rwa [lineAbove_cons]⟩
    · rintro ⟨n, found, flagged⟩
      cases n with
      | zero =>
        obtain rfl := Option.some.inj found
        exact .inl ⟨by rw [List.head?_eq_getElem?]; exact flagged, rfl⟩
      | succ n =>
        rw [lineAbove_cons] at flagged
        exact .inr ⟨n, found, flagged⟩

/-- The code of the line with a number is a statement without its semicolon. -/
def LacksSemicolon (code : List Char) (n : Nat) : Prop :=
  ∃ line, (codeLines code)[n]? = some line ∧ lacksSemicolon line (codeLines code)[n + 1]? = true

/-- The line above the line with a number ends in a backslash. -/
def GoesOnInto (source : Source) (n : Nat) : Prop :=
  (lineAbove none source.lines n).any isContinued = true

theorem outcome_emit_lines (source : Source) (options : Options) (declared : List String) :
    (checker.emit ⟨source, options⟩).outcome declared =
      (.ok ((unterminatedFrom none source.lines).map (checker.placed ∘ site)), declared) := by
  have emitted : (checker.emit ⟨source, options⟩).outcome declared =
      (.ok ((sites source options).map checker.placed), declared) :=
    Checker.outcome_emit_placed (apt_sites source options) declared
  rw [emitted, sites, List.map_map]

/-- A finding stands on the line that it is about. -/
theorem position_line_placed {source : Source} {line : Line} (h : line ∈ source.lines) :
    (source.index.position (checker.placed (site line)).start).line = line.number := by
  rw [position_line_eq_lineAt]
  exact Source.lineAt_of_mem_lines h (Source.stands_of_mem_lines h).start_le (Nat.le_refl _)

/-- The lines that the checker flags: the statements without a semicolon in the code, but those
below a line that ends in a backslash. -/
theorem exists_flagged (source : Source) (options : Options) (declared : List String) :
    ∃ findings, (checker.emit ⟨source, options⟩).outcome declared = (.ok findings, declared) ∧
      ∀ n, n ∈ source.linesOf findings ↔
        LacksSemicolon source.code n ∧ ¬ GoesOnInto source n := by
  refine ⟨_, outcome_emit_lines source options declared, fun n => ?_⟩
  have code (n : Nat) : (codeLines source.code)[n]? =
      (source.lines[n]?).map fun line => trim line.code := by
    rw [← source.map_trim_code_lines, List.getElem?_map]
  have unterminated {m : Nat} {line : Line} (found : source.lines[m]? = some line) :
      isUnterminated (lineAbove none source.lines m) line source.lines[m + 1]? = true ↔
        LacksSemicolon source.code m ∧ ¬ GoesOnInto source m := by
    rw [isUnterminated_eq (List.mem_of_getElem? found) _ fun l below => List.mem_of_getElem? below]
    simp only [LacksSemicolon, GoesOnInto, code, found, Option.map_some, Option.some.injEq,
      exists_eq_left', Bool.and_eq_true, Bool.not_eq_true', Bool.not_eq_true, and_comm]
  simp only [Source.linesOf, List.map_map, List.mem_map, Function.comp_apply]
  constructor
  · rintro ⟨line, flagged, rfl⟩
    obtain ⟨m, found, isFlagged⟩ := mem_unterminatedFrom.mp flagged
    rw [position_line_placed (List.mem_of_getElem? found), Source.number_of_getElem?_lines found]
    exact (unterminated found).mp isFlagged
  · intro flagged
    obtain ⟨_, inCode, -⟩ := flagged.1
    rw [code] at inCode
    obtain ⟨line, found, -⟩ := Option.map_eq_some_iff.mp inCode
    refine ⟨line, mem_unterminatedFrom.mpr ⟨n, found, (unterminated found).mpr flagged⟩, ?_⟩
    rw [position_line_placed (List.mem_of_getElem? found), Source.number_of_getElem?_lines found]

/-! ### Backslashes -/

/-- The line ends in a backslash exactly if its code does. -/
def ShowsBackslash (line : Line) : Prop :=
  isContinued line = true ↔ (trim line.code).getLast? = some '\\'

/-- A line that ends in code ends as its code does. -/
theorem showsBackslash {source : Source} {line : Line} (h : line ∈ source.lines)
    (code : line.EndsInCode) : ShowsBackslash line := by
  rw [ShowsBackslash, isContinued, beq_iff_eq, getLast?_trim, getLast?_trim,
    Source.code_of_mem_lines h, codeView_eq_view,
    LexState.getLast?_trimEnd_view (Source.noNewline_of_mem_lines h) code]

/-- Where lines end as their code does, the code decides which lines go on. -/
theorem goesOnInto_iff {source : Source} (shown : ∀ line ∈ source.lines, ShowsBackslash line)
    (n : Nat) : GoesOnInto source n ↔
      ∃ m, n = m + 1 ∧ ∃ line, (codeLines source.code)[m]? = some line ∧
        line.getLast? = some '\\' := by
  cases n with
  | zero => simp [GoesOnInto, lineAbove]
  | succ m =>
    simp only [GoesOnInto, lineAbove, Nat.add_right_cancel_iff, exists_eq_left',
      ← source.map_trim_code_lines, List.getElem?_map]
    cases found : source.lines[m]? with
    | none => simp
    | some line =>
      have ends := shown line (List.mem_of_getElem? found)
      rw [ShowsBackslash] at ends
      simpa using ends

/-- **The code decides where a semicolon is missing, but for backslashes.** Of two documents with
the same code view, each gets flagged the statements of the code without a semicolon, but those
below a line that ends in a backslash in its text. So the same lines are flagged in both exactly if
the same of these statements follow such a line, and this is so if the lines of both end in a
backslash where their code does. -/
theorem flagged_lines_follow_code {a b : Source} (same : a.code = b.code) (options : Options)
    (declared : List String) :
    ∃ found found', (checker.emit ⟨a, options⟩).outcome declared = (.ok found, declared) ∧
      (checker.emit ⟨b, options⟩).outcome declared = (.ok found', declared) ∧
      (∀ n, n ∈ a.linesOf found ↔ LacksSemicolon a.code n ∧ ¬ GoesOnInto a n) ∧
      (∀ n, n ∈ b.linesOf found' ↔ LacksSemicolon a.code n ∧ ¬ GoesOnInto b n) ∧
      ((∀ n, n ∈ a.linesOf found ↔ n ∈ b.linesOf found') ↔
        ∀ n, LacksSemicolon a.code n → (GoesOnInto a n ↔ GoesOnInto b n)) ∧
      ((∀ line ∈ a.lines ++ b.lines, ShowsBackslash line) →
        ∀ n, n ∈ a.linesOf found ↔ n ∈ b.linesOf found') := by
  obtain ⟨found, emitted, flagged⟩ := exists_flagged a options declared
  obtain ⟨found', emitted', flagged'⟩ := exists_flagged b options declared
  rw [← same] at flagged'
  have agree : (∀ n, n ∈ a.linesOf found ↔ n ∈ b.linesOf found') ↔
      ∀ n, LacksSemicolon a.code n → (GoesOnInto a n ↔ GoesOnInto b n) := by
    refine forall_congr' fun n => ?_
    rw [flagged, flagged', and_congr_right_iff, not_iff_not]
  refine ⟨found, found', emitted, emitted', flagged, flagged', agree, fun shown => ?_⟩
  obtain ⟨inA, inB⟩ := List.forall_mem_append.mp shown
  exact agree.mpr fun n _ => by rw [goesOnInto_iff inA, goesOnInto_iff inB, same]

/-- Strings with other contents, and a comment where the other document has blanks. -/
theorem flagged_lines_follow_code_other_strings :
    let a : Source := .ofString "a" "::print(\"a\\\\\") # b\r\nlet$ x = 1"
    let b : Source := .ofString "b" "::print(\"  ;\")     \nlet$ x = 1"
    a.code = b.code ∧ ∃ found found',
      (checker.emit ⟨a, {}⟩).outcome [] = (.ok found, []) ∧
      (checker.emit ⟨b, {}⟩).outcome [] = (.ok found', []) ∧
      ∀ n, n ∈ a.linesOf found ↔ n ∈ b.linesOf found' := by
  intro a b
  have same : a.code = b.code := by decide +kernel
  obtain ⟨found, found', emitted, emitted', -, -, -, agree⟩ :=
    flagged_lines_follow_code same {} []
  refine ⟨same, found, found', emitted, emitted', agree ?_⟩
  unfold ShowsBackslash
  decide +kernel

/-- Below a comment that ends in a backslash, or a string that is left open with one, a missing
semicolon goes unseen, although the code views are the same. -/
theorem hidden_backslashes_hide_statements :
    let comment (last : String) : Source := .ofString "a" ("# c " ++ last ++ "\nlet$ x = 1")
    let string (last : String) : Source := .ofString "a" ("f(\"" ++ last ++ "\nlet$ x = 1")
    let flagged (source : Source) : Option (List Nat) :=
      ((checker.emit ⟨source, {}⟩).outcome []).1.toOption.map source.linesOf
    ((comment "\\").code = (comment ".").code ∧
      flagged (comment "\\") = some [] ∧ flagged (comment ".") = some [1]) ∧
    (string "\\").code = (string ".").code ∧
      flagged (string "\\") = some [0] ∧ flagged (string ".") = some [0, 1] := by
  decide +kernel

end Terminators

end LexLint
