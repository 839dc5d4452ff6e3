import LexLint.Proofs.Scan.TrailingBlanks
import LexLint.Proofs.Scan.Words
import LexLint.Proofs.View.UnclosedString
import LexLint.Registry

/-!
# Checkers that see the code view alone

Seven of the nine checkers report the same on two documents with the same code view
(`emit_eq_of_code_eq`): what stands in strings and comments cannot change their findings. Most of
them read nothing else. The checks for built-in calls and for bodies read lines, whose ends move
with a return that the code view may have blanked; they see no more of a line than its row.
-/

namespace LexLint

theorem Source.length_eq_of_code_eq {a b : Source} (h : a.code = b.code) : a.length = b.length := by
  have := congrArg List.length h
  simpa only [Source.code, length_codeView, Source.length] using this

theorem Source.rows_eq_of_code_eq {a b : Source} (h : a.code = b.code) :
    a.lines.map Line.row = b.lines.map Line.row := by
  rw [Source.map_row_lines, Source.map_row_lines, h]

/-- A checker given by its sites always succeeds and declares nothing. -/
theorem Checker.outcome_emit_ofSites (name title description : String) (codes : List Code)
    (sites : Source → Options → List Site) (context : Context) (declared : List String) :
    ((Checker.ofSites name title description codes sites).emit context).outcome declared =
      (.ok ((sites context.source context.options).map
        ((Checker.ofSites name title description codes sites).finding context.source.length)),
       declared) :=
  rfl

/-- The scan for unclosed strings reads the text itself, and finds what it would in the code. -/
theorem Strings.sites_eq_of_code_eq {a b : Source} (h : a.code = b.code) (options : Options) :
    sites a options = sites b options := by
  rw [sites, sites, ← scanUnclosedStrings_codeView a.text, ← scanUnclosedStrings_codeView b.text]
  exact congrArg (fun code => (scanUnclosedStrings code).map site) h

namespace BuiltinCalls

/-- Names made of word characters, as the built-ins are. -/
def IsWordName (name : List Char) : Prop := name ≠ [] ∧ ∀ c ∈ name, isWordChar c = true

theorem isIdentifier_of_mem {name : String} (h : name ∈ sortedNames) :
    isIdentifier name.toList = true := by
  have names : Vocabulary.builtinNames.all (fun name => isIdentifier name.toList) = true := by
    decide +kernel
  exact List.all_eq_true.mp names name (List.mem_mergeSort.mp h)

theorem isWordName_of_mem {name : String} (h : name ∈ sortedNames) : IsWordName name.toList :=
  ⟨isIdentifier_ne_nil (isIdentifier_of_mem h),
    fun _ hc => isWordChar_of_isIdentifier (isIdentifier_of_mem h) hc⟩

theorem IsWordName.visible {name : List Char} (word : IsWordName name) :
    name.any isBlank = false :=
  List.any_eq_false.mpr fun c hc => by simp [isBlank_of_isWordChar (word.2 c hc)]

theorem continuesCall_eq (after : List Char) : continuesCall after =
    (trimStart after).head?.any fun c => c == '(' || c == '"' || c == '\'' := by
  unfold continuesCall
  cases trimStart after <;> rfl

theorem isBareCall_append_blank {blanks : List Char} (blank : AllBlank blanks)
    (before after : List Char) : isBareCall before (after ++ blanks) = isBareCall before after := by
  have ends : (after ++ blanks).head?.any isWordChar = after.head?.any isWordChar := by
    cases after with
    | cons c rest => rfl
    | nil =>
      cases blanks with
      | nil => rfl
      | cons b bs => simp [isWordChar_of_isBlank (blank b List.mem_cons_self)]
  rw [isBareCall, isBareCall, ends, continuesCall_eq, continuesCall_eq,
    head?_trimStart_append_blank blank]

theorem bareOffsetsFrom_of_allBlank {name blanks : List Char} (word : IsWordName name)
    (blank : AllBlank blanks) (offset : Nat) (before : List Char) :
    bareOffsetsFrom name offset before blanks = [] := by
  induction blanks generalizing offset before with
  | nil => rfl
  | cons b bs ih =>
    have none : afterLiteral? name (b :: bs) = none := by
      have := afterLiteral?_append_blank blank word.visible []
      obtain ⟨p, ps, rfl⟩ := List.exists_cons_of_ne_nil word.1
      simpa [afterLiteral?] using this
    rw [bareOffsetsFrom, none, ih fun c hc => blank c (List.mem_cons_of_mem b hc)]

/-- Blanks at the end of a line make no call and end none. -/
theorem bareOffsetsFrom_append_blank {name blanks : List Char} (word : IsWordName name)
    (blank : AllBlank blanks) (offset : Nat) (before s : List Char) :
    bareOffsetsFrom name offset before (s ++ blanks) = bareOffsetsFrom name offset before s := by
  induction s generalizing offset before with
  | nil => exact bareOffsetsFrom_of_allBlank word blank offset before
  | cons c rest ih =>
    have here := afterLiteral?_append_blank blank word.visible (c :: rest)
    rw [List.cons_append] at here ⊢
    rw [bareOffsetsFrom, bareOffsetsFrom, here, ih]
    cases afterLiteral? name (c :: rest) with
    | none => rfl
    | some after => simp only [Option.map_some, isBareCall_append_blank blank]

/-- The bare calls of one built-in in a row. -/
def rowCalls (row : Nat × List Char) (name : String) : List Word :=
  (bareOffsetsFrom name.toList 0 [] row.2).map fun offset =>
    ⟨row.1 + offset, row.1 + offset + name.toList.length, name⟩

theorem callsOf_eq_rowCalls (line : Line) {name : String} (h : name ∈ sortedNames) :
    callsOf line name = rowCalls line.row name := by
  obtain ⟨blanks, blank, split⟩ := exists_trimEnd_append line.code
  have same := bareOffsetsFrom_append_blank (isWordName_of_mem h) blank 0 [] (trimEnd line.code)
  rw [split] at same
  rw [callsOf, same]
  rfl

/-- Elements that contribute nothing may be left out or not. -/
theorem flatMap_filter_of_eq_nil {α β : Type} {p : α → Bool} {f : α → List β} {xs : List α}
    (h : ∀ x ∈ xs, p x = false → f x = []) : (xs.filter p).flatMap f = xs.flatMap f := by
  induction xs with
  | nil => rfl
  | cons x rest ih =>
    have later := ih fun y hy => h y (List.mem_cons_of_mem x hy)
    cases hx : p x with
    | true => simp [hx, later]
    | false => simp [hx, later, h x List.mem_cons_self hx]

theorem flatMap_callsOf (line : Line) :
    sortedNames.flatMap (callsOf line) = sortedNames.flatMap (rowCalls line.row) :=
  List.flatMap_congr fun _ h => callsOf_eq_rowCalls line h

/-- Comment lines need not be left out: their rows are empty. -/
theorem bareCalls_eq (source : Source) :
    bareCalls source = ((source.lines.map Line.row).flatMap fun row =>
      sortedNames.flatMap (rowCalls row)).mergeSort before := by
  have comment : ∀ line ∈ source.lines, (!line.isComment) = false →
      sortedNames.flatMap (rowCalls line.row) = [] := by
    intro line member isComment
    have empty := Source.trimEnd_code_of_isComment member (by simpa using isComment)
    simp [rowCalls, Line.row, empty, bareOffsetsFrom]
  simp only [bareCalls, flatMap_callsOf]
  rw [flatMap_filter_of_eq_nil comment, List.flatMap_map]

theorem sites_eq_of_code_eq {a b : Source} (h : a.code = b.code) (options : Options) :
    sites a options = sites b options := by
  rw [sites, sites, bareCalls_eq, bareCalls_eq, Source.rows_eq_of_code_eq h]

end BuiltinCalls

namespace Constructs

theorem opensAfter_eq_row (line : Line) (offset : Nat) :
    opensAfter line offset = (line.row.2.drop (offset - line.row.1)).contains '\x7b' := by
  obtain ⟨blanks, blank, split⟩ := exists_trimEnd_append line.code
  have none (n : Nat) : '\x7b' ∉ blanks.drop n := by
    intro brace
    have := blank _ (List.mem_of_mem_drop brace)
    revert this
    decide
  rw [opensAfter, ← split, List.drop_append]
  simp [Line.row, none]

theorem opensLine_eq_row (line : Line) :
    opensLine line = ((trim line.row.2).head? == some '\x7b') := by
  obtain ⟨blanks, blank, split⟩ := exists_trimEnd_append line.code
  rw [opensLine, ← split, trim_append_blank blank]
  rfl

/-- A body follows a header that ends at `stop` in the row with a number, or below it. -/
def rowsHaveBody (rows : List (Nat × List Char)) (number lookahead stop : Nat) : Bool :=
  match rows.drop number with
  | [] => false
  | row :: below =>
    (row.2.drop (stop - row.1)).contains '\x7b' ||
      (below.take lookahead).any fun r => (trim r.2).head? == some '\x7b'

theorem hasBody_eq_rows (index : LineIndex) (lines : List Line) (lookahead stop : Nat) :
    hasBody index lines lookahead stop =
      rowsHaveBody (lines.map Line.row) (index.position stop).line lookahead stop := by
  rw [hasBody, rowsHaveBody, ← List.map_drop]
  cases lines.drop (index.position stop).line with
  | nil => rfl
  | cons line below =>
    have opens : opensLine = (fun r => (trim r.2).head? == some '\x7b') ∘ Line.row :=
      funext opensLine_eq_row
    simp only [List.map_cons, opensAfter_eq_row, opens, ← List.map_take, List.any_map]

/-- Lines begin where their rows do. -/
theorem position_line_eq_rows (source : Source) (offset : Int) :
    (source.index.position offset).line =
      (source.lines.map Line.row).countP (fun row => row.1 ≤ source.index.clamp offset) - 1 := by
  have spans : source.index.spans = source.lines.map (·.span) := by
    simp [Source.lines_eq, Function.comp_def]
  rw [LineIndex.position, spans, List.countP_map, List.countP_map]
  rfl

theorem position_line_eq_of_code_eq {a b : Source} (h : a.code = b.code) (offset : Int) :
    (a.index.position offset).line = (b.index.position offset).line := by
  have clamp : a.index.clamp offset = b.index.clamp offset :=
    congrArg (min offset.toNat) (Source.length_eq_of_code_eq h)
  rw [position_line_eq_rows, position_line_eq_rows, clamp, Source.rows_eq_of_code_eq h]

theorem hasBody_eq_of_code_eq {a b : Source} (h : a.code = b.code) (lookahead stop : Nat) :
    hasBody a.index a.lines lookahead stop = hasBody b.index b.lines lookahead stop := by
  rw [hasBody_eq_rows, hasBody_eq_rows, position_line_eq_of_code_eq h, Source.rows_eq_of_code_eq h]

theorem sites_eq_of_code_eq {a b : Source} (h : a.code = b.code) (options : Options) :
    sites a options = sites b options := by
  simp only [sites, h, hasBody_eq_of_code_eq h]

end Constructs

/-- The checkers that string contents and comments do not influence. -/
def codeViewCheckers : List Checker :=
  [Brackets.checker, KeywordSuffix.checker, Strings.checker, BuiltinCalls.checker,
   DataTypes.checker, Dictionaries.checker, Constructs.checker]

/-- Sites that the code view decides make findings that it decides. -/
theorem Checker.outcome_emit_eq {a b : Source} {options : Options} (h : a.code = b.code)
    (name title description : String) (codes : List Code)
    {sites : Source → Options → List Site} (same : sites a options = sites b options)
    (declared : List String) :
    ∃ findings,
      ((ofSites name title description codes sites).emit ⟨a, options⟩).outcome declared =
        (.ok findings, declared) ∧
      ((ofSites name title description codes sites).emit ⟨b, options⟩).outcome declared =
        (.ok findings, declared) := by
  refine ⟨_, outcome_emit_ofSites .., ?_⟩
  rw [outcome_emit_ofSites]
  simp only [same, Source.length_eq_of_code_eq h]

/-- **String contents and comments decide nothing.** Documents with the same code view, whatever
they hold in strings and comments, get the same findings from each of these checkers. -/
theorem emit_eq_of_code_eq {a b : Source} (h : a.code = b.code) {options : Options}
    (ignore : options.ignoreStrings = true) {checker : Checker}
    (member : checker ∈ codeViewCheckers) (declared : List String) :
    ∃ findings, (checker.emit ⟨a, options⟩).outcome declared = (.ok findings, declared) ∧
      (checker.emit ⟨b, options⟩).outcome declared = (.ok findings, declared) := by
  simp only [codeViewCheckers, List.mem_cons, List.not_mem_nil, or_false] at member
  rcases member with rfl | rfl | rfl | rfl | rfl | rfl | rfl
  · exact Checker.outcome_emit_eq h _ _ _ _ (by simp [Brackets.sites, ignore, h]) declared
  · exact Checker.outcome_emit_eq h _ _ _ _ (by simp [KeywordSuffix.sites, h]) declared
  · exact Checker.outcome_emit_eq h _ _ _ _ (Strings.sites_eq_of_code_eq h options) declared
  · exact Checker.outcome_emit_eq h _ _ _ _ (BuiltinCalls.sites_eq_of_code_eq h options) declared
  · exact Checker.outcome_emit_eq h _ _ _ _ (by simp [DataTypes.sites, h]) declared
  · exact Checker.outcome_emit_eq h _ _ _ _ (by simp [Dictionaries.sites, h]) declared
  · exact Checker.outcome_emit_eq h _ _ _ _ (Constructs.sites_eq_of_code_eq h options) declared

/-- A return that a string or a comment hides in one text, and other strings and comments. -/
theorem emit_eq_of_code_eq_hidden_return :
    let a : Source := .ofString "a" "print(\"(\r\n# [ print(1)\r\nprint(x)"
    let b : Source := .ofString "b" "print(\"[]\n   # \"x\\y\" zz\nprint(x)"
    let options : Options := {}
    a.code = b.code ∧ options.ignoreStrings = true ∧ BuiltinCalls.checker ∈ codeViewCheckers ∧
      ∃ findings,
        (BuiltinCalls.checker.emit ⟨a, options⟩).outcome [] = (.ok findings, []) ∧
        (BuiltinCalls.checker.emit ⟨b, options⟩).outcome [] = (.ok findings, []) := by
  intro a b options
  have same : a.code = b.code := by decide +kernel
  have member : BuiltinCalls.checker ∈ codeViewCheckers := by simp [codeViewCheckers]
  exact ⟨same, rfl, member, emit_eq_of_code_eq same rfl member []⟩

end LexLint
