import LexLint.Proofs.Checker.BuiltinWords
import LexLint.Proofs.Scan.AlignedHeaders
import LexLint.Proofs.View.Returns

/-!
# What checkers find in lines that end with a return

A document and the same document with a return before each newline are aligned. Each checker of the
language but the one for dictionaries, whose window counts characters, finds the same sites in both,
each at its place (`SameSites`).
-/

namespace LexLint

/-- The text of a document is aligned with its text with returns. -/
theorem Source.aligned_text (source : Source) :
    Aligned (returnedPlace source.text) 0 source.text source.withReturns.text :=
  aligned_withReturns source.text

theorem Source.aligned_code (source : Source) :
    Aligned (returnedPlace source.text) 0 source.code source.withReturns.code :=
  source.aligned_text.codeView

/-- What is told of a site where it is moved: its start, its code and its message. -/
def Site.moved (place : Nat → Nat) (s : Site) : Nat × String × String :=
  (place s.start.toNat, s.code, s.message)

/-- The sites with returns are those without, each at its place. -/
def SameSites (source : Source) (sites sites' : List Site) : Prop :=
  sites'.map (Site.moved id) = sites.map (Site.moved (returnedPlace source.text))

theorem SameSites.append {source : Source} {a a' b b' : List Site} (first : SameSites source a a')
    (second : SameSites source b b') : SameSites source (a ++ b) (a' ++ b') := by
  rw [SameSites, List.map_append, List.map_append, first, second]

/-! ### Checkers that scan the code -/

theorem Brackets.sameSites (source : Source) (options : Options) :
    SameSites source (sites source options) (sites source.withReturns options) := by
  have events : scanBrackets (if options.ignoreStrings then source.withReturns.code
      else source.withReturns.text) =
        (scanBrackets (if options.ignoreStrings then source.code else source.text)).map
          (BracketEvent.move (returnedPlace source.text)) := by
    split
    · exact source.aligned_code.scanBrackets rfl
    · exact source.aligned_text.scanBrackets rfl
  simp only [SameSites, sites, events, List.map_map]
  refine List.map_congr_left fun event _ => ?_
  obtain ⟨fault, offset⟩ := event
  cases fault <;> rfl

theorem Aligned.any_head? {place : Nat → Nat} {offset : Nat} {t u : List Char}
    (aligned : Aligned place offset t u) {p : Char → Bool} {passed : Bool}
    (uniform : ∀ b, isBlank b = true → p b = passed) : u.head?.any p = t.head?.any p := by
  cases aligned with
  | nil => rfl
  | char => rfl
  | newline blank =>
    simp only [List.head?_cons, Option.any_some, uniform _ blank, uniform '\n' isBlank_newline]

theorem Aligned.head?_beq {place : Nat → Nat} {offset : Nat} {t u : List Char}
    (aligned : Aligned place offset t u) {c : Char} (visible : isBlank c = false) :
    (u.head? == some c) = (t.head? == some c) := by
  cases aligned with
  | nil => rfl
  | char => rfl
  | newline blank =>
    simp [ne_of_isBlank blank visible, ne_of_isBlank isBlank_newline visible]

theorem KeywordSuffix.bareKeywords_eq (code : List Char) : bareKeywords code =
    (scanSites code).filterMap fun s =>
      if Vocabulary.markedKeywords.contains s.word.text && s.after.head?.any isBlank
      then some s.word else none := by
  rw [bareKeywords]
  induction scanSites code with
  | nil => rfl
  | cons s rest ih =>
    rw [List.filterMap_cons, List.filter_cons]
    split
    · rw [List.map_cons, ih]
    · rw [ih]

theorem KeywordSuffix.sameSites (source : Source) (options : Options) :
    SameSites source (sites source options) (sites source.withReturns options) := by
  have words : bareKeywords source.withReturns.code =
      (bareKeywords source.code).map (Word.move (returnedPlace source.text)) := by
    rw [bareKeywords_eq, bareKeywords_eq]
    refine source.aligned_code.filterMap_scanSites rfl fun s s' alike => ?_
    have text : s'.word.text = s.word.text := by
      rw [alike.word]
      rfl
    rw [alike.after.any_head? fun _ blank => blank, text, alike.word]
    split <;> rfl
  simp only [SameSites, sites, words, List.map_map]
  rfl

theorem Strings.sameSites (source : Source) (options : Options) :
    SameSites source (sites source options) (sites source.withReturns options) := by
  have starts := congrArg (List.map fun start => (start, Code.unclosedString.text,
    "Unclosed string literal")) (source.aligned_text.starts_scanUnclosedStrings rfl)
  rw [List.map_map, List.map_map] at starts
  simp only [SameSites, sites, List.map_map]
  exact starts

theorem DataTypes.sameSites (source : Source) (options : Options) :
    SameSites source (sites source options) (sites source.withReturns options) := by
  have runs := source.aligned_code.scanAngles rfl options.typeSpanLimit
  simp only [SameSites, sites, runs, List.filterMap_map, List.map_filterMap, Function.comp_def,
    site?_eq_verdict, Option.map_map]
  rfl

/-! ### Checkers that go line by line -/

/-- Within a line, offsets move together. -/
theorem returnedPlace_add {source : Source} {line : Line} (h : line ∈ source.lines) {i : Nat}
    (hi : i ≤ line.code.length) :
    returnedPlace source.text (line.span.start + i) =
      returnedPlace source.text line.span.start + i := by
  have stands := Source.stands_of_mem_lines h
  have size : line.code.length = line.span.stop - line.span.start := by
    rw [stands.code, length_slice (by rw [Source.code, length_codeView]; exact stands.stop_le)]
  have le := stands.start_le
  rw [returnedPlace_of_mem_lines h (Nat.le_add_right ..) (by omega),
    returnedPlace_of_mem_lines h (Nat.le_refl _) le]
  omega

theorem WordSite.Fits.start_le {text : List Char} {s : WordSite} (h : s.Fits text) :
    s.word.start ≤ text.length := by
  rw [h.start, h.split, List.length_append, List.length_reverse]
  exact Nat.le_add_right ..

theorem BuiltinCalls.sameSites {source : Source} (noReturn : '\r' ∉ source.text)
    (options : Options) :
    SameSites source (sites source options) (sites source.withReturns options) := by
  simp only [SameSites, sites, bareCalls_eq_words, ← flatMap_rowWords_lines,
    lines_withReturns noReturn, List.map_flatMap, List.flatMap_map]
  refine List.flatMap_congr fun line h => ?_
  simp only [Line.row, Line.move, rowWords, List.map_map]
  refine List.map_congr_left fun s member => ?_
  have inRow := (fits_of_mem_scanSites (List.mem_of_mem_filter member)).start_le
  obtain ⟨blanks, -, split⟩ := exists_trimEnd_append line.code
  have inLine : s.word.start ≤ line.code.length := by
    rw [← split, List.length_append]
    exact Nat.le_add_right_of_le inRow
  have moves := returnedPlace_add h inLine
  simp only [Function.comp, Site.moved, site, Site.at, Undeclared.shift, Int.toNat_natCast, moves,
    id]

theorem Terminators.isUnterminated_move (place : Nat → Nat) (above : Option Line) (line : Line)
    (below : Option Line) :
    isUnterminated (above.map (Line.move place)) (line.move place) (below.map (Line.move place)) =
      isUnterminated above line below := by
  cases above <;> cases below <;> rfl

theorem Terminators.unterminatedFrom_move (place : Nat → Nat) (above : Option Line)
    (lines : List Line) :
    unterminatedFrom (above.map (Line.move place)) (lines.map (Line.move place)) =
      (unterminatedFrom above lines).map (Line.move place) := by
  induction lines generalizing above with
  | nil => rfl
  | cons line rest ih =>
    have later := ih (some line)
    rw [Option.map_some] at later
    simp only [List.map_cons, unterminatedFrom, List.head?_map, isUnterminated_move, later]
    split <;> rfl

theorem Terminators.sameSites {source : Source} (noReturn : '\r' ∉ source.text)
    (options : Options) :
    SameSites source (sites source options) (sites source.withReturns options) := by
  have lines := unterminatedFrom_move (returnedPlace source.text) none source.lines
  simp only [SameSites, sites, lines_withReturns noReturn, List.map_map]
  rw [Option.map_none] at lines
  rw [lines, List.map_map]
  rfl

namespace Undeclared

/-- The same names are undeclared, each on its line, and the same are declared afterwards. -/
theorem survey_move {place : Nat → Nat} {lines : List Line}
    (linear : ∀ line ∈ lines, ∀ i ≤ line.code.length,
      place (line.span.start + i) = place line.span.start + i) (declared : List String) :
    (survey declared (lines.map (Line.move place))).1.map (fun w => (w.start, w.text)) =
        (survey declared lines).1.map (fun w => (place w.start, w.text)) ∧
      (survey declared (lines.map (Line.move place))).2 = (survey declared lines).2 := by
  induction lines generalizing declared with
  | nil => exact ⟨rfl, rfl⟩
  | cons line rest ih =>
    obtain ⟨here, others⟩ := List.forall_mem_cons.mp linear
    have sameLine : (line.move place).isComment = line.isComment := rfl
    rw [List.map_cons, survey, survey, sameLine]
    split
    · exact ih others declared
    · let known := (letNames line.raw).foldl (fun ns n => insertNew n ns) declared
      let turn := firstUses known (uses line.code)
      obtain ⟨words, names⟩ := ih others turn.2
      refine ⟨?_, names⟩
      have found : (turn.1.map (shift (place line.span.start))).map (fun w => (w.start, w.text)) =
          (turn.1.map (shift line.span.start)).map (fun w => (place w.start, w.text)) := by
        rw [List.map_map, List.map_map]
        refine List.map_congr_left fun w used => ?_
        obtain ⟨s, scanned, rfl⟩ := List.mem_map.mp ((firstUses_sublist _ _).subset used)
        have inLine := (fits_of_mem_scanSites (List.mem_of_mem_filter scanned)).start_le
        simp only [Function.comp, shift, here _ inLine]
      have both := congrArg₂ (· ++ ·) found words
      simp only [← List.map_append] at both
      exact both

end Undeclared

/-! ### Headers and their bodies -/

/-- A visible character has its successor right behind it. -/
theorem Aligned.place_succ {place : Nat → Nat} {offset : Nat} {t u : List Char}
    (aligned : Aligned place offset t u) {c : Char} (visible : isBlank c = false)
    (head : t.head? = some c) : place (offset + 1) = place offset + 1 := by
  cases aligned with
  | nil => cases head
  | char d next later => exact next
  | newline blank sameLine next later =>
    obtain rfl := Option.some.inj head
    rw [isBlank_newline] at visible
    cases visible

namespace Constructs

/-- A header at another place. -/
def Header.move (place : Nat → Nat) (h : Header) : Header :=
  ⟨place h.start, place h.stop, h.label⟩

theorem statement?_of_alike {place : Nat → Nat} {s s' : WordSite}
    (alike : WordSite.Alike place s s') :
    statement? s' = (statement? s).map (Header.move place) := by
  have marker : isBlank '$' = false := by decide
  have text : s'.word.text = s.word.text := by
    rw [alike.word]
    rfl
  have marked (h : (s.after.head? == some '$') = true) :
      s'.word.stop + 1 = place (s.word.stop + 1) := by
    rw [alike.after.place_succ marker (by simpa using h), alike.word]
    rfl
  simp only [statement?, alike.after.head?_beq marker, text]
  split
  · rename_i keyword
    rw [marked (Bool.and_eq_true_iff.mp keyword).2, alike.word]
    rfl
  · split
    · by_cases h : (s.after.head? == some '$') = true
      · rw [if_pos h, marked h, alike.word, if_pos h]
        rfl
      · rw [if_neg h, alike.word, if_neg h]
        rfl
    · rfl

theorem statements_withReturns (source : Source) : statements source.withReturns.code =
    (statements source.code).map (Header.move (returnedPlace source.text)) :=
  source.aligned_code.filterMap_scanSites rfl fun _ _ alike => statement?_of_alike alike

theorem functions_withReturns (source : Source) : functions source.withReturns.code =
    (functions source.code).map (Header.move (returnedPlace source.text)) := by
  have found := (alignedPattern_funcHeader _).map_findAll (strictMono_returnedPlace source.text)
    source.aligned_code rfl true
  have headers := congrArg (List.map fun m : Nat × Nat × String × List String =>
    (⟨m.1, m.2.1, m.2.2.1⟩ : Header)) found
  rw [List.map_map, List.map_map] at headers
  rw [functions, functions, List.map_map]
  exact headers

theorem classes_withReturns (source : Source) : classes source.withReturns.code =
    (classes source.code).map (Header.move (returnedPlace source.text)) := by
  have found := (alignedPattern_classHeader _).map_findAll (strictMono_returnedPlace source.text)
    source.aligned_code rfl true
  have headers := congrArg (List.map fun m : Nat × Nat × String =>
    (⟨m.1, m.2.1, m.2.2⟩ : Header)) found
  rw [List.map_map, List.map_map] at headers
  rw [classes, classes, List.map_map]
  exact headers

/-- A body follows a header or not, whatever the lines end with. -/
theorem hasBody_withReturns {source : Source} (noReturn : '\r' ∉ source.text) (lookahead : Nat)
    {stop : Nat} (h : stop ≤ source.length) :
    hasBody source.withReturns.index source.withReturns.lines lookahead
        (returnedPlace source.text stop) =
      hasBody source.index source.lines lookahead stop := by
  rw [hasBody, hasBody, position_withReturns noReturn h, lines_withReturns noReturn,
    ← List.map_drop]
  cases below : source.lines.drop (source.index.position stop).line with
  | nil => rfl
  | cons line rest =>
    have found : source.lines[(source.index.position stop).line]? = some line := by
      rw [← List.head?_drop, below]
      rfl
    have member := List.mem_of_getElem? found
    have number := Source.number_of_getElem?_lines found
    rw [position_line_eq_lineAt, Int.toNat_natCast] at number
    have start := returnedPlace_of_mem_lines member (Nat.le_refl _)
      (Source.stands_of_mem_lines member).start_le
    -- The header's end and the line's start move by the same, the number of the line.
    have distance : returnedPlace source.text stop - returnedPlace source.text line.span.start =
        stop - line.span.start := by
      rw [start, returnedPlace, number]
      omega
    have opens : opensAfter (line.move (returnedPlace source.text))
        (returnedPlace source.text stop) = opensAfter line stop := by
      rw [opensAfter, opensAfter, Line.move, distance]
    simp only [List.map_cons, opens, ← List.map_take, List.any_map]
    rfl

theorem sameSites_headers {source : Source} (noReturn : '\r' ∉ source.text) (lookahead : Nat)
    {headers headers' : List Header}
    (moved : headers' = headers.map (Header.move (returnedPlace source.text)))
    (inText : ∀ h ∈ headers, h.stop ≤ source.length) {site : Header → Site}
    (movedSite : ∀ place h, Site.moved id (site (h.move place)) = Site.moved place (site h)) :
    SameSites source
      ((headers.filter fun h => !hasBody source.index source.lines lookahead h.stop).map site)
      ((headers'.filter fun h => !hasBody source.withReturns.index source.withReturns.lines
        lookahead h.stop).map site) := by
  have incomplete : headers.filter ((fun h => !hasBody source.withReturns.index
      source.withReturns.lines lookahead h.stop) ∘ Header.move (returnedPlace source.text)) =
        headers.filter fun h => !hasBody source.index source.lines lookahead h.stop := by
    refine List.filter_congr fun h member => ?_
    exact congrArg (!·) (hasBody_withReturns noReturn lookahead (inText h member))
  rw [SameSites, moved, List.filter_map, incomplete, List.map_map, List.map_map, List.map_map]
  exact List.map_congr_left fun h _ => movedSite _ h

theorem sameSites {source : Source} (noReturn : '\r' ∉ source.text) (options : Options) :
    SameSites source (sites source options) (sites source.withReturns options) := by
  refine SameSites.append (SameSites.append ?_ ?_) ?_
  · exact sameSites_headers noReturn _ (statements_withReturns source)
      (fun h member => (shows_of_mem_statements member).2.1) fun _ _ => rfl
  · exact sameSites_headers noReturn _ (functions_withReturns source)
      (fun h member => (shows_of_mem_functions member).2.1) fun _ _ => rfl
  · exact sameSites_headers noReturn _ (classes_withReturns source)
      (fun h member => (shows_of_mem_classes member).2.1) fun _ _ => rfl

end Constructs

end LexLint
