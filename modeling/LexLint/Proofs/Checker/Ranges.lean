import LexLint.Proofs.Checker.CodeView
import LexLint.Proofs.Run.Turns
import LexLint.Proofs.Scan.Angles
import LexLint.Proofs.Scan.Marks
import LexLint.Proofs.Scan.Occurrence

/-!
# Findings point at what they talk about

Offsets are found in the code view, in lines of it, by patterns or by scans, and are used in the
text. Each finding's range lies in the text as the checker gave it, and what stands there is what
the message says (`Points`, `findings_point_at_their_subject`).
-/

namespace LexLint

/-- The range is a whole word of the text, and the message speaks about it. -/
def ShowsWord (text : List Char) (span : Span) (message : String) (about : String → String) :
    Prop :=
  ∃ word : String, slice text span = word.toList ∧ Isolated text span ∧ message = about word

/-- The range is in angle brackets on one line. -/
def ShowsAngles (text : List Char) (span : Span) : Prop :=
  (slice text span).head? = some '<' ∧ (slice text span).getLast? = some '>' ∧
    '\n' ∉ slice text span

/-- What the range of a finding shows in the text, by its code and message. -/
def Points (text : List Char) (span : Span) (message : String) : Code → Prop
  | .mismatchedBracket => ∃ found expected : Bracket, slice text span = [found.closer] ∧
      message = s!"Mismatched bracket: found '{found.closer}' but expected '{expected.closer}'"
  | .unexpectedBracket => ∃ found : Bracket, slice text span = [found.closer] ∧
      message = s!"Unexpected closing bracket '{found.closer}' with nothing open"
  | .unclosedBracket => ∃ opened : Bracket, slice text span = [opened.opener] ∧
      message = s!"Unclosed '{opened.opener}': missing '{opened.closer}'"
  | .missingKeywordSuffix => ShowsWord text span message fun word =>
      s!"Keyword '{word}' should be followed by $ (use '{word}$')"
  | .missingBuiltinPrefix => ShowsWord text span message fun word =>
      s!"Built-in function '{word}' should be prefixed with :: (use '::{word}')"
  | .undefinedVariable => ShowsWord text span message fun word =>
      s!"Variable '{word}' is used but not defined"
  | .unclosedString => (slice text span).head? = some '"' ∧ '\n' ∉ slice text span ∧
      (span.stop = text.length ∨ text[span.stop]? = some '\n')
  | .emptyDataType => ShowsAngles text span
  | .malformedDataType => ShowsAngles text span
  | .invalidDataType => ShowsAngles text span
  | .missingDictBrace => slice text span = "dict".toList
  | .unclosedDict => "dict".toList <+: slice text span ∧
      (slice text span).getLast? = some '\x7b'
  | .incompleteStatement => ∃ label : String,
      (slice text span = label.toList ∨ slice text span = label.toList ++ ['$']) ∧
      message = s!"Incomplete {label} statement. Missing \x7b \x7d body"
  | .incompleteFunction => ∃ name : String, "func$".toList <+: slice text span ∧
      name.toList <:+: slice text span ∧ (slice text span).getLast? = some ')' ∧
      message = s!"Incomplete function definition for '{name}'. Missing \x7b \x7d body"
  | .incompleteClass => ∃ name : String, "class$".toList <+: slice text span ∧
      name.toList <:+ slice text span ∧
      message = s!"Incomplete class definition for '{name}'. Missing \x7b \x7d body"
  | .missingSemicolon => span.start = span.stop ∧ EndsLine text span.stop
  | .checkerInternalError => False

/-- A site with one of the given codes, whose range lies in the text and shows what it should. -/
def Site.Apt (text : List Char) (codes : List Code) (site : Site) : Prop :=
  ∃ code ∈ codes, ∃ message span, site = .at code message span.start span.stop ∧
    span.start ≤ span.stop ∧ span.stop ≤ text.length ∧ Points text span message code

theorem Bracket.visible (b : Bracket) : b.opener ≠ ' ' ∧ b.closer ≠ ' ' := by
  cases b <;> decide

theorem Brackets.apt_sites (source : Source) (options : Options) :
    ∀ site ∈ sites source options,
      site.Apt source.text [.mismatchedBracket, .unexpectedBracket, .unclosedBracket] := by
  intro site member
  obtain ⟨⟨fault, offset⟩, scanned, rfl⟩ := List.mem_map.mp member
  have inView := getElem?_of_mem_scanBrackets scanned
  have visible : (BracketEvent.mk fault offset).char ≠ ' ' := by
    cases fault with
    | mismatch found expected => exact found.visible.2
    | unexpected found => exact found.visible.2
    | unclosed opened => exact opened.visible.1
  have stands : source.text[offset]? = some (BracketEvent.mk fault offset).char := by
    split at inView
    · exact getElem?_text_of_codeView inView visible
    · exact inView
  have fits := (List.getElem?_eq_some_iff.mp stands).1
  have shows := slice_one stands
  cases fault with
  | mismatch found expected =>
    exact ⟨.mismatchedBracket, by simp, _, ⟨offset, offset + 1⟩, rfl, Nat.le_succ _, fits,
      found, expected, shows, rfl⟩
  | unexpected found =>
    exact ⟨.unexpectedBracket, by simp, _, ⟨offset, offset + 1⟩, rfl, Nat.le_succ _, fits,
      found, shows, rfl⟩
  | unclosed opened =>
    exact ⟨.unclosedBracket, by simp, _, ⟨offset, offset + 1⟩, rfl, Nat.le_succ _, fits,
      opened, shows, rfl⟩

/-- A word of the code view may be reported as what it is in the text. -/
theorem WordAt.apt {text : List Char} {w : Word} (h : WordAt (codeView text) w) (code : Code)
    {about : String → String}
    (points : ∀ span message, ShowsWord text span message about → Points text span message code) :
    Site.Apt text [code] (.at code (about w.text) w.start w.stop) := by
  have inText := h.of_codeView
  exact ⟨code, List.mem_singleton_self code, _, ⟨w.start, w.stop⟩, rfl, Nat.le_of_lt h.start_lt,
    inText.stop_le, points _ _ ⟨w.text, inText.slice_eq, inText.isolated, rfl⟩⟩

theorem KeywordSuffix.apt_sites (source : Source) (options : Options) :
    ∀ site ∈ sites source options, site.Apt source.text [.missingKeywordSuffix] := by
  intro site member
  obtain ⟨w, found, rfl⟩ := List.mem_map.mp member
  obtain ⟨s, scanned, rfl⟩ := List.mem_map.mp found
  have word := (fits_of_mem_scanSites (List.mem_of_mem_filter scanned)).wordAt
  exact (word.apt .missingKeywordSuffix fun _ _ shows => shows :)

theorem Strings.apt_sites (source : Source) (options : Options) :
    ∀ site ∈ sites source options, site.Apt source.text [.unclosedString] := by
  intro site member
  obtain ⟨span, found, rfl⟩ := List.mem_map.mp member
  have unclosed := (mem_scanUnclosedStrings source.text span).mp found
  have isOpen := unclosed.isOpen
  refine ⟨.unclosedString, by simp, _, span, rfl, Nat.le_of_lt isOpen.lt, unclosed.stop_le, ?_, ?_,
    unclosed.lineEnd.symm⟩
  · rw [head?_slice isOpen.lt, isOpen.quote]
  · intro newline
    obtain ⟨i, lo, hi, char⟩ := mem_slice newline
    have := isOpen.lt_start_of_newline char hi
    omega

namespace BuiltinCalls

theorem head?_of_startsCall {before : List Char} (h : startsCall before = true) :
    before.head?.any isWordChar = false := by
  unfold startsCall at h
  split at h
  · cases h
  · simp only [Bool.not_eq_true', Bool.or_eq_false_iff] at h
    exact h.1
  · rfl

/-- A bare call is a whole word of its line. -/
theorem wordAt_of_mem_bareOffsetsFrom {name before rest : List Char} {offset o : Nat}
    (h : o ∈ bareOffsetsFrom name offset before rest) (place : offset = before.length)
    (identifier : isIdentifier name = true) :
    WordAt (before.reverse ++ rest) ⟨o, o + name.length, String.ofList name⟩ := by
  induction rest generalizing offset before with
  | nil => cases h
  | cons c rest ih =>
    have next (later : o ∈ bareOffsetsFrom name (offset + 1) (c :: before) rest) :
        WordAt (before.reverse ++ c :: rest) ⟨o, o + name.length, String.ofList name⟩ := by
      have found := ih later (by simp [place])
      simpa using found
    simp only [bareOffsetsFrom] at h
    split at h
    · rename_i after literal
      split at h
      · rename_i bare
        rcases List.mem_cons.mp h with rfl | later
        · simp only [isBareCall, Bool.and_eq_true, Bool.not_eq_true'] at bare
          have placed := WordAt.of_split before.reverse after identifier
            (by rw [List.getLast?_reverse]; exact head?_of_startsCall bare.1.2) bare.1.1
          rw [afterLiteral?_eq_some.mp literal, place]
          simpa using placed
        · exact next later
      · exact next h
    · exact next h

theorem apt_sites (source : Source) (options : Options) :
    ∀ site ∈ sites source options, site.Apt source.text [.missingBuiltinPrefix] := by
  intro site member
  obtain ⟨w, found, rfl⟩ := List.mem_map.mp member
  rw [bareCalls, List.mem_mergeSort, List.mem_flatMap] at found
  obtain ⟨line, inLines, found⟩ := found
  obtain ⟨name, builtin, called⟩ := List.mem_flatMap.mp found
  obtain ⟨offset, bare, rfl⟩ := List.mem_map.mp called
  have inLine := wordAt_of_mem_bareOffsetsFrom bare rfl (isIdentifier_of_mem builtin)
  have stands := Source.stands_of_mem_lines (List.mem_of_mem_filter inLines)
  have word := inLine.of_line stands
  simp only [Undeclared.shift, String.ofList_toList, ← Nat.add_assoc] at word
  exact (word.apt .missingBuiltinPrefix fun _ _ shows => shows :)

end BuiltinCalls

namespace Undeclared

theorem firstUses_sublist (declared : List String) (words : List Word) :
    (firstUses declared words).1.Sublist words := by
  induction words generalizing declared with
  | nil => exact List.Sublist.refl _
  | cons w rest ih =>
    unfold firstUses
    split
    · exact (ih declared).cons w
    · exact (ih _).cons_cons w

/-- An undeclared name is a use in some line. -/
theorem exists_use_of_mem_survey {declared : List String} {lines : List Line} {w : Word}
    (h : w ∈ (survey declared lines).1) :
    ∃ line ∈ lines, ∃ u ∈ uses line.code, w = shift line.span.start u := by
  induction lines generalizing declared with
  | nil => cases h
  | cons line rest ih =>
    have next {known : List String} (later : w ∈ (survey known rest).1) :
        ∃ l ∈ line :: rest, ∃ u ∈ uses l.code, w = shift l.span.start u := by
      obtain ⟨l, member, found⟩ := ih later
      exact ⟨l, List.mem_cons_of_mem line member, found⟩
    unfold survey at h
    split at h
    · exact next h
    · rcases List.mem_append.mp h with here | later
      · obtain ⟨u, used, rfl⟩ := List.mem_map.mp here
        exact ⟨line, List.mem_cons_self, u, (firstUses_sublist _ _).subset used, rfl⟩
      · exact next later

/-- An undeclared name is a word of some line. -/
theorem exists_line_of_mem_survey {declared : List String} {lines : List Line} {w : Word}
    (h : w ∈ (survey declared lines).1) :
    ∃ line ∈ lines, ∃ s ∈ scanSites line.code, w = shift line.span.start s.word := by
  obtain ⟨line, inLines, u, used, rfl⟩ := exists_use_of_mem_survey h
  obtain ⟨s, scanned, rfl⟩ := List.mem_map.mp used
  exact ⟨line, inLines, s, List.mem_of_mem_filter scanned, rfl⟩

theorem apt_sites (source : Source) (declared : List String) :
    ∀ s ∈ (survey declared source.lines).1.map site,
      s.Apt source.text [.undefinedVariable] := by
  intro s member
  obtain ⟨w, found, rfl⟩ := List.mem_map.mp member
  obtain ⟨line, inLines, s, scanned, rfl⟩ := exists_line_of_mem_survey found
  have inLine := (fits_of_mem_scanSites scanned).wordAt
  have word := inLine.of_line (Source.stands_of_mem_lines inLines)
  exact (word.apt .undefinedVariable fun _ _ shows => shows :)

end Undeclared

/-- A run in angle brackets shows as such in the text. -/
theorem showsAngles_of_mem_scanAngles {text : List Char} {limit : Nat} {run : AngleSpan}
    (h : run ∈ scanAngles limit (codeView text)) :
    run.span.start ≤ run.span.stop ∧ run.span.stop ≤ text.length ∧ ShowsAngles text run.span := by
  obtain ⟨front, back, view, line, place⟩ := split_of_mem_scanAngles h
  obtain ⟨le, fits, shown⟩ := slice_codeView_of_split run.span view
    (by rw [place]) (by
      rw [place, List.length_cons, List.length_append, Nat.add_assoc]
      rfl)
  refine ⟨le, fits, ?_, ?_, ?_⟩
  · obtain ⟨rest, split⟩ := prefix_slice_text
      (show _ = ['<'] ++ (run.inner ++ ['>']) from shown) (by decide)
    rw [← split]
    rfl
  · obtain ⟨rest, split⟩ := suffix_slice_text
      (show _ = '<' :: run.inner ++ ['>'] from shown) (by decide)
    rw [← split, List.getLast?_concat]
  · intro newline
    obtain ⟨i, lo, hi, char⟩ := mem_slice newline
    have inView := getElem?_slice (codeView text) run.span (i - run.span.start)
    rw [if_pos (by omega), Nat.add_sub_cancel' lo, getElem?_codeView_eq_newline.mpr char,
      shown] at inView
    have member := List.mem_of_getElem? inView
    simp [line] at member

/-- What is wrong with what stands between angle brackets. -/
def DataTypes.verdict? (inner : List Char) : Option (Code × String) :=
  let name := trim inner
  let text := String.ofList name
  if name.isEmpty then
    some (.emptyDataType, "Empty data type brackets. Should be " ++ typeList "or")
  else if Vocabulary.compositeTypes.contains text then
    if inner = name then none
    else some (.malformedDataType, s!"Malformed data type. Should be <{text}> without spaces")
  else if inner = name ∧ isIdentifier name then
    some (.invalidDataType, s!"Invalid data type <{text}>. Valid types are " ++ typeList "and")
  else none

/-- Whether a run is reported, and how, is told by what stands in it alone. -/
theorem DataTypes.site?_eq_verdict (run : AngleSpan) :
    site? run = (verdict? run.inner).map fun v => .at v.1 v.2 run.span.start run.span.stop := by
  simp only [site?, verdict?]
  split
  · rfl
  · split
    · split <;> rfl
    · split <;> rfl

theorem DataTypes.apt_sites (source : Source) (options : Options) :
    ∀ site ∈ sites source options,
      site.Apt source.text [.emptyDataType, .malformedDataType, .invalidDataType] := by
  intro site member
  obtain ⟨run, scanned, reported⟩ := List.mem_filterMap.mp member
  obtain ⟨le, fits, shows⟩ := showsAngles_of_mem_scanAngles scanned
  simp only [site?] at reported
  split at reported
  · obtain rfl := Option.some.inj reported
    exact ⟨.emptyDataType, by simp, _, run.span, rfl, le, fits, shows⟩
  · split at reported
    · split at reported
      · cases reported
      · obtain rfl := Option.some.inj reported
        exact ⟨.malformedDataType, by simp, _, run.span, rfl, le, fits, shows⟩
    · split at reported
      · obtain rfl := Option.some.inj reported
        exact ⟨.invalidDataType, by simp, _, run.span, rfl, le, fits, shows⟩
      · cases reported

namespace Dictionaries

/-- What the range of a fault shows in the text. -/
def Fault.Shows (text : List Char) : Fault → Prop
  | .missing span => span.start ≤ span.stop ∧ span.stop ≤ text.length ∧
      slice text span = "dict".toList
  | .unclosed span => span.start ≤ span.stop ∧ span.stop ≤ text.length ∧
      "dict".toList <+: slice text span ∧ (slice text span).getLast? = some '\x7b'

/-- A fault is that of a word `dict`, with what follows it up to the brace if there is one. -/
theorem exists_literal_of_mem_faults {code : List Char} {window : Nat} {fault : Fault}
    (h : fault ∈ faults code window) :
    ∃ s ∈ scanSites code, s.word.text = "dict" ∧
      (fault = .missing ⟨s.word.start, s.word.stop⟩ ∨
        ∃ blanks rest, AllBlank blanks ∧ s.after = blanks ++ '\x7b' :: rest ∧
          fault = .unclosed ⟨s.word.start, s.word.stop + blanks.length + 1⟩) := by
  obtain ⟨s, found, faulty⟩ := List.mem_filterMap.mp h
  obtain ⟨scanned, isDict⟩ := List.mem_filter.mp found
  refine ⟨s, scanned, by simpa using isDict, ?_⟩
  unfold fault? at faulty
  split at faulty
  · exact .inl (Option.some.inj faulty).symm
  · rename_i distance within
    simp only at faulty
    split at faulty
    · cases faulty
    · obtain ⟨blanks, rest, blank, rfl, after⟩ := braceWithin?_eq_some within
      exact .inr ⟨blanks, rest, blank, after, (Option.some.inj faulty).symm⟩

/-- What is reported is a brace that is missing or one that is never closed. -/
theorem exists_span_of_mem_sites {source : Source} {options : Options} {site : Site}
    (h : site ∈ sites source options) :
    ∃ span,
      (.missing span ∈ faults source.code options.lookaheadChars ∧
        missingSite? (.missing span) = some site) ∨
      (.unclosed span ∈ faults source.code options.lookaheadChars ∧
        unclosedSite? (.unclosed span) = some site) := by
  rcases List.mem_append.mp h with missing | unclosed
  · obtain ⟨fault, found, reported⟩ := List.mem_filterMap.mp missing
    cases fault with
    | missing span => exact ⟨span, .inl ⟨found, reported⟩⟩
    | unclosed span => cases reported
  · obtain ⟨fault, found, reported⟩ := List.mem_filterMap.mp unclosed
    cases fault with
    | missing span => cases reported
    | unclosed span => exact ⟨span, .inr ⟨found, reported⟩⟩

theorem shows_of_mem_faults {text : List Char} {window : Nat} {fault : Fault}
    (h : fault ∈ faults (codeView text) window) : fault.Shows text := by
  obtain ⟨s, scanned, dict, rfl | ⟨blanks, rest, -, after, rfl⟩⟩ := exists_literal_of_mem_faults h
  · have word := (fits_of_mem_scanSites scanned).wordAt.of_codeView
    refine ⟨Nat.le_of_lt word.start_lt, word.stop_le, ?_⟩
    rw [word.slice_eq, dict]
  · have fits := fits_of_mem_scanSites scanned
    have view : codeView text =
        s.before.reverse ++ ("dict".toList ++ blanks ++ ['\x7b'] ++ rest) := by
      rw [fits.split, dict, after]
      simp
    obtain ⟨le, inText, shown⟩ := slice_codeView_of_split
      ⟨s.word.start, s.word.stop + blanks.length + 1⟩ view
      (by rw [fits.start, List.length_reverse]) (by
        simp only [fits.stop, dict, List.length_reverse, List.length_append,
          List.length_singleton]
        omega)
    refine ⟨le, inText, ?_, ?_⟩
    · exact prefix_slice_text (by rw [shown, List.append_assoc]) (by decide)
    · obtain ⟨front, split⟩ := suffix_slice_text shown (by decide)
      rw [← split, List.getLast?_concat]

theorem apt_sites (source : Source) (options : Options) :
    ∀ site ∈ sites source options, site.Apt source.text [.missingDictBrace, .unclosedDict] := by
  intro site member
  obtain ⟨span, ⟨found, reported⟩ | ⟨found, reported⟩⟩ := exists_span_of_mem_sites member
  · obtain rfl := Option.some.inj reported
    exact ⟨.missingDictBrace, by simp, _, span, rfl, shows_of_mem_faults found⟩
  · obtain rfl := Option.some.inj reported
    exact ⟨.unclosedDict, by simp, _, span, rfl, shows_of_mem_faults found⟩

end Dictionaries

namespace Constructs

/-- A header lies in the text, and what stands there is as its kind says. -/
def Header.Shows (text : List Char) (h : Header) (kind : List Char → List Char → Prop) : Prop :=
  h.start ≤ h.stop ∧ h.stop ≤ text.length ∧ kind h.label.toList (slice text ⟨h.start, h.stop⟩)

theorem shows_of_mem_statements {text : List Char} {h : Header}
    (member : h ∈ statements (codeView text)) :
    h.Shows text fun label shown => shown = label ∨ shown = label ++ ['$'] := by
  obtain ⟨s, scanned, begun⟩ := List.mem_filterMap.mp member
  have fits := fits_of_mem_scanSites scanned
  have word := fits.wordAt.of_codeView
  have le := Nat.le_of_lt word.start_lt
  -- The marker belongs to the range where it follows the word.
  have withMarker (marked : (s.after.head? == some '$') = true) :
      s.word.stop + 1 ≤ text.length ∧
        slice text ⟨s.word.start, s.word.stop + 1⟩ = s.word.text.toList ++ ['$'] := by
    obtain ⟨rest, after⟩ := List.head?_eq_some_iff.mp (by simpa using marked)
    have view : codeView text = s.before.reverse ++ (s.word.text.toList ++ ['$'] ++ rest) := by
      rw [fits.split, after]
      simp
    obtain ⟨-, inText, shown⟩ := slice_codeView_of_split
      ⟨s.word.start, s.word.stop + 1⟩ view (by rw [fits.start, List.length_reverse]) (by
        simp only [fits.stop, List.length_reverse, List.length_append, List.length_singleton,
          Nat.add_assoc])
    have visible : ' ' ∉ s.word.text.toList ++ ['$'] := by
      rw [List.mem_append, not_or]
      exact ⟨not_mem_of_isIdentifier word.identifier (by decide), by decide⟩
    refine ⟨inText, ?_⟩
    rw [slice_text_of_codeView (by rw [shown]; exact visible), shown]
  simp only [statement?] at begun
  split at begun
  · rename_i keyword
    obtain rfl := Option.some.inj begun
    obtain ⟨fitsText, shown⟩ := withMarker (Bool.and_eq_true_iff.mp keyword).2
    refine ⟨Nat.le_succ_of_le le, fitsText, .inl ?_⟩
    rw [shown, String.toList_append]
    rfl
  · split at begun
    · obtain rfl := Option.some.inj begun
      by_cases marked : (s.after.head? == some '$') = true
      · obtain ⟨fitsText, shown⟩ := withMarker marked
        simp only [if_pos marked]
        exact ⟨Nat.le_succ_of_le le, fitsText, .inr shown⟩
      · simp only [if_neg marked]
        exact ⟨le, word.stop_le, .inl word.slice_eq⟩
    · cases begun

theorem shows_of_mem_functions {text : List Char} {h : Header}
    (member : h ∈ functions (codeView text)) :
    h.Shows text fun label shown => "func$".toList <+: shown ∧ label <:+: shown ∧
      shown.getLast? = some ')' := by
  obtain ⟨m, found, rfl⟩ := List.mem_map.mp member
  obtain ⟨pre, rest, after, view, recognised, first, last⟩ := occurs_of_mem_findAll found
  obtain ⟨blanks, gap, identifier, written⟩ := funcHeader_eq_some recognised
  let header := "func$".toList ++ (blanks ++ (m.value.name.toList ++
    (gap ++ '(' :: (m.value.params ++ [')']))))
  have covered : rest = header ++ after := by
    rw [written]
    simp [header]
  obtain ⟨le, fits, shown⟩ := slice_codeView_of_split ⟨m.start, m.stop⟩
    (covered ▸ view) first (by rw [last, covered, List.length_append, Nat.add_sub_cancel])
  refine ⟨le, fits, prefix_slice_text shown (by decide), ?_, ?_⟩
  · have named : header = "func$".toList ++ blanks ++ (m.value.name.toList ++
        (gap ++ '(' :: (m.value.params ++ [')']))) := (List.append_assoc ..).symm
    obtain ⟨front, back, split, -⟩ := exists_slice_text_of_split (shown.trans named)
      (not_mem_of_isIdentifier identifier (by decide))
    exact ⟨front, back, by rw [split, List.append_assoc]⟩
  · have closed : header = "func$".toList ++ (blanks ++ (m.value.name.toList ++
        (gap ++ '(' :: m.value.params))) ++ [')'] := by
      simp [header]
    obtain ⟨front, split⟩ := suffix_slice_text (shown.trans closed) (by decide)
    rw [← split, List.getLast?_concat]

theorem shows_of_mem_classes {text : List Char} {h : Header}
    (member : h ∈ classes (codeView text)) :
    h.Shows text fun label shown => "class$".toList <+: shown ∧ label <:+ shown := by
  obtain ⟨m, found, rfl⟩ := List.mem_map.mp member
  obtain ⟨pre, rest, after, view, recognised, first, last⟩ := occurs_of_mem_findAll found
  obtain ⟨blanks, identifier, written⟩ := classHeader_eq_some recognised
  have covered : rest = "class$".toList ++ (blanks ++ m.value.toList) ++ after := by
    rw [written]
    simp
  obtain ⟨le, fits, shown⟩ := slice_codeView_of_split ⟨m.start, m.stop⟩
    (covered ▸ view) first (by rw [last, covered, List.length_append, Nat.add_sub_cancel])
  refine ⟨le, fits, prefix_slice_text shown (by decide), ?_⟩
  exact suffix_slice_text (by rw [shown, List.append_assoc])
    (not_mem_of_isIdentifier identifier (by decide))

theorem apt_sites (source : Source) (options : Options) :
    ∀ site ∈ sites source options,
      site.Apt source.text [.incompleteStatement, .incompleteFunction, .incompleteClass] := by
  intro site member
  rcases List.mem_append.mp member with member | member
  · rcases List.mem_append.mp member with member | member
    · obtain ⟨h, found, rfl⟩ := List.mem_map.mp member
      obtain ⟨le, fits, shown⟩ := shows_of_mem_statements (List.mem_of_mem_filter found)
      exact ⟨.incompleteStatement, by simp, _, ⟨h.start, h.stop⟩, rfl, le, fits, h.label, shown,
        rfl⟩
    · obtain ⟨h, found, rfl⟩ := List.mem_map.mp member
      obtain ⟨le, fits, keyword, name, closed⟩ :=
        shows_of_mem_functions (List.mem_of_mem_filter found)
      exact ⟨.incompleteFunction, by simp, _, ⟨h.start, h.stop⟩, rfl, le, fits, h.label, keyword,
        name, closed, rfl⟩
  · obtain ⟨h, found, rfl⟩ := List.mem_map.mp member
    obtain ⟨le, fits, keyword, name⟩ := shows_of_mem_classes (List.mem_of_mem_filter found)
    exact ⟨.incompleteClass, by simp, _, ⟨h.start, h.stop⟩, rfl, le, fits, h.label, keyword,
      name, rfl⟩

end Constructs

namespace Terminators

theorem unterminatedFrom_sublist (above : Option Line) (lines : List Line) :
    (unterminatedFrom above lines).Sublist lines := by
  induction lines generalizing above with
  | nil => exact List.Sublist.refl _
  | cons line rest ih =>
    unfold unterminatedFrom
    split
    · exact (ih _).cons_cons line
    · exact (ih _).cons line

theorem apt_sites (source : Source) (options : Options) :
    ∀ site ∈ sites source options, site.Apt source.text [.missingSemicolon] := by
  intro site member
  obtain ⟨line, found, rfl⟩ := List.mem_map.mp member
  have stands := Source.stands_of_mem_lines ((unterminatedFrom_sublist none _).subset found)
  exact ⟨.missingSemicolon, by simp, _, ⟨line.span.stop, line.span.stop⟩, rfl, Nat.le_refl _,
    stands.stop_le, rfl, stands.ends⟩

end Terminators

/-- All that a checker of the language comes to points at its subject. -/
theorem exists_apt_of_builtin {checker : Checker} (h : checker ∈ Registry.builtinCheckers)
    (context : Context) (declared : List String) :
    ∃ codes sites known, checker.codes = codes.map Code.text ∧
      (checker.diagnosis context).outcome declared = (.ok sites, known) ∧
      ∀ site ∈ sites, site.Apt context.source.text codes := by
  obtain ⟨source, options⟩ := context
  simp only [Registry.builtinCheckers, List.mem_cons, List.not_mem_nil, or_false] at h
  rcases h with rfl | rfl | rfl | rfl | rfl | rfl | rfl | rfl | rfl
  · exact ⟨_, _, _, rfl, rfl, Brackets.apt_sites source options⟩
  · exact ⟨_, _, _, rfl, rfl, KeywordSuffix.apt_sites source options⟩
  · exact ⟨_, _, _, rfl, rfl, Strings.apt_sites source options⟩
  · exact ⟨_, _, _, rfl, rfl, BuiltinCalls.apt_sites source options⟩
  · exact ⟨[.undefinedVariable], _, _, rfl, Undeclared.outcome_diagnosis _ declared,
      Undeclared.apt_sites source _⟩
  · exact ⟨_, _, _, rfl, rfl, DataTypes.apt_sites source options⟩
  · exact ⟨_, _, _, rfl, rfl, Dictionaries.apt_sites source options⟩
  · exact ⟨_, _, _, rfl, rfl, Constructs.apt_sites source options⟩
  · exact ⟨_, _, _, rfl, rfl, Terminators.apt_sites source options⟩

/-- A finding of a checker whose range lies in the text and shows what the message says. -/
def Finding.PointsAt (text : List Char) (checker : Checker) (f : Finding) : Prop :=
  f.checker = checker.name ∧ f.severity = checker.severity ∧ f.code ∈ checker.codes ∧
    ∃ code span, f.code = Code.text code ∧ f.start = span.start ∧ f.stop = span.stop ∧
      span.start ≤ span.stop ∧ span.stop ≤ text.length ∧ Points text span f.message code

/-- The range of a site is the range of its finding, none of it moved. -/
theorem Site.Apt.finding {text : List Char} {codes : List Code} {site : Site}
    (h : site.Apt text codes) {checker : Checker} (codesOf : checker.codes = codes.map Code.text) :
    (checker.finding text.length site).PointsAt text checker ∧
      (checker.finding text.length site).start = site.start ∧
      (checker.finding text.length site).stop = site.stop := by
  obtain ⟨code, member, message, span, rfl, le, fits, points⟩ := h
  have start : max 0 (min (span.start : Int) text.length) = span.start := by omega
  have stop : max (span.start : Int) (min (span.stop : Int) text.length) = span.stop := by omega
  have clamped : checker.finding text.length (.at code message span.start span.stop) =
      ⟨span.start, span.stop, message, checker.severity, code.text, checker.name⟩ := by
    simp only [Checker.finding, Site.at, start, stop]
    rfl
  rw [clamped]
  refine ⟨⟨rfl, rfl, ?_, code, span, rfl, rfl, rfl, le, fits, points⟩, rfl, rfl⟩
  rw [codesOf]
  exact List.mem_map_of_mem member

/-- The finding for a site whose range lies in the text. -/
def Checker.placed (checker : Checker) (site : Site) : Finding :=
  { start := site.start
    stop := site.stop
    message := site.message
    severity := site.severity.getD checker.severity
    code := site.code
    checker := checker.name }

theorem Site.Apt.finding_eq_placed {text : List Char} {codes : List Code} {site : Site}
    (h : site.Apt text codes) (checker : Checker) :
    checker.finding text.length site = checker.placed site := by
  obtain ⟨code, -, message, span, rfl, le, fits, -⟩ := h
  have start : max 0 (min (span.start : Int) text.length) = span.start := by omega
  have stop : max (span.start : Int) (min (span.stop : Int) text.length) = span.stop := by omega
  simp only [Checker.finding, Checker.placed, Site.at, start, stop]

/-- A checker given by its sites emits them where they are. -/
theorem Checker.outcome_emit_placed {name title description : String} {codes : List Code}
    {sites : Source → Options → List Site} {source : Source} {options : Options}
    (apt : ∀ site ∈ sites source options, site.Apt source.text codes) (declared : List String) :
    let checker := ofSites name title description codes sites
    (checker.emit ⟨source, options⟩).outcome declared =
      (.ok ((sites source options).map checker.placed), declared) := by
  intro checker
  have placed : (sites source options).map (checker.finding source.length) =
      (sites source options).map checker.placed :=
    List.map_congr_left fun site hs => (apt site hs).finding_eq_placed checker
  rw [outcome_emit_ofSites, ← placed]

theorem Finding.PointsAt.not_internal {text : List Char} {checker : Checker} {f : Finding}
    (h : f.PointsAt text checker) : f.code ≠ Code.checkerInternalError.text := by
  obtain ⟨-, -, -, code, span, sameCode, -, -, -, -, points⟩ := h
  intro internal
  rw [Code.text_injective (sameCode.symm.trans internal)] at points
  exact points

/-- What the checkers of the language report, at whatever turn, points at its subject. -/
theorem pointsAt_of_mem_takeTurns {checkers : List Checker}
    (h : ∀ c ∈ checkers, c ∈ Registry.builtinCheckers) {context : Context} {rules : Suppressions}
    {declared : List String} {turn : String × List Finding}
    (member : turn ∈ takeTurns context rules declared checkers) {f : Finding}
    (found : f ∈ turn.2) :
    ∃ checker ∈ checkers, f.PointsAt context.source.text checker := by
  obtain ⟨checker, among, known, rfl⟩ := exists_report_of_mem_takeTurns member
  obtain ⟨codes, sites, after, codesOf, diagnosed, apt⟩ :=
    exists_apt_of_builtin (h checker among) context known
  simp only [Checker.report_eq, Checker.outcome_emit, diagnosed] at found
  obtain ⟨site, inSites, rfl⟩ := List.mem_map.mp (List.mem_of_mem_filter found)
  exact ⟨checker, among, ((apt site inSites).finding codesOf).1⟩

/-- **Every finding points at what it talks about.** The checkers of the language do not fail.
What they report carries one of their codes and their severity, and its range, which lies in the
text as they gave it, shows in the text what the message says. -/
theorem findings_point_at_their_subject (runner : Runner)
    (registered : runner.registry.HasBuiltins) (source : Source) {names : List String}
    (known : ∀ name ∈ names, name ∈ Registry.builtin.names) :
    (∃ result, runner.run source (some names) = .ok result ∧
      ∀ f ∈ result.findings, f.code ≠ Code.checkerInternalError.text ∧
        ∃ checker ∈ Registry.builtinCheckers, checker.name ∈ names ∧
          f.PointsAt source.text checker) ∧
    ∀ checker ∈ Registry.builtinCheckers, ∀ options declared, ∃ sites after,
      (checker.diagnosis ⟨source, options⟩).outcome declared = (.ok sites, after) ∧
      (checker.emit ⟨source, options⟩).outcome declared =
        (.ok (sites.map (checker.finding source.length)), after) ∧
      ∀ site ∈ sites, (checker.finding source.length site).start = site.start ∧
        (checker.finding source.length site).stop = site.stop := by
  obtain ⟨checkers, rfl, builtins⟩ := Registry.exists_builtin_of_names known
  have found : ∀ c ∈ checkers, runner.registry.get? c.name = some c :=
    fun c hc => registered c (builtins c hc)
  refine ⟨⟨_, runner.run_map_name found source, fun f hf => ?_⟩, ?_⟩
  · obtain ⟨turn, member, inTurn⟩ := List.mem_flatMap.mp hf
    obtain ⟨checker, inRun, points⟩ := pointsAt_of_mem_takeTurns builtins member inTurn
    exact ⟨points.not_internal, checker, builtins checker inRun, List.mem_map_of_mem inRun, points⟩
  · intro checker builtin options declared
    obtain ⟨codes, sites, after, codesOf, diagnosed, apt⟩ :=
      exists_apt_of_builtin builtin ⟨source, options⟩ declared
    refine ⟨sites, after, diagnosed, ?_, fun site hs => ((apt site hs).finding codesOf).2⟩
    rw [Checker.outcome_emit, diagnosed]

/-- A name right after a string, and a bracket behind a letter that is no ASCII letter. -/
theorem findings_point_at_their_subject_after_string :
    let source : Source := .ofString "a" "\"if (\"x # y\r\né]"
    let names := ["undeclared", "brackets", "undeclared"]
    Registry.builtin.HasBuiltins ∧ (∀ name ∈ names, name ∈ Registry.builtin.names) ∧
      ∃ result, ({} : Runner).run source (some names) = .ok result ∧
        result.findings.map (fun f => (f.code, f.start, f.stop)) =
          [("undefinedVariable", 6, 7), ("unexpectedBracket", 14, 15)] ∧
        ∀ f ∈ result.findings, ∃ checker ∈ Registry.builtinCheckers,
          f.PointsAt source.text checker := by
  intro source names
  have known : ∀ name ∈ names, name ∈ Registry.builtin.names := by decide
  obtain ⟨⟨result, runs, points⟩, -⟩ :=
    findings_point_at_their_subject {} Registry.hasBuiltins_builtin source known
  have ran : result = ({} : Runner).runCheckers source
      [Undeclared.checker, Brackets.checker, Undeclared.checker] :=
    Except.ok.inj (runs.symm.trans rfl)
  refine ⟨Registry.hasBuiltins_builtin, known, result, runs, ?_, fun f hf => ?_⟩
  · rw [ran]
    decide +kernel
  · obtain ⟨-, checker, builtin, -, pointsAt⟩ := points f hf
    exact ⟨checker, builtin, pointsAt⟩

end LexLint
