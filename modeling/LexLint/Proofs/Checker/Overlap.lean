import LexLint.Proofs.Checker.BuiltinWords
import LexLint.Proofs.Checker.Ranges
import LexLint.Proofs.View.Insertion

/-!
# Undeclared names and the other findings

A name that is reported as undeclared is a word of the code view that the vocabulary does not know
and that does not stand alone in angle brackets (`FreeWord`). The other findings are about words of
the vocabulary, about single marks, about what a string hides or about what angle brackets hold, so
that none of them touches such a name (`undefined_names_stand_apart`). Only the header of a function
or of a class may hold one.
-/

namespace LexLint

namespace Vocabulary

/-! The names of keywords, types and builtins are reserved. -/

theorem keywordNames_subset : keywords.map (·.name) ⊆ reservedWords := by
  unfold reservedWords all
  simp only [List.append_assoc]
  exact List.map_subset _ (List.subset_append_left _ _)

theorem markedKeywords_subset : markedKeywords ⊆ keywords.map (·.name) :=
  List.map_subset _ (List.filter_subset_self _)

theorem typeNames_subset : types.map (·.name) ⊆ reservedWords :=
  List.map_subset _ fun _ h => List.mem_append_left _ (List.mem_append_right _ h)

theorem builtinNames_subset : builtinNames ⊆ reservedWords :=
  List.map_subset _ (List.subset_append_right _ _)

end Vocabulary

/-- A range has no character in common with a word. -/
def Span.Avoids (span : Span) (w : Word) : Prop :=
  ∀ i, span.start ≤ i → i < span.stop → ¬ (w.start ≤ i ∧ i < w.stop)

/-- A word that may be the name of a variable: the vocabulary does not know it, and it does not
stand alone in angle brackets. -/
structure FreeWord (code : List Char) (w : Word) : Prop where
  wordAt : WordAt code w
  unknown : w.text ∉ Vocabulary.reservedWords
  noType : ¬ (0 < w.start ∧ code[w.start - 1]? = some '<' ∧ code[w.stop]? = some '>')

namespace WordAt

variable {text : List Char} {w : Word}

/-- A word has no character in a range in which no word character stands. -/
theorem avoided (h : WordAt text w) {span : Span}
    (other : ∀ c ∈ slice text span, isWordChar c = false) : span.Avoids w := by
  intro i lo hi inside
  obtain ⟨c, stands, word⟩ :=
    (Option.any_eq_true ..).mp (h.isWordChar_at inside.1 inside.2)
  have member : c ∈ slice text span := by
    apply List.mem_of_getElem? (i := i - span.start)
    rw [getElem?_slice, if_pos (by omega), Nat.add_sub_cancel' lo, stands]
  rw [other c member] at word
  cases word

/-- The middle of three parts, if no word character stands in it. -/
theorem avoided_middle (h : WordAt text w) {pre mid post : List Char}
    (split : text = pre ++ (mid ++ post)) (other : ∀ c ∈ mid, isWordChar c = false) :
    Span.Avoids ⟨pre.length, pre.length + mid.length⟩ w := by
  apply h.avoided
  rw [split, slice_middle]
  exact other

end WordAt

namespace FreeWord

variable {code : List Char} {w : Word}

/-- A range that begins with a word of the vocabulary and goes on without another word. -/
theorem avoided_site (h : FreeWord code w) {s : WordSite} (scanned : s ∈ scanSites code)
    (reserved : s.word.text ∈ Vocabulary.reservedWords) (tail : List Char) {rest : List Char}
    (after : s.after = tail ++ rest) (other : ∀ c ∈ tail, isWordChar c = false) :
    Span.Avoids ⟨s.word.start, s.word.stop + tail.length⟩ w := by
  have fits := fits_of_mem_scanSites scanned
  intro i lo hi inside
  by_cases inTail : s.word.stop ≤ i
  · have split : code = (s.before.reverse ++ s.word.text.toList) ++ (tail ++ rest) := by
      rw [← after, List.append_assoc, ← fits.split]
    have place : (s.before.reverse ++ s.word.text.toList).length = s.word.stop := by
      rw [List.length_append, List.length_reverse, ← fits.stop]
    have avoided := h.wordAt.avoided_middle split other
    rw [place] at avoided
    exact avoided i inTail hi inside
  · have same := fits.wordAt.eq_of_meets h.wordAt ⟨lo, Nat.lt_of_not_le inTail⟩ inside
    apply h.unknown
    rw [← same]
    exact reserved

/-- A range that is a word of the vocabulary. -/
theorem avoided_word (h : FreeWord code w) {s : WordSite} (scanned : s ∈ scanSites code)
    (reserved : s.word.text ∈ Vocabulary.reservedWords) :
    Span.Avoids ⟨s.word.start, s.word.stop⟩ w :=
  h.avoided_site scanned reserved [] rfl (by simp)

end FreeWord

/-- What the range of a finding has to do with names of variables: it is one, or it is a header,
which may hold some, or it avoids them all. -/
def TouchesNames (code : List Char) (span : Span) : Code → Prop
  | .undefinedVariable => ∃ w, FreeWord code w ∧ span = ⟨w.start, w.stop⟩
  | .incompleteFunction => True
  | .incompleteClass => True
  | _ => ∀ w, FreeWord code w → span.Avoids w

/-- A site whose range touches names as its code allows. -/
def Site.Tidy (code : List Char) (site : Site) : Prop :=
  ∃ c message span, site = .at c message span.start span.stop ∧ TouchesNames code span c

namespace Brackets

theorem isWordChar_brackets (b : Bracket) :
    isWordChar b.opener = false ∧ isWordChar b.closer = false := by
  cases b <;> decide

/-- A bracket is no part of a word, in whichever view brackets are matched. -/
theorem tidy_sites (source : Source) (options : Options) :
    ∀ site ∈ sites source options, site.Tidy source.code := by
  intro site member
  obtain ⟨code, inCodes, message, span, rfl, -, -, points⟩ := apt_sites source options site member
  refine ⟨code, message, span, rfl, ?_⟩
  have single {b : Char} (shown : slice source.text span = [b]) (other : isWordChar b = false) :
      ∀ w, FreeWord source.code w → span.Avoids w := by
    intro w free
    apply free.wordAt.of_codeView.avoided
    rw [shown]
    exact List.forall_mem_singleton.mpr other
  simp only [List.mem_cons, List.not_mem_nil, or_false] at inCodes
  rcases inCodes with rfl | rfl | rfl
  · obtain ⟨found, expected, shown, -⟩ := points
    exact single shown (isWordChar_brackets found).2
  · obtain ⟨found, shown, -⟩ := points
    exact single shown (isWordChar_brackets found).2
  · obtain ⟨opened, shown, -⟩ := points
    exact single shown (isWordChar_brackets opened).1

end Brackets

theorem KeywordSuffix.tidy_sites (source : Source) (options : Options) :
    ∀ site ∈ sites source options, site.Tidy source.code := by
  intro site member
  obtain ⟨w, found, rfl⟩ := List.mem_map.mp member
  obtain ⟨s, scanned, rfl⟩ := List.mem_map.mp found
  obtain ⟨scanned, bare⟩ := List.mem_filter.mp scanned
  have keyword := (Bool.and_eq_true_iff.mp bare).1
  refine ⟨.missingKeywordSuffix, _, ⟨s.word.start, s.word.stop⟩, rfl, ?_⟩
  intro w free
  exact free.avoided_word scanned
    (Vocabulary.keywordNames_subset (Vocabulary.markedKeywords_subset
      (List.contains_iff_mem.mp keyword)))

theorem BuiltinCalls.tidy_sites (source : Source) (options : Options) :
    ∀ site ∈ sites source options, site.Tidy source.code := by
  intro site member
  obtain ⟨w, found, rfl⟩ := List.mem_map.mp member
  rw [bareCalls_eq_words] at found
  obtain ⟨s, scanned, rfl⟩ := List.mem_map.mp found
  obtain ⟨scanned, bare⟩ := List.mem_filter.mp scanned
  simp only [isBareBuiltin, Bool.and_eq_true] at bare
  refine ⟨.missingBuiltinPrefix, _, ⟨s.word.start, s.word.stop⟩, rfl, ?_⟩
  intro w free
  exact free.avoided_word scanned
    (Vocabulary.builtinNames_subset (List.contains_iff_mem.mp bare.1.1))

/-- What stands in an unclosed string is hidden in the code view, and its quote is no word. -/
theorem Strings.tidy_sites (source : Source) (options : Options) :
    ∀ site ∈ sites source options, site.Tidy source.code := by
  intro site member
  obtain ⟨span, found, rfl⟩ := List.mem_map.mp member
  have isOpen := ((mem_scanUnclosedStrings source.text span).mp found).isOpen
  refine ⟨.unclosedString, _, span, rfl, ?_⟩
  intro w free i lo hi inside
  obtain ⟨c, shown, word⟩ :=
    (Option.any_eq_true ..).mp (free.wordAt.isWordChar_at inside.1 inside.2)
  obtain ⟨stands, inCode⟩ := before_of_isWordChar_codeView shown word
  by_cases first : i = span.start
  · rw [first, isOpen.quote] at stands
    obtain rfl := Option.some.inj stands
    revert word
    decide
  · have inString := isOpen.inside i (by omega) (by omega)
    rw [inCode] at inString
    cases inString

namespace Undeclared

/-- A use of a variable in a line is a word of the document that may be a variable. -/
theorem freeWord_of_mem_uses {source : Source} {line : Line} (stands : line.Stands source)
    {u : Word} (used : u ∈ uses line.code) :
    FreeWord source.code (shift line.span.start u) := by
  obtain ⟨s, scanned, rfl⟩ := List.mem_map.mp used
  obtain ⟨scanned, use⟩ := List.mem_filter.mp scanned
  simp only [isNoUse, Bool.not_eq_true', Bool.or_eq_false_iff] at use
  obtain ⟨⟨unreserved, -⟩, ⟨-, unbracketed⟩, -⟩ := use
  have fits := fits_of_mem_scanSites scanned
  have length := stands.length_code
  have wordStop := fits.wordAt.stop_le
  have wordLt := fits.wordAt.start_lt
  have lineLe := stands.start_le
  refine ⟨fits.wordAt.of_line stands, ?_, ?_⟩
  · intro reserved
    rw [shift, ← List.contains_iff_mem, unreserved] at reserved
    cases reserved
  · rintro ⟨pos, opening, closing⟩
    change 0 < line.span.start + s.word.start at pos
    change source.code[line.span.start + s.word.start - 1]? = some '<' at opening
    change source.code[line.span.start + s.word.stop]? = some '>' at closing
    -- Neither bracket can stand outside of the word's line.
    have startsInLine : 0 < s.word.start := by
      apply Nat.pos_of_ne_zero
      intro first
      rw [first, Nat.add_zero] at opening
      have inText := getElem?_text_of_codeView opening (by decide)
      rcases stands.begins with zero | newline
      · omega
      · rw [inText] at newline
        cases newline
    have endsInLine : s.word.stop < line.code.length := by
      apply Nat.lt_of_le_of_ne wordStop
      intro last
      have inText := getElem?_text_of_codeView closing (by decide)
      rw [show line.span.start + s.word.stop = line.span.stop by omega] at inText
      rcases stands.ends.getElem?_cases with behind | behind | behind <;> rw [inText] at behind <;>
        cases behind
    rw [Nat.add_sub_assoc startsInLine, stands.getElem?_code (by omega),
      fits.head?_before startsInLine] at opening
    rw [stands.getElem?_code endsInLine, fits.head?_after] at closing
    rw [opening, closing] at unbracketed
    revert unbracketed
    decide

theorem tidy_sites (source : Source) (declared : List String) :
    ∀ s ∈ (survey declared source.lines).1.map site, s.Tidy source.code := by
  intro s member
  obtain ⟨w, found, rfl⟩ := List.mem_map.mp member
  obtain ⟨line, inLines, u, used, rfl⟩ := exists_use_of_mem_survey found
  exact ⟨.undefinedVariable, _, ⟨_, _⟩, rfl, _,
    freeWord_of_mem_uses (Source.stands_of_mem_lines inLines) used, rfl⟩

end Undeclared

theorem isWordChar_of_allBlank {blanks : List Char} (h : AllBlank blanks) :
    ∀ c ∈ blanks, isWordChar c = false :=
  fun c hc => isWordChar_of_isBlank (h c hc)

/-- A word that meets a part of the text, of which only the middle may hold word characters, is
that middle. -/
theorem WordAt.eq_of_meets_middle {text front left name right back : List Char}
    (split : text = front ++ (left ++ (name ++ (right ++ back))))
    (leftOther : ∀ c ∈ left, isWordChar c = false) (leftNe : left ≠ [])
    (rightOther : ∀ c ∈ right, isWordChar c = false) (rightNe : right ≠ [])
    (named : name = [] ∨ isIdentifier name = true) {w : Word} (word : WordAt text w) {i : Nat}
    (inPart : front.length ≤ i ∧ i < front.length + left.length + name.length + right.length)
    (inWord : w.start ≤ i ∧ i < w.stop) :
    isIdentifier name = true ∧ w = ⟨front.length + left.length,
      front.length + left.length + name.length, String.ofList name⟩ := by
  have notLeft : ¬ i < front.length + left.length :=
    fun early => word.avoided_middle split leftOther i inPart.1 early inWord
  have notRight : ¬ front.length + left.length + name.length ≤ i := by
    intro late
    have atRight : text = (front ++ (left ++ name)) ++ (right ++ back) := by
      rw [split]
      simp only [List.append_assoc]
    refine word.avoided_middle atRight rightOther i ?_ ?_ inWord
    · simp only [List.length_append]
      omega
    · simp only [List.length_append]
      omega
  have identifier : isIdentifier name = true := by
    rcases named with rfl | identifier
    · simp only [List.length_nil] at notRight
      omega
    · exact identifier
  have edgeLeft : (front ++ left).getLast?.any isWordChar = false := by
    rw [List.getLast?_append_of_ne_nil _ leftNe, List.getLast?_eq_some_getLast leftNe]
    exact leftOther _ (List.getLast_mem leftNe)
  have edgeRight : (right ++ back).head?.any isWordChar = false := by
    rw [List.head?_append_of_ne_nil _ rightNe, List.head?_eq_some_head rightNe]
    exact rightOther _ (List.head_mem rightNe)
  have placed := WordAt.of_split (front ++ left) (right ++ back) identifier edgeLeft edgeRight
  rw [List.append_assoc, ← split, List.length_append] at placed
  refine ⟨identifier, word.eq_of_meets placed inWord ?_⟩
  simp only
  omega

namespace DataTypes

/-- A word that meets a run in angle brackets of which only a name is left, blanks apart, is that
name. -/
theorem eq_of_meets_run {code : List Char} {limit : Nat} {run : AngleSpan}
    (scanned : run ∈ scanAngles limit code)
    (named : trim run.inner = [] ∨ isIdentifier (trim run.inner) = true) {w : Word}
    (word : WordAt code w) {i : Nat} (inRun : run.span.start ≤ i ∧ i < run.span.stop)
    (inWord : w.start ≤ i ∧ i < w.stop) :
    isIdentifier (trim run.inner) = true ∧ w.text = String.ofList (trim run.inner) ∧
      (run.inner = trim run.inner →
        0 < w.start ∧ code[w.start - 1]? = some '<' ∧ code[w.stop]? = some '>') := by
  obtain ⟨front, back, view, -, place⟩ := split_of_mem_scanAngles scanned
  obtain ⟨left, right, blankLeft, blankRight, inner⟩ := exists_trim_append run.inner
  generalize trim run.inner = name at named inner
  have split : code = front ++ ('<' :: left ++ (name ++ (right ++ ['>'] ++ back))) := by
    rw [view, inner]
    simp
  have size : run.inner.length = left.length + name.length + right.length := by
    rw [inner, List.length_append, List.length_append, Nat.add_assoc]
  rw [place] at inRun
  simp only at inRun
  obtain ⟨identifier, rfl⟩ := word.eq_of_meets_middle split
    (List.forall_mem_cons.mpr ⟨by decide, isWordChar_of_allBlank blankLeft⟩) (by simp)
    (List.forall_mem_append.mpr ⟨isWordChar_of_allBlank blankRight,
      List.forall_mem_singleton.mpr (by decide)⟩) (by simp) named
    (by simp only [List.length_cons, List.length_append, List.length_nil]; omega) inWord
  refine ⟨identifier, rfl, ?_⟩
  intro bare
  rw [bare] at size
  obtain rfl := List.length_eq_zero_iff.mp (show left.length = 0 by omega)
  obtain rfl := List.length_eq_zero_iff.mp (show right.length = 0 by omega)
  have opening : code = front ++ '<' :: (name ++ '>' :: back) := by simpa using split
  have closing : code = (front ++ '<' :: name) ++ '>' :: back := by simpa using split
  refine ⟨Nat.succ_pos _, ?_, ?_⟩
  · rw [opening, List.length_singleton, Nat.add_sub_cancel,
      List.getElem?_append_right (Nat.le_refl _), Nat.sub_self]
    rfl
  · have stop : front.length + ['<'].length + name.length = (front ++ '<' :: name).length := by
      simp only [List.length_append, List.length_cons, List.length_nil]
      omega
    rw [closing]
    simp only [stop]
    rw [List.getElem?_append_right (Nat.le_refl _), Nat.sub_self]
    rfl

theorem tidy_sites (source : Source) (options : Options) :
    ∀ site ∈ sites source options, site.Tidy source.code := by
  have identifiers : ∀ name ∈ Vocabulary.compositeTypes, isIdentifier name.toList = true := by
    decide +kernel
  intro site member
  obtain ⟨run, scanned, reported⟩ := List.mem_filterMap.mp member
  simp only [site?] at reported
  split at reported
  · rename_i empty
    obtain rfl := Option.some.inj reported
    refine ⟨.emptyDataType, _, run.span, rfl, ?_⟩
    intro w free i lo hi inWord
    have blank : trim run.inner = [] := List.isEmpty_iff.mp empty
    have meets := eq_of_meets_run scanned (.inl blank) free.wordAt ⟨lo, hi⟩ inWord
    exact isIdentifier_ne_nil meets.1 blank
  · split at reported
    · rename_i composite
      rw [List.contains_iff_mem] at composite
      split at reported
      · cases reported
      · obtain rfl := Option.some.inj reported
        refine ⟨.malformedDataType, _, run.span, rfl, ?_⟩
        intro w free i lo hi inWord
        have named := identifiers _ composite
        rw [String.toList_ofList] at named
        have meets := eq_of_meets_run scanned (.inr named) free.wordAt ⟨lo, hi⟩ inWord
        apply free.unknown
        rw [meets.2.1]
        exact Vocabulary.typeNames_subset (List.mem_of_mem_filter composite)
    · split at reported
      · rename_i bare
        obtain rfl := Option.some.inj reported
        refine ⟨.invalidDataType, _, run.span, rfl, ?_⟩
        intro w free i lo hi inWord
        have meets := eq_of_meets_run scanned (.inr bare.2) free.wordAt ⟨lo, hi⟩ inWord
        exact free.noType (meets.2.2 bare.1)
      · cases reported

end DataTypes

namespace Dictionaries

def Fault.span : Fault → Span
  | .missing span => span
  | .unclosed span => span

/-- A fault begins with the word `dict`, behind which only blanks and a brace may belong to it. -/
theorem avoids_of_mem_faults {code : List Char} {window : Nat} {fault : Fault}
    (h : fault ∈ faults code window) {w : Word} (free : FreeWord code w) :
    fault.span.Avoids w := by
  obtain ⟨s, scanned, dict, shape⟩ := exists_literal_of_mem_faults h
  have reserved : s.word.text ∈ Vocabulary.reservedWords := by
    rw [dict]
    exact Vocabulary.typeNames_subset (by decide)
  rcases shape with rfl | ⟨blanks, rest, blank, after, rfl⟩
  · exact free.avoided_word scanned reserved
  · have upToBrace : s.after = (blanks ++ ['\x7b']) ++ rest := by
      rw [after, List.append_assoc]
      rfl
    have avoided := free.avoided_site scanned reserved _ upToBrace
      (List.forall_mem_append.mpr ⟨isWordChar_of_allBlank blank,
        List.forall_mem_singleton.mpr (by decide)⟩)
    rwa [List.length_append, ← Nat.add_assoc] at avoided

theorem tidy_sites (source : Source) (options : Options) :
    ∀ site ∈ sites source options, site.Tidy source.code := by
  intro site member
  obtain ⟨span, ⟨found, reported⟩ | ⟨found, reported⟩⟩ := exists_span_of_mem_sites member
  · obtain rfl := Option.some.inj reported
    exact ⟨.missingDictBrace, _, span, rfl, fun w free => avoids_of_mem_faults found free⟩
  · obtain rfl := Option.some.inj reported
    exact ⟨.unclosedDict, _, span, rfl, fun w free => avoids_of_mem_faults found free⟩

end Dictionaries

namespace Constructs

/-- The header of a statement is a keyword, with its marker or without. -/
theorem avoids_of_mem_statements {code : List Char} {h : Header} (member : h ∈ statements code)
    {w : Word} (free : FreeWord code w) : Span.Avoids ⟨h.start, h.stop⟩ w := by
  have bodies : Vocabulary.bodyKeywords ⊆ Vocabulary.keywords.map (·.name) := by decide
  obtain ⟨s, scanned, begun⟩ := List.mem_filterMap.mp member
  have withMarker (marked : (s.after.head? == some '$') = true)
      (reserved : s.word.text ∈ Vocabulary.reservedWords) :
      Span.Avoids ⟨s.word.start, s.word.stop + 1⟩ w := by
    obtain ⟨rest, after⟩ := List.head?_eq_some_iff.mp (by simpa using marked)
    exact free.avoided_site scanned reserved ['$'] after
      (List.forall_mem_singleton.mpr (by decide))
  simp only [statement?] at begun
  split at begun
  · rename_i keyword
    obtain rfl := Option.some.inj begun
    rw [Bool.and_eq_true, List.contains_iff_mem] at keyword
    exact withMarker keyword.2 (Vocabulary.keywordNames_subset (bodies keyword.1))
  · split at begun
    · rename_i isElse
      obtain rfl := Option.some.inj begun
      have reserved : s.word.text ∈ Vocabulary.reservedWords := by
        rw [show s.word.text = "else" by simpa using isElse]
        exact Vocabulary.keywordNames_subset (by decide)
      by_cases marked : (s.after.head? == some '$') = true
      · simp only [if_pos marked]
        exact withMarker marked reserved
      · simp only [if_neg marked]
        exact free.avoided_word scanned reserved
    · cases begun

theorem tidy_sites (source : Source) (options : Options) :
    ∀ site ∈ sites source options, site.Tidy source.code := by
  intro site member
  rcases List.mem_append.mp member with member | member
  · rcases List.mem_append.mp member with member | member
    · obtain ⟨h, found, rfl⟩ := List.mem_map.mp member
      refine ⟨.incompleteStatement, _, ⟨h.start, h.stop⟩, rfl, ?_⟩
      intro w free
      exact avoids_of_mem_statements (List.mem_of_mem_filter found) free
    · obtain ⟨h, -, rfl⟩ := List.mem_map.mp member
      exact ⟨.incompleteFunction, _, ⟨h.start, h.stop⟩, rfl, trivial⟩
  · obtain ⟨h, -, rfl⟩ := List.mem_map.mp member
    exact ⟨.incompleteClass, _, ⟨h.start, h.stop⟩, rfl, trivial⟩

end Constructs

theorem Terminators.tidy_sites (source : Source) (options : Options) :
    ∀ site ∈ sites source options, site.Tidy source.code := by
  intro site member
  obtain ⟨line, -, rfl⟩ := List.mem_map.mp member
  refine ⟨.missingSemicolon, _, ⟨line.span.stop, line.span.stop⟩, rfl, ?_⟩
  intro w free i lo hi
  simp only at lo hi
  omega

/-- All that a checker of the language comes to touches names as its code allows. -/
theorem tidy_of_builtin {checker : Checker} (h : checker ∈ Registry.builtinCheckers)
    {context : Context} {declared known : List String} {sites : List Site}
    (diagnosed : (checker.diagnosis context).outcome declared = (.ok sites, known)) :
    ∀ site ∈ sites, site.Tidy context.source.code := by
  obtain ⟨source, options⟩ := context
  simp only [Registry.builtinCheckers, List.mem_cons, List.not_mem_nil, or_false] at h
  rcases h with rfl | rfl | rfl | rfl | rfl | rfl | rfl | rfl | rfl <;> cases diagnosed
  · exact Brackets.tidy_sites source options
  · exact KeywordSuffix.tidy_sites source options
  · exact Strings.tidy_sites source options
  · exact BuiltinCalls.tidy_sites source options
  · exact Undeclared.tidy_sites source _
  · exact DataTypes.tidy_sites source options
  · exact Dictionaries.tidy_sites source options
  · exact Constructs.tidy_sites source options
  · exact Terminators.tidy_sites source options

/-- What a checker of the language emits: each finding stands where its site does. -/
theorem exists_emitted_of_builtin {checker : Checker} (h : checker ∈ Registry.builtinCheckers)
    (context : Context) (declared : List String) :
    ∃ found known, (checker.emit context).outcome declared = (.ok found, known) ∧
      ∀ f ∈ found, ∃ c span, f.code = Code.text c ∧ f.start = span.start ∧ f.stop = span.stop ∧
        TouchesNames context.source.code span c := by
  obtain ⟨codes, sites, known, codesOf, diagnosed, apt⟩ :=
    exists_apt_of_builtin h context declared
  refine ⟨sites.map (checker.finding context.source.length), known, ?_, ?_⟩
  · rw [Checker.outcome_emit, diagnosed]
  · intro f member
    obtain ⟨site, inSites, rfl⟩ := List.mem_map.mp member
    obtain ⟨c, message, span, rfl, touches⟩ := tidy_of_builtin h diagnosed site inSites
    obtain ⟨-, start, stop⟩ := (apt _ inSites).finding codesOf
    exact ⟨c, span, rfl, start, stop, touches⟩

/-- Two findings have a character in common. -/
def Finding.Overlaps (f g : Finding) : Prop :=
  ∃ i : Int, f.start ≤ i ∧ i < f.stop ∧ g.start ≤ i ∧ i < g.stop

/-- The codes of findings that may hold an undeclared name: its own, and those of headers. -/
def nameHolders : List Code := [.undefinedVariable, .incompleteFunction, .incompleteClass]

/-- **No undeclared name is reported where another finding stands.** Whatever the text, the options
and the names declared before, the range of an undeclared name has no character in common with a
finding of another code, headers of functions and classes apart. -/
theorem undefined_names_stand_apart (source : Source) (options : Options) {a b : Checker}
    (builtinA : a ∈ Registry.builtinCheckers) (builtinB : b ∈ Registry.builtinCheckers)
    (declaredA declaredB : List String) :
    ∃ found others knownA knownB,
      (a.emit ⟨source, options⟩).outcome declaredA = (.ok found, knownA) ∧
      (b.emit ⟨source, options⟩).outcome declaredB = (.ok others, knownB) ∧
      ∀ f ∈ found, f.code = Code.undefinedVariable.text →
        ∀ g ∈ others, g.code ∉ nameHolders.map Code.text → ¬ f.Overlaps g := by
  obtain ⟨found, knownA, emittedA, placedA⟩ :=
    exists_emitted_of_builtin builtinA ⟨source, options⟩ declaredA
  obtain ⟨others, knownB, emittedB, placedB⟩ :=
    exists_emitted_of_builtin builtinB ⟨source, options⟩ declaredB
  refine ⟨found, others, knownA, knownB, emittedA, emittedB, ?_⟩
  intro f inFound undefined g inOthers other
  obtain ⟨c, span, codeF, startF, stopF, touchesF⟩ := placedA f inFound
  obtain ⟨d, range, codeG, startG, stopG, touchesG⟩ := placedB g inOthers
  obtain rfl := Code.text_injective (codeF.symm.trans undefined)
  obtain ⟨w, free, rfl⟩ := touchesF
  have notHolder : d ∉ nameHolders := by
    intro holder
    apply other
    rw [codeG]
    exact List.mem_map_of_mem holder
  have avoids : range.Avoids w := by
    cases d with
    | undefinedVariable | incompleteFunction | incompleteClass => exact absurd (by decide) notHolder
    | _ => exact touchesG w free
  rintro ⟨i, loF, hiF, loG, hiG⟩
  rw [startF] at loF
  rw [stopF] at hiF
  rw [startG] at loG
  rw [stopG] at hiG
  apply avoids i.toNat
  · omega
  · omega
  · simp only at loF hiF
    omega

/-- Names between runs in angle brackets that are empty, hold a type or name none. -/
theorem undefined_names_stand_apart_between_types :
    let context : Context := ⟨.ofString "a" "< stack >y<foo>z< >", {}⟩
    let shown (f : Finding) := (f.code, f.start, f.stop)
    Undeclared.checker ∈ Registry.builtinCheckers ∧ DataTypes.checker ∈ Registry.builtinCheckers ∧
      ∃ found others, ((Undeclared.checker.emit context).outcome []).1 = .ok found ∧
        ((DataTypes.checker.emit context).outcome []).1 = .ok others ∧
        found.map shown = [("undefinedVariable", 9, 10), ("undefinedVariable", 15, 16)] ∧
        others.map shown = [("malformedDataType", 0, 9), ("invalidDataType", 10, 15),
          ("emptyDataType", 16, 19)] ∧
        ∀ f ∈ found, ∀ g ∈ others, ¬ f.Overlaps g := by
  intro context shown
  have undeclared : Undeclared.checker ∈ Registry.builtinCheckers := by
    simp [Registry.builtinCheckers]
  have dataTypes : DataTypes.checker ∈ Registry.builtinCheckers := by
    simp [Registry.builtinCheckers]
  obtain ⟨found, others, knownA, knownB, emittedA, emittedB, apart⟩ :=
    undefined_names_stand_apart context.source context.options undeclared dataTypes [] []
  have names : ((Undeclared.checker.emit context).outcome []).1.toOption.map (·.map shown) =
      some [("undefinedVariable", 9, 10), ("undefinedVariable", 15, 16)] := by
    decide +kernel
  have types : ((DataTypes.checker.emit context).outcome []).1.toOption.map (·.map shown) =
      some [("malformedDataType", 0, 9), ("invalidDataType", 10, 15),
        ("emptyDataType", 16, 19)] := by
    decide +kernel
  rw [emittedA] at names
  rw [emittedB] at types
  replace names : found.map shown = _ := Option.some.inj names
  replace types : others.map shown = _ := Option.some.inj types
  refine ⟨undeclared, dataTypes, found, others, by rw [emittedA], by rw [emittedB], names, types,
    ?_⟩
  intro f inFound g inOthers
  have nameF : shown f ∈ found.map shown := List.mem_map_of_mem inFound
  have typeG : shown g ∈ others.map shown := List.mem_map_of_mem inOthers
  rw [names] at nameF
  rw [types] at typeG
  apply apart f inFound _ g inOthers
  · simp only [shown, List.mem_cons, Prod.mk.injEq, List.not_mem_nil, or_false] at typeG
    rcases typeG with ⟨code, -⟩ | ⟨code, -⟩ | ⟨code, -⟩ <;> rw [code] <;> decide
  · simp only [shown, List.mem_cons, Prod.mk.injEq, List.not_mem_nil, or_false] at nameF
    rcases nameF with ⟨code, -⟩ | ⟨code, -⟩ <;> rw [code] <;> rfl

/-- A header may hold an undeclared name: of a parameter only the first word is declared. -/
example :
    let context : Context := ⟨.ofString "a" "func$ f(x y)", {}⟩
    let ranges (c : Checker) := ((c.emit context).outcome []).1.toOption.map fun found =>
      found.map fun f => (f.code, f.start, f.stop)
    ranges Undeclared.checker = some [("undefinedVariable", 10, 11)] ∧
      ranges Constructs.checker = some [("incompleteFunction", 0, 12)] := by
  decide +kernel

end LexLint
