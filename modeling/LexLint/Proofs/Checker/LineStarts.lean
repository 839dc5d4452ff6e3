import LexLint.Proofs.Checker.BuiltinWords
import LexLint.Proofs.Checker.Messages
import LexLint.Proofs.View.Conversion

/-!
# Findings begin on a line

A document has one kind of place that is on no line: behind a return that ends a line. No finding of
the checkers of the language begins there (`Finding.OfBuiltin.not_behindReturn`), for what it is
about is a word, a mark of punctuation, or the end of a line.
-/

namespace LexLint

/-- What does not begin with a newline is on a line. -/
theorem not_behindReturn_of_getElem? {text : List Char} {i : Nat} {c : Char}
    (char : text[i]? = some c) (other : c ≠ '\n') : ¬ BehindReturn text i := by
  rintro ⟨-, -, rfl | newline⟩
  · rw [List.getElem?_eq_none (Nat.le_refl _)] at char
    cases char
  · rw [char] at newline
    exact other (Option.some.inj newline)

theorem not_behindReturn_of_head? {text : List Char} {span : Span} {c : Char}
    (first : (slice text span).head? = some c) (other : c ≠ '\n') :
    ¬ BehindReturn text span.start := by
  rw [List.head?_eq_getElem?, getElem?_slice] at first
  split at first
  · exact not_behindReturn_of_getElem? first other
  · cases first

theorem WordAt.not_behindReturn {text : List Char} {w : Word} (h : WordAt text w) :
    ¬ BehindReturn text w.start := by
  obtain ⟨c, char, word⟩ :=
    (Option.any_eq_true ..).mp (h.isWordChar_at (Nat.le_refl _) h.start_lt)
  exact not_behindReturn_of_getElem? char (isWordChar_ne word (by decide))

/-- The codes of findings that begin with a mark of punctuation or a keyword. -/
def markCodes : List Code :=
  [.mismatchedBracket, .unexpectedBracket, .unclosedBracket, .unclosedString, .emptyDataType,
   .malformedDataType, .invalidDataType, .missingDictBrace, .unclosedDict, .incompleteFunction,
   .incompleteClass]

theorem head?_of_isPrefix_cons {c : Char} {literal shown : List Char}
    (h : c :: literal <+: shown) : shown.head? = some c := by
  obtain ⟨rest, rfl⟩ := h
  rfl

/-- Such a finding shows its mark or keyword first. -/
theorem Points.exists_head? {text : List Char} {span : Span} {message : String} {code : Code}
    (points : Points text span message code) (marked : code ∈ markCodes) :
    ∃ c, (slice text span).head? = some c ∧ c ≠ '\n' := by
  have bracket (b : Bracket) : b.opener ≠ '\n' ∧ b.closer ≠ '\n' := by cases b <;> decide
  simp only [markCodes, List.mem_cons, List.not_mem_nil, or_false] at marked
  rcases marked with rfl | rfl | rfl | rfl | rfl | rfl | rfl | rfl | rfl | rfl | rfl
  · obtain ⟨found, expected, shown, -⟩ := points
    exact ⟨found.closer, by rw [shown]; rfl, (bracket found).2⟩
  · obtain ⟨found, shown, -⟩ := points
    exact ⟨found.closer, by rw [shown]; rfl, (bracket found).2⟩
  · obtain ⟨opened, shown, -⟩ := points
    exact ⟨opened.opener, by rw [shown]; rfl, (bracket opened).1⟩
  · exact ⟨'"', points.1, by decide⟩
  · exact ⟨'<', points.1, by decide⟩
  · exact ⟨'<', points.1, by decide⟩
  · exact ⟨'<', points.1, by decide⟩
  · exact ⟨'d', by rw [show slice text span = _ from points]; rfl, by decide⟩
  · exact ⟨'d', head?_of_isPrefix_cons points.1, by decide⟩
  · obtain ⟨name, keyword, -⟩ := points
    exact ⟨'f', head?_of_isPrefix_cons keyword, by decide⟩
  · obtain ⟨name, keyword, -⟩ := points
    exact ⟨'c', head?_of_isPrefix_cons keyword, by decide⟩

/-- The range of a site begins on a line. -/
def Site.OnLine (text : List Char) (site : Site) : Prop := ¬ BehindReturn text site.start.toNat

theorem Site.Apt.onLine {text : List Char} {codes : List Code} {site : Site}
    (h : site.Apt text codes) (marked : codes ⊆ markCodes) : site.OnLine text := by
  obtain ⟨code, member, message, span, rfl, -, -, points⟩ := h
  obtain ⟨c, first, other⟩ := points.exists_head? (marked member)
  exact not_behindReturn_of_head? first other

/-- A word of the code view begins on a line. -/
theorem WordAt.onLine {text : List Char} {w : Word} (h : WordAt (codeView text) w) (code : Code)
    (message : String) (stop : Nat) : (Site.at code message w.start stop).OnLine text :=
  h.of_codeView.not_behindReturn

theorem KeywordSuffix.onLine_sites (source : Source) (options : Options) :
    ∀ site ∈ sites source options, site.OnLine source.text := by
  intro site member
  obtain ⟨w, found, rfl⟩ := List.mem_map.mp member
  obtain ⟨s, scanned, rfl⟩ := List.mem_map.mp found
  exact (fits_of_mem_scanSites (List.mem_of_mem_filter scanned)).wordAt.onLine _ _ _

theorem BuiltinCalls.onLine_sites (source : Source) (options : Options) :
    ∀ site ∈ sites source options, site.OnLine source.text := by
  intro site member
  obtain ⟨w, found, rfl⟩ := List.mem_map.mp member
  rw [bareCalls_eq_words, bareWords] at found
  obtain ⟨s, called, rfl⟩ := List.mem_map.mp found
  exact (fits_of_mem_scanSites (List.mem_of_mem_filter called)).wordAt.onLine _ _ _

theorem Undeclared.onLine_sites (source : Source) (declared : List String) :
    ∀ s ∈ (survey declared source.lines).1.map site, s.OnLine source.text := by
  intro s member
  obtain ⟨w, found, rfl⟩ := List.mem_map.mp member
  obtain ⟨line, inLines, s, scanned, rfl⟩ := exists_line_of_mem_survey found
  have inLine := (fits_of_mem_scanSites scanned).wordAt
  exact (inLine.of_line (Source.stands_of_mem_lines inLines)).onLine _ _ _

/-- The header of a statement begins with its keyword. -/
theorem Constructs.onLine_statementSite {text : List Char} {h : Header}
    (member : h ∈ statements (codeView text)) : (statementSite h).OnLine text := by
  obtain ⟨s, scanned, begun⟩ := List.mem_filterMap.mp member
  have start : h.start = s.word.start := by
    simp only [statement?] at begun
    split at begun
    · rw [← Option.some.inj begun]
    · split at begun
      · rw [← Option.some.inj begun]
      · cases begun
  show ¬ BehindReturn text h.start
  rw [start]
  exact (fits_of_mem_scanSites scanned).wordAt.of_codeView.not_behindReturn

theorem Constructs.onLine_sites (source : Source) (options : Options) :
    ∀ site ∈ sites source options, site.OnLine source.text := by
  intro site member
  rcases List.mem_append.mp member with member | member
  · rcases List.mem_append.mp member with member | member
    · obtain ⟨h, found, rfl⟩ := List.mem_map.mp member
      exact onLine_statementSite (List.mem_of_mem_filter found)
    · obtain ⟨h, found, rfl⟩ := List.mem_map.mp member
      obtain ⟨-, -, keyword, -⟩ := shows_of_mem_functions (List.mem_of_mem_filter found)
      exact not_behindReturn_of_head? (head?_of_isPrefix_cons keyword) (by decide)
  · obtain ⟨h, found, rfl⟩ := List.mem_map.mp member
    obtain ⟨-, -, keyword, -⟩ := shows_of_mem_classes (List.mem_of_mem_filter found)
    exact not_behindReturn_of_head? (head?_of_isPrefix_cons keyword) (by decide)

theorem Terminators.onLine_sites (source : Source) (options : Options) :
    ∀ site ∈ sites source options, site.OnLine source.text := by
  intro site member
  obtain ⟨line, found, rfl⟩ := List.mem_map.mp member
  obtain ⟨n, at_n⟩ := List.getElem?_of_mem ((unterminatedFrom_sublist none _).subset found)
  exact (Source.isLine_of_getElem?_lines at_n).not_behindReturn_stop

theorem exists_onLine_of_builtin {checker : Checker} (h : checker ∈ Registry.builtinCheckers)
    (context : Context) (declared : List String) :
    ∃ sites known, (checker.diagnosis context).outcome declared = (.ok sites, known) ∧
      ∀ site ∈ sites, site.OnLine context.source.text := by
  obtain ⟨source, options⟩ := context
  simp only [Registry.builtinCheckers, List.mem_cons, List.not_mem_nil, or_false] at h
  rcases h with rfl | rfl | rfl | rfl | rfl | rfl | rfl | rfl | rfl
  · refine ⟨_, _, rfl, fun site hs => (Brackets.apt_sites source options site hs).onLine ?_⟩
    decide
  · exact ⟨_, _, rfl, KeywordSuffix.onLine_sites source options⟩
  · refine ⟨_, _, rfl, fun site hs => (Strings.apt_sites source options site hs).onLine ?_⟩
    decide
  · exact ⟨_, _, rfl, BuiltinCalls.onLine_sites source options⟩
  · exact ⟨_, _, Undeclared.outcome_diagnosis _ declared, Undeclared.onLine_sites source _⟩
  · refine ⟨_, _, rfl, fun site hs => (DataTypes.apt_sites source options site hs).onLine ?_⟩
    decide
  · refine ⟨_, _, rfl, fun site hs => (Dictionaries.apt_sites source options site hs).onLine ?_⟩
    decide
  · exact ⟨_, _, rfl, Constructs.onLine_sites source options⟩
  · exact ⟨_, _, rfl, Terminators.onLine_sites source options⟩

/-- What a checker of the language finds begins on a line. -/
theorem Finding.OfBuiltin.not_behindReturn {source : Source} {f : Finding}
    (h : f.OfBuiltin source) : ¬ BehindReturn source.text f.start.toNat := by
  obtain ⟨checker, builtin, options, declared, findings, emits, member⟩ := h
  obtain ⟨sites, known, diagnosed, onLine⟩ :=
    exists_onLine_of_builtin builtin ⟨source, options⟩ declared
  obtain ⟨codes, sites', known', codesOf, diagnosed', apt⟩ :=
    exists_apt_of_builtin builtin ⟨source, options⟩ declared
  obtain rfl : sites = sites' := by
    rw [diagnosed] at diagnosed'
    exact Except.ok.inj (Prod.mk.inj diagnosed').1
  obtain ⟨site, inSites, rfl⟩ := exists_site_of_emits emits diagnosed member
  have start : (checker.finding source.length site).start = site.start :=
    ((apt site inSites).finding codesOf).2.1
  exact start ▸ onLine site inSites

end LexLint
