import LexLint.Proofs.Checker.Ranges
import LexLint.Proofs.Json.RoundTrip

/-!
# Messages are printable

Messages quote the text that they are about. Whatever the text holds, what is quoted is an
identifier, a bracket or the name of a type, by whichever scan or pattern it was found, so that a
message is printable ASCII: it has no line end and no other control character
(`Finding.OfBuiltin.printable`).
-/

namespace LexLint

/-- A text of printable ASCII characters. -/
def Printable (s : String) : Prop := ∀ c ∈ s.toList, Json.IsPrintable c

-- Decided along the text, not over all characters.
instance (s : String) : Decidable (Printable s) :=
  decidable_of_iff ((s.toList.all fun c => decide (Json.IsPrintable c)) = true)
    (by simp [Printable])

theorem printable_append {a b : String} : Printable (a ++ b) ↔ Printable a ∧ Printable b := by
  simp only [Printable, String.toList_append, List.forall_mem_append]

theorem printable_of_isIdentifier {word : String} (h : isIdentifier word.toList = true) :
    Printable word := by
  intro c hc
  have range := toNat_of_isWordChar (isWordChar_of_isIdentifier h hc)
  exact ⟨by omega, by omega⟩

theorem newline_notMem_of_printable {s : String} (h : Printable s) : '\n' ∉ s.toList :=
  fun newline => absurd (h '\n' newline) (by decide)

theorem Bracket.printable (b : Bracket) :
    Printable (toString b.opener) ∧ Printable (toString b.closer) := by
  cases b <;> decide

/-- Every message among sites is printable. -/
def PrintableSites (sites : List Site) : Prop := ∀ site ∈ sites, Printable site.message

theorem Brackets.printable_sites (source : Source) (options : Options) :
    PrintableSites (sites source options) := by
  intro site member
  obtain ⟨⟨fault, offset⟩, -, rfl⟩ := List.mem_map.mp member
  cases fault with
  | mismatch found expected =>
    simp only [Brackets.site, Site.at, printable_append, found.printable, expected.printable]
    decide
  | unexpected found =>
    simp only [Brackets.site, Site.at, printable_append, found.printable]
    decide
  | unclosed opened =>
    simp only [Brackets.site, Site.at, printable_append, opened.printable]
    decide

theorem KeywordSuffix.printable_sites (source : Source) (options : Options) :
    PrintableSites (sites source options) := by
  intro site member
  obtain ⟨w, found, rfl⟩ := List.mem_map.mp member
  obtain ⟨s, scanned, rfl⟩ := List.mem_map.mp found
  have word := printable_of_isIdentifier
    (fits_of_mem_scanSites (List.mem_of_mem_filter scanned)).identifier
  simp only [KeywordSuffix.site, Site.at, toString, printable_append, word]
  decide

theorem Strings.printable_sites (source : Source) (options : Options) :
    PrintableSites (sites source options) := by
  intro site member
  obtain ⟨span, -, rfl⟩ := List.mem_map.mp member
  show Printable "Unclosed string literal"
  decide

theorem BuiltinCalls.printable_sites (source : Source) (options : Options) :
    PrintableSites (sites source options) := by
  intro site member
  obtain ⟨w, found, rfl⟩ := List.mem_map.mp member
  rw [bareCalls, List.mem_mergeSort, List.mem_flatMap] at found
  obtain ⟨line, -, found⟩ := found
  obtain ⟨name, builtin, called⟩ := List.mem_flatMap.mp found
  obtain ⟨offset, -, rfl⟩ := List.mem_map.mp called
  have word := printable_of_isIdentifier (isIdentifier_of_mem builtin)
  simp only [BuiltinCalls.site, Site.at, toString, printable_append, word]
  decide

theorem Undeclared.printable_sites (declared : List String) (lines : List Line) :
    PrintableSites ((survey declared lines).1.map site) := by
  intro site member
  obtain ⟨w, found, rfl⟩ := List.mem_map.mp member
  obtain ⟨line, -, s, scanned, rfl⟩ := exists_line_of_mem_survey found
  have word := printable_of_isIdentifier (fits_of_mem_scanSites scanned).identifier
  simp only [Undeclared.site, Undeclared.shift, Site.at, toString, printable_append, word]
  decide

/-- A type is quoted only as the name of a type or as an identifier. -/
theorem DataTypes.printable_sites (source : Source) (options : Options) :
    PrintableSites (sites source options) := by
  have types : ∀ name ∈ Vocabulary.compositeTypes, Printable name := by decide +kernel
  have or : Printable (typeList "or") := by decide +kernel
  have and : Printable (typeList "and") := by decide +kernel
  intro site member
  obtain ⟨run, -, reported⟩ := List.mem_filterMap.mp member
  simp only [site?] at reported
  split at reported
  · obtain rfl := Option.some.inj reported
    simp only [Site.at, printable_append, or]
    decide
  · split at reported
    · rename_i known
      split at reported
      · cases reported
      · obtain rfl := Option.some.inj reported
        have name := types _ (List.contains_iff_mem.mp known)
        simp only [Site.at, toString, printable_append, name]
        decide
    · split at reported
      · rename_i whole
        obtain rfl := Option.some.inj reported
        have name : Printable (String.ofList (trim run.inner)) :=
          printable_of_isIdentifier (by rw [String.toList_ofList]; exact whole.2)
        simp only [Site.at, toString, printable_append, name, and]
        decide
      · cases reported

theorem Dictionaries.printable_sites (source : Source) (options : Options) :
    PrintableSites (sites source options) := by
  intro site member
  obtain ⟨span, ⟨-, reported⟩ | ⟨-, reported⟩⟩ := exists_span_of_mem_sites member
  · obtain rfl := Option.some.inj reported
    simp only [Site.at]
    decide
  · obtain rfl := Option.some.inj reported
    simp only [Site.at]
    decide

namespace Constructs

theorem printable_of_mem_statements {code : List Char} {h : Header} (member : h ∈ statements code) :
    Printable h.label := by
  obtain ⟨s, scanned, begun⟩ := List.mem_filterMap.mp member
  have word := printable_of_isIdentifier (fits_of_mem_scanSites scanned).identifier
  simp only [statement?] at begun
  split at begun
  · obtain rfl := Option.some.inj begun
    exact printable_append.mpr ⟨word, by decide⟩
  · split at begun
    · obtain rfl := Option.some.inj begun
      exact word
    · cases begun

theorem printable_of_mem_functions {code : List Char} {h : Header} (member : h ∈ functions code) :
    Printable h.label := by
  obtain ⟨m, found, rfl⟩ := List.mem_map.mp member
  obtain ⟨pre, rest, after, -, recognised, -, -⟩ := occurs_of_mem_findAll found
  obtain ⟨blanks, gap, identifier, -⟩ := funcHeader_eq_some recognised
  exact printable_of_isIdentifier identifier

theorem printable_of_mem_classes {code : List Char} {h : Header} (member : h ∈ classes code) :
    Printable h.label := by
  obtain ⟨m, found, rfl⟩ := List.mem_map.mp member
  obtain ⟨pre, rest, after, -, recognised, -, -⟩ := occurs_of_mem_findAll found
  obtain ⟨blanks, identifier, -⟩ := classHeader_eq_some recognised
  exact printable_of_isIdentifier identifier

theorem printable_sites (source : Source) (options : Options) :
    PrintableSites (sites source options) := by
  intro site member
  rcases List.mem_append.mp member with member | member
  · rcases List.mem_append.mp member with member | member
    · obtain ⟨h, found, rfl⟩ := List.mem_map.mp member
      have label := printable_of_mem_statements (List.mem_of_mem_filter found)
      simp only [statementSite, Site.at, toString, printable_append, label]
      decide
    · obtain ⟨h, found, rfl⟩ := List.mem_map.mp member
      have label := printable_of_mem_functions (List.mem_of_mem_filter found)
      simp only [functionSite, Site.at, toString, printable_append, label]
      decide
  · obtain ⟨h, found, rfl⟩ := List.mem_map.mp member
    have label := printable_of_mem_classes (List.mem_of_mem_filter found)
    simp only [classSite, Site.at, toString, printable_append, label]
    decide

end Constructs

theorem Terminators.printable_sites (source : Source) (options : Options) :
    PrintableSites (sites source options) := by
  intro site member
  obtain ⟨line, -, rfl⟩ := List.mem_map.mp member
  show Printable "Missing semicolon at end of statement"
  decide

theorem exists_printable_of_builtin {checker : Checker}
    (h : checker ∈ Registry.builtinCheckers) (context : Context) (declared : List String) :
    ∃ sites known, (checker.diagnosis context).outcome declared = (.ok sites, known) ∧
      PrintableSites sites := by
  obtain ⟨source, options⟩ := context
  simp only [Registry.builtinCheckers, List.mem_cons, List.not_mem_nil, or_false] at h
  rcases h with rfl | rfl | rfl | rfl | rfl | rfl | rfl | rfl | rfl
  · exact ⟨_, _, rfl, Brackets.printable_sites source options⟩
  · exact ⟨_, _, rfl, KeywordSuffix.printable_sites source options⟩
  · exact ⟨_, _, rfl, Strings.printable_sites source options⟩
  · exact ⟨_, _, rfl, BuiltinCalls.printable_sites source options⟩
  · exact ⟨_, _, Undeclared.outcome_diagnosis _ declared,
      Undeclared.printable_sites _ source.lines⟩
  · exact ⟨_, _, rfl, DataTypes.printable_sites source options⟩
  · exact ⟨_, _, rfl, Dictionaries.printable_sites source options⟩
  · exact ⟨_, _, rfl, Constructs.printable_sites source options⟩
  · exact ⟨_, _, rfl, Terminators.printable_sites source options⟩

/-! ### Findings of the checkers of the language -/

namespace Finding

/-- A finding that some checker of the language emits on a document, whatever the options and the
names declared before. -/
def OfBuiltin (source : Source) (f : Finding) : Prop :=
  ∃ checker ∈ Registry.builtinCheckers, ∃ options declared findings,
    checker.Emits ⟨source, options⟩ declared findings ∧ f ∈ findings

variable {source : Source} {f : Finding}

/-- What a checker emits, it emits for its sites. -/
theorem exists_site_of_emits {checker : Checker} {context : Context} {declared known : List String}
    {sites : List Site} {findings : List Finding} (emits : checker.Emits context declared findings)
    (diagnosed : (checker.diagnosis context).outcome declared = (.ok sites, known))
    (member : f ∈ findings) : ∃ site ∈ sites, f = checker.finding context.source.length site := by
  rw [Checker.Emits, Checker.outcome_emit, diagnosed] at emits
  obtain rfl := Except.ok.inj emits
  obtain ⟨site, inSites, made⟩ := List.mem_map.mp member
  exact ⟨site, inSites, made.symm⟩

theorem OfBuiltin.printable (h : f.OfBuiltin source) : Printable f.message := by
  obtain ⟨checker, builtin, options, declared, findings, emits, member⟩ := h
  obtain ⟨sites, known, diagnosed, printable⟩ :=
    exists_printable_of_builtin builtin ⟨source, options⟩ declared
  obtain ⟨site, inSites, rfl⟩ := exists_site_of_emits emits diagnosed member
  exact printable site inSites

theorem OfBuiltin.exists_code (h : f.OfBuiltin source) : ∃ code : Code, f.code = code.text := by
  obtain ⟨checker, builtin, options, declared, findings, emits, member⟩ := h
  obtain ⟨codes, sites, known, codesOf, diagnosed, apt⟩ :=
    exists_apt_of_builtin builtin ⟨source, options⟩ declared
  obtain ⟨site, inSites, rfl⟩ := exists_site_of_emits emits diagnosed member
  obtain ⟨-, -, -, code, -, text, -⟩ := ((apt site inSites).finding codesOf).1
  exact ⟨code, text⟩

end Finding

/-- What the checkers of the language report at their turns, they emit. -/
theorem ofBuiltin_of_mem_takeTurns {checkers : List Checker}
    (h : ∀ c ∈ checkers, c ∈ Registry.builtinCheckers) {context : Context} {rules : Suppressions}
    {declared : List String} {turn : String × List Finding}
    (member : turn ∈ takeTurns context rules declared checkers) {f : Finding}
    (found : f ∈ turn.2) : f.OfBuiltin context.source := by
  obtain ⟨checker, among, known, rfl⟩ := exists_report_of_mem_takeTurns member
  obtain ⟨sites, after, diagnosed⟩ := exists_diagnosis_of_builtin (h checker among) context known
  have emits : checker.Emits context known
      (sites.map (checker.finding context.source.length)) := by
    rw [Checker.Emits, Checker.outcome_emit, diagnosed]
  simp only [Checker.report_eq, Checker.outcome_emit, diagnosed] at found
  exact ⟨checker, h checker among, context.options, known, _, emits,
    List.mem_of_mem_filter found⟩

end LexLint
