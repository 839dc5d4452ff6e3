import LexLint.Proofs.Checker.Returns
import LexLint.Proofs.Run.Suppression

/-!
# Line endings do not matter

A run of the checkers of the language, all but the one for dictionaries, reports the same at the
same lines and columns whether or not a return stands before each newline
(`line_endings_do_not_matter`).
-/

namespace LexLint

/-- What is reported of a finding: its position, its code and its message. -/
def Source.mark (source : Source) (f : Finding) : Position × String × String :=
  (source.index.position f.start, f.code, f.message)

theorem Site.Apt.start_le {text : List Char} {codes : List Code} {site : Site}
    (h : site.Apt text codes) :
    (site.start.toNat : Int) = site.start ∧ site.start.toNat ≤ text.length := by
  obtain ⟨code, -, message, span, rfl, le, fits, -⟩ := h
  simp only [Site.at, Int.toNat_natCast, true_and]
  omega

theorem Site.Apt.mark_finding {source : Source} {codes : List Code} {site : Site}
    (h : site.Apt source.text codes) (checker : Checker) :
    source.mark (checker.finding source.length site) =
      (source.index.position (site.start.toNat : Nat), site.code, site.message) := by
  rw [h.start_le.1]
  change source.mark (checker.finding source.text.length site) = _
  rw [h.finding_eq_placed checker]
  rfl

/-- Findings for the same sites are reported at the same positions. -/
theorem SameSites.map_mark {source : Source} {sites sites' : List Site} {codes codes' : List Code}
    (same : SameSites source sites sites') (noReturn : '\r' ∉ source.text)
    (apt : ∀ s ∈ sites, s.Apt source.text codes)
    (apt' : ∀ s ∈ sites', s.Apt source.withReturns.text codes') (checker : Checker) :
    (sites'.map (checker.finding source.withReturns.length)).map source.withReturns.mark =
      (sites.map (checker.finding source.length)).map source.mark := by
  have positions := congrArg (List.map fun m : Nat × String × String =>
    (source.withReturns.index.position m.1, m.2)) same
  rw [List.map_map, List.map_map] at positions
  rw [List.map_map, List.map_map]
  calc sites'.map (source.withReturns.mark ∘ checker.finding source.withReturns.length)
    _ = sites'.map _ := List.map_congr_left fun s hs => (apt' s hs).mark_finding checker
    _ = sites.map _ := positions
    _ = sites.map (source.mark ∘ checker.finding source.length) := by
      refine List.map_congr_left fun s hs => ?_
      have place := position_withReturns noReturn (apt s hs).start_le.2
      simp only [Function.comp, Site.moved, place, (apt s hs).mark_finding checker]

/-- A checker finds the same sites with returns, and declares the same names. -/
def Checker.AgreesOnReturns (checker : Checker) (source : Source) : Prop :=
  ∀ (options : Options) (declared : List String), ∃ sites sites' after,
    (checker.diagnosis ⟨source, options⟩).outcome declared = (.ok sites, after) ∧
    (checker.diagnosis ⟨source.withReturns, options⟩).outcome declared = (.ok sites', after) ∧
    SameSites source sites sites'

theorem Checker.agreesOnReturns_ofSites {name title description : String} {codes : List Code}
    {sites : Source → Options → List Site} {source : Source}
    (same : ∀ options, SameSites source (sites source options) (sites source.withReturns options)) :
    (ofSites name title description codes sites).AgreesOnReturns source :=
  fun options _ => ⟨_, _, _, rfl, rfl, same options⟩

theorem Undeclared.agreesOnReturns {source : Source} (noReturn : '\r' ∉ source.text) :
    checker.AgreesOnReturns source := by
  intro options declared
  have seeds : seed ⟨source.withReturns, options⟩ = seed ⟨source, options⟩ := by
    have names := declaredIn_of_aligned (strictMono_returnedPlace source.text) rfl
      source.aligned_text
    rw [seed, seed, names]
  let known := (seed ⟨source, options⟩).foldl (fun ns n => insertNew n ns) declared
  have linear : ∀ line ∈ source.lines, ∀ i ≤ line.code.length,
      returnedPlace source.text (line.span.start + i) =
        returnedPlace source.text line.span.start + i :=
    fun line h i hi => returnedPlace_add h hi
  obtain ⟨words, names⟩ := survey_move linear known
  rw [← lines_withReturns noReturn] at words names
  refine ⟨_, (survey known source.withReturns.lines).1.map site, _,
    outcome_diagnosis ⟨source, options⟩ declared, ?_, ?_⟩
  · rw [outcome_diagnosis, seeds, ← names]
  · have marks := congrArg (List.map fun w : Nat × String => (w.1, Code.undefinedVariable.text,
      s!"Variable '{w.2}' is used but not defined")) words
    rw [List.map_map, List.map_map] at marks
    rw [SameSites, List.map_map, List.map_map]
    exact marks

/-- The names of the checkers that count no characters across lines. -/
def returnlessNames : List String :=
  ["brackets", "keyword-suffix", "strings", "builtin-prefix", "undeclared", "data-types",
   "constructs", "semicolons"]

theorem agreesOnReturns_of_builtin {checker : Checker}
    (builtin : checker ∈ Registry.builtinCheckers)
    (named : checker.name ∈ returnlessNames) {source : Source} (noReturn : '\r' ∉ source.text) :
    checker.AgreesOnReturns source := by
  simp only [Registry.builtinCheckers, List.mem_cons, List.not_mem_nil, or_false] at builtin
  rcases builtin with rfl | rfl | rfl | rfl | rfl | rfl | rfl | rfl | rfl
  · exact Checker.agreesOnReturns_ofSites (Brackets.sameSites source)
  · exact Checker.agreesOnReturns_ofSites (KeywordSuffix.sameSites source)
  · exact Checker.agreesOnReturns_ofSites (Strings.sameSites source)
  · exact Checker.agreesOnReturns_ofSites (BuiltinCalls.sameSites noReturn)
  · exact Undeclared.agreesOnReturns noReturn
  · exact Checker.agreesOnReturns_ofSites (DataTypes.sameSites source)
  · exact absurd named (by decide)
  · exact Checker.agreesOnReturns_ofSites (Constructs.sameSites noReturn)
  · exact Checker.agreesOnReturns_ofSites (Terminators.sameSites noReturn)

/-! ### Suppression -/

theorem inline_withReturns (rules : Suppressions) {source : Source}
    (noReturn : '\r' ∉ source.text) :
    (rules.forSource source.withReturns).inline = (rules.forSource source).inline := by
  simp only [Suppressions.forSource, Suppressions.load, lines_withReturns noReturn, List.foldl_map]
  rfl

/-- What the rules leave is told by what is reported of the findings. -/
theorem map_mark_filter (rules : Suppressions) (source : Source) (findings : List Finding) :
    ((rules.forSource source).filter findings).map source.mark =
      (findings.map source.mark).filter fun m =>
        !(Suppressions.covers rules.globals m.2.1 || (rules.forSource source).inline.any fun r =>
          (r.line == m.1.line || r.line + 1 == m.1.line) &&
            Suppressions.covers r.codes m.2.1) := by
  rw [Suppressions.filter, List.filter_map]
  congr 1
  refine List.filter_congr fun f _ => ?_
  have heard : (rules.forSource source).suppressedInline f = _ :=
    Suppressions.suppressedInline_load _ source f
  rw [Suppressions.isSuppressed, heard]
  rfl

/-- What a checker of the language comes to points at its subject. -/
theorem exists_apt_of_diagnosis {checker : Checker} (builtin : checker ∈ Registry.builtinCheckers)
    {context : Context} {declared after : List String} {sites : List Site}
    (found : (checker.diagnosis context).outcome declared = (.ok sites, after)) :
    ∃ codes, ∀ s ∈ sites, s.Apt context.source.text codes := by
  obtain ⟨codes, sites', after', -, found', apt⟩ := exists_apt_of_builtin builtin context declared
  obtain rfl : sites = sites' := Except.ok.inj (Prod.mk.inj (found.symm.trans found')).1
  exact ⟨codes, apt⟩

/-- One turn: the same is reported, and the same declared. -/
theorem Checker.AgreesOnReturns.report {checker : Checker} {source : Source}
    (agrees : checker.AgreesOnReturns source) (builtin : checker ∈ Registry.builtinCheckers)
    (noReturn : '\r' ∉ source.text) (options : Options) (rules : Suppressions)
    (declared : List String) :
    let turn := checker.report ⟨source, options⟩ (rules.forSource source) declared
    let turn' := checker.report ⟨source.withReturns, options⟩
      (rules.forSource source.withReturns) declared
    turn'.1.map source.withReturns.mark = turn.1.map source.mark ∧ turn'.2 = turn.2 := by
  obtain ⟨sites, sites', after, found, found', same⟩ := agrees options declared
  obtain ⟨codes, apt⟩ := exists_apt_of_diagnosis builtin found
  obtain ⟨codes', apt'⟩ := exists_apt_of_diagnosis builtin found'
  have marks := same.map_mark noReturn apt apt' checker
  simp only [Checker.report_eq, Checker.outcome_emit, found, found', Checker.reported,
    map_mark_filter, marks, inline_withReturns rules noReturn, and_self]

/-- What a turn reports, by the positions of its findings. -/
def Source.turnMarks (source : Source) (turn : String × List Finding) :
    String × List (Position × String × String) :=
  (turn.1, turn.2.map source.mark)

/-- All turns of checkers that agree. -/
theorem takeTurns_withReturns {source : Source} (noReturn : '\r' ∉ source.text) (options : Options)
    (rules : Suppressions) (declared : List String) {checkers : List Checker}
    (builtins : ∀ c ∈ checkers, c ∈ Registry.builtinCheckers)
    (agree : ∀ c ∈ checkers, c.AgreesOnReturns source) :
    (takeTurns ⟨source.withReturns, options⟩ (rules.forSource source.withReturns) declared
        checkers).map source.withReturns.turnMarks =
      (takeTurns ⟨source, options⟩ (rules.forSource source) declared checkers).map
        source.turnMarks := by
  induction checkers generalizing declared with
  | nil => rfl
  | cons checker rest ih =>
    obtain ⟨builtin, otherBuiltins⟩ := List.forall_mem_cons.mp builtins
    obtain ⟨agrees, othersAgree⟩ := List.forall_mem_cons.mp agree
    obtain ⟨marks, after⟩ := agrees.report builtin noReturn options rules declared
    simp only [takeTurns, List.map_cons, Source.turnMarks, marks, after]
    congr 1
    exact ih _ otherBuiltins othersAgree

/-- **Line endings do not matter.** Whatever the options and the codes suppressed, a run of these
checkers on a document without returns reports at each turn the same codes and messages, at the
same lines and columns, as a run on the document with a return before each newline. Comments
suppress the same codes on the same lines. -/
theorem line_endings_do_not_matter (runner : Runner) (registered : runner.registry.HasBuiltins)
    {source : Source} (noReturn : '\r' ∉ source.text) {names : List String}
    (known : ∀ name ∈ names, name ∈ returnlessNames) :
    (∃ result result', runner.run source (some names) = .ok result ∧
      runner.run source.withReturns (some names) = .ok result' ∧
      result'.turns.map source.withReturns.turnMarks = result.turns.map source.turnMarks ∧
      result'.findings.map source.withReturns.mark = result.findings.map source.mark) ∧
    (runner.suppressions.forSource source.withReturns).inline =
      (runner.suppressions.forSource source).inline := by
  have builtinNames : ∀ name ∈ returnlessNames, name ∈ Registry.builtin.names := by decide
  obtain ⟨checkers, rfl, builtins⟩ :=
    Registry.exists_builtin_of_names fun name hn => builtinNames name (known name hn)
  have found : ∀ c ∈ checkers, runner.registry.get? c.name = some c :=
    fun c hc => registered c (builtins c hc)
  have agree : ∀ c ∈ checkers, c.AgreesOnReturns source := fun c hc =>
    agreesOnReturns_of_builtin (builtins c hc) (known c.name (List.mem_map_of_mem hc)) noReturn
  have turns := takeTurns_withReturns noReturn runner.options runner.suppressions [] builtins agree
  refine ⟨⟨_, _, runner.run_map_name found source, runner.run_map_name found source.withReturns,
    turns, ?_⟩, inline_withReturns runner.suppressions noReturn⟩
  have findings := congrArg (List.flatMap (·.2)) turns
  rw [List.flatMap_map, List.flatMap_map] at findings
  rw [RunResult.findings, RunResult.findings, List.map_flatMap, List.map_flatMap]
  exact findings

/-- A comment silences the keyword on the line below it, and the next keyword is reported. -/
theorem line_endings_do_not_matter_below_comment :
    let source : Source := .ofString "a" "# tesseract-lint: disable\nif x\n if y\n\"z"
    let names := ["strings", "keyword-suffix"]
    Registry.builtin.HasBuiltins ∧ '\r' ∉ source.text ∧
      (∀ name ∈ names, name ∈ returnlessNames) ∧
      ∃ result result', ({} : Runner).run source (some names) = .ok result ∧
        ({} : Runner).run source.withReturns (some names) = .ok result' ∧
        result'.findings.map source.withReturns.mark = result.findings.map source.mark ∧
        result.findings.map (fun f => (f.start, source.mark f)) =
          [(37, ⟨3, 0⟩, "unclosedString", "Unclosed string literal"),
           (32, ⟨2, 1⟩, "missingKeywordSuffix",
             "Keyword 'if' should be followed by $ (use 'if$')")] ∧
        result'.findings.map (·.start) = [40, 34] := by
  intro source names
  have noReturn : '\r' ∉ source.text := by decide
  have known : ∀ name ∈ names, name ∈ returnlessNames := by decide
  obtain ⟨⟨result, result', runs, runs', -, same⟩, -⟩ :=
    line_endings_do_not_matter {} Registry.hasBuiltins_builtin noReturn known
  have ran : result = ({} : Runner).runCheckers source [Strings.checker, KeywordSuffix.checker] :=
    Except.ok.inj (runs.symm.trans rfl)
  have ran' : result' = ({} : Runner).runCheckers source.withReturns
      [Strings.checker, KeywordSuffix.checker] :=
    Except.ok.inj (runs'.symm.trans rfl)
  refine ⟨Registry.hasBuiltins_builtin, noReturn, known, result, result', runs, runs', same, ?_, ?_⟩
  · rw [ran]
    decide +kernel
  · rw [ran']
    decide +kernel

end LexLint
