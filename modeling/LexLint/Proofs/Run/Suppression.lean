import LexLint.Proofs.Document.Interleaving
import LexLint.Proofs.Run.Turns
import LexLint.Proofs.View.Position

/-!
# Suppression filters what was found

The codes that a run suppresses decide nothing but which findings are left out at its end
(`suppression_is_post_filter`). With none, each checker reports what it emits less what comments
silence: the codes of a marker on the finding's own line, or on the line above it
(`Suppressions.records_load`, `Suppressions.suppressedInline_forSource`).
-/

namespace LexLint

/-- The codes that the comment of a line suppresses. -/
def Source.inlineCodes (source : Source) (number : Nat) : List String :=
  ((source.lines[number]?).bind Line.suppressedCodes?).getD []

/-- The lines whose comments speak for a line: itself and the one directly above. -/
def speakingLines : Nat → List Nat
  | 0 => [0]
  | line + 1 => [line + 1, line]

/-- A comment that speaks for the line on which a finding starts names its code, or all codes. -/
def Source.Silences (source : Source) (f : Finding) : Prop :=
  ∃ n ∈ speakingLines (lineAt source.text f.start.toNat),
    f.code ∈ source.inlineCodes n ∨ everyCode ∈ source.inlineCodes n

instance (source : Source) : DecidablePred source.Silences :=
  fun f => inferInstanceAs (Decidable (∃ n ∈ speakingLines (lineAt source.text f.start.toNat),
    f.code ∈ source.inlineCodes n ∨ everyCode ∈ source.inlineCodes n))

theorem mem_speakingLines {n line : Nat} : n ∈ speakingLines line ↔ n = line ∨ n + 1 = line := by
  cases line <;> simp [speakingLines]

namespace Suppressions

theorem covers_iff {codes : List String} {code : String} :
    covers codes code = true ↔ code ∈ codes ∨ everyCode ∈ codes := by
  simp [covers]

/-- A code is suppressed on a line. -/
def Records (s : Suppressions) (n : Nat) (code : String) : Prop :=
  ∃ r ∈ s.inline, r.line = n ∧ code ∈ r.codes

/-- Whether codes join the rule of a line or make a new one, they count from then on. -/
theorem exists_mem_addInlineRule {line n : Nat} {codes : List String} {code : String}
    {rules : List InlineRule} :
    (∃ r ∈ addInlineRule line codes rules, r.line = n ∧ code ∈ r.codes) ↔
      (line = n ∧ code ∈ codes) ∨ ∃ r ∈ rules, r.line = n ∧ code ∈ r.codes := by
  induction rules with
  | nil => simp [addInlineRule, mem_foldl_insertNew]
  | cons r rest ih =>
    by_cases same : r.line = line
    · simp only [addInlineRule, same, if_true, List.mem_cons, exists_eq_or_imp, mem_foldl_insertNew,
        and_or_left, or_assoc]
    · simp only [addInlineRule, same, if_false, List.mem_cons, exists_eq_or_imp, ih]
      exact or_left_comm

/-- The rules read from lines are those that the lines' comments give. -/
theorem exists_mem_foldl_addInlineRule {n : Nat} {code : String} (lines : List Line)
    (rules : List InlineRule) :
    (∃ r ∈ lines.foldl (fun rules line =>
        match line.suppressedCodes? with
        | some codes => addInlineRule line.number codes rules
        | none => rules) rules, r.line = n ∧ code ∈ r.codes) ↔
      (∃ r ∈ rules, r.line = n ∧ code ∈ r.codes) ∨
        ∃ line ∈ lines, line.number = n ∧ code ∈ line.suppressedCodes?.getD [] := by
  induction lines generalizing rules with
  | nil => simp
  | cons line rest ih =>
    simp only [List.foldl_cons, ih, List.mem_cons, exists_eq_or_imp]
    cases line.suppressedCodes? with
    | none => simp
    | some codes =>
      simp only [exists_mem_addInlineRule, Option.getD_some]
      rw [or_assoc, or_left_comm]

/-- Reading a document records what its comments say, beside what was recorded before. -/
theorem records_load (s : Suppressions) (source : Source) (n : Nat) (code : String) :
    (s.load source).Records n code ↔ s.Records n code ∨ code ∈ source.inlineCodes n := by
  refine (exists_mem_foldl_addInlineRule source.lines s.inline).trans (or_congr_right ?_)
  rw [Source.inlineCodes]
  constructor
  · rintro ⟨line, member, rfl, told⟩
    obtain ⟨n, at_n⟩ := List.getElem?_of_mem member
    obtain rfl := Source.number_of_getElem?_lines at_n
    simpa only [at_n, Option.bind_some] using told
  · intro told
    cases at_n : source.lines[n]? with
    | none => simp [at_n] at told
    | some line =>
      obtain rfl := Source.number_of_getElem?_lines at_n
      refine ⟨line, List.mem_of_getElem? at_n, rfl, ?_⟩
      simpa only [at_n, Option.bind_some] using told

/-- The rules of a document are asked for the line of a finding. -/
theorem suppressedInline_load (s : Suppressions) (source : Source) (f : Finding) :
    (s.load source).suppressedInline f =
      (s.load source).inline.any fun r =>
        (r.line == (source.index.position f.start).line ||
          r.line + 1 == (source.index.position f.start).line) && covers r.codes f.code := by
  rw [suppressedInline]
  change (if _ then _ else _) = _
  split
  · rename_i empty
    rw [List.isEmpty_iff.mp empty]
    rfl
  · rfl

/-- What is recorded on a line silences findings there and on the line below. -/
theorem suppressedInline_load_iff (s : Suppressions) (source : Source) (f : Finding) :
    (s.load source).suppressedInline f = true ↔
      ∃ n ∈ speakingLines (lineAt source.text f.start.toNat),
        (s.load source).Records n f.code ∨ (s.load source).Records n everyCode := by
  rw [suppressedInline_load, position_line_eq_lineAt]
  simp only [List.any_eq_true, Bool.and_eq_true, Bool.or_eq_true, beq_iff_eq, covers_iff,
    mem_speakingLines, Records]
  constructor
  · rintro ⟨r, member, near, covered⟩
    exact ⟨r.line, near, covered.imp (⟨r, member, rfl, ·⟩) (⟨r, member, rfl, ·⟩)⟩
  · rintro ⟨n, near, ⟨r, member, rfl, named⟩ | ⟨r, member, rfl, named⟩⟩
    · exact ⟨r, member, near, .inl named⟩
    · exact ⟨r, member, near, .inr named⟩

/-- Comments silence a finding from its own line and from the one above. -/
theorem suppressedInline_forSource (s : Suppressions) (source : Source) (f : Finding) :
    (s.forSource source).suppressedInline f = true ↔ source.Silences f := by
  have fresh (n : Nat) (code : String) :
      (s.forSource source).Records n code ↔ code ∈ source.inlineCodes n := by
    refine (records_load _ source n code).trans (or_iff_right ?_)
    rintro ⟨r, member, -⟩
    cases member
  refine (suppressedInline_load_iff _ source f).trans ?_
  exact exists_congr fun n => and_congr_right fun _ => or_congr (fresh n f.code) (fresh n everyCode)

/-- What the rules of a document leave: first the comments are heard, then the codes suppressed
everywhere. -/
theorem filter_forSource (s : Suppressions) (source : Source) (findings : List Finding) :
    (s.forSource source).filter findings =
      (findings.filter fun f => ¬ source.Silences f).filter fun f =>
        f.code ∉ s.globals ∧ everyCode ∉ s.globals := by
  rw [filter, List.filter_filter]
  refine List.filter_congr fun f _ => ?_
  have global : covers (s.forSource source).globals f.code = true ↔
      f.code ∈ s.globals ∨ everyCode ∈ s.globals := covers_iff
  have inline := suppressedInline_forSource s source f
  rw [Bool.eq_iff_iff]
  simp only [isSuppressed, Bool.not_eq_true', Bool.or_eq_false_iff, Bool.and_eq_true,
    decide_eq_true_eq, ← global, ← inline, ← not_or, Bool.not_eq_true]

end Suppressions

namespace Runner

/-- The runner without the codes that it suppresses. -/
def unsuppressed (runner : Runner) : Runner := { runner with suppressions := {} }

/-- The runner with one more code suppressed. -/
def suppressing (runner : Runner) (code : String) : Runner :=
  { runner with suppressions := runner.suppressions.suppress code }

/-- The runner as it would be, had it kept the rules read from a document. -/
def retaining (runner : Runner) (document : Source) : Runner :=
  { runner with suppressions := runner.suppressions.forSource document }

/-- What a run reports of checkers that emit findings and do not fail. -/
theorem turns_of_emissions (runner : Runner) {source : Source} {checkers : List Checker}
    {emitted : List (List Finding)}
    (h : emissions ⟨source, runner.options⟩ [] checkers =
      List.zipWith (fun c findings => (c, .ok findings)) checkers emitted) :
    (runner.runCheckers source checkers).turns =
      List.zipWith (fun c findings =>
        (c.name, (runner.suppressions.forSource source).filter findings)) checkers emitted := by
  rw [runCheckers, takeTurns_eq_map, h, List.map_zipWith]
  rfl

/-- Without suppressed codes, comments alone silence findings. -/
theorem turns_unsuppressed (runner : Runner) {source : Source} {checkers : List Checker}
    {emitted : List (List Finding)}
    (h : emissions ⟨source, runner.options⟩ [] checkers =
      List.zipWith (fun c findings => (c, .ok findings)) checkers emitted) :
    (runner.unsuppressed.runCheckers source checkers).turns =
      List.zipWith (fun c findings =>
        (c.name, findings.filter fun f => ¬ source.Silences f)) checkers emitted := by
  rw [runner.unsuppressed.turns_of_emissions h]
  simp [unsuppressed, Suppressions.filter_forSource]

theorem findings_eq_filter (runner : Runner) {source : Source} {checkers : List Checker}
    {emitted : List (List Finding)}
    (h : emissions ⟨source, runner.options⟩ [] checkers =
      List.zipWith (fun c findings => (c, .ok findings)) checkers emitted) :
    (runner.runCheckers source checkers).findings =
      (runner.unsuppressed.runCheckers source checkers).findings.filter fun f =>
        f.code ∉ runner.suppressions.globals ∧ everyCode ∉ runner.suppressions.globals := by
  rw [RunResult.findings, RunResult.findings, runner.turns_of_emissions h,
    runner.turns_unsuppressed h]
  simp only [List.flatMap_def, List.filter_flatten, List.map_zipWith, Suppressions.filter_forSource]

/-- One more suppressed code touches no finding of another. -/
theorem withCode_suppressing (runner : Runner) {source : Source} {checkers : List Checker}
    {emitted : List (List Finding)}
    (h : emissions ⟨source, runner.options⟩ [] checkers =
      List.zipWith (fun c findings => (c, .ok findings)) checkers emitted)
    {code other : String} (single : code ≠ everyCode) (differ : other ≠ code) :
    ((runner.suppressing code).runCheckers source checkers).withCode other =
      (runner.runCheckers source checkers).withCode other := by
  rw [RunResult.withCode, RunResult.withCode, runner.findings_eq_filter h,
    (runner.suppressing code).findings_eq_filter h, List.filter_filter, List.filter_filter]
  change List.filter _ (runner.unsuppressed.runCheckers source checkers).findings = _
  refine List.filter_congr fun f _ => ?_
  by_cases named : f.code = other
  · have globals : (runner.suppressing code).suppressions.globals =
        insertNew code runner.suppressions.globals := rfl
    simp [named, globals, mem_insertNew, differ, Ne.symm single]
  · rw [beq_eq_false_iff_ne.mpr named, Bool.false_and, Bool.false_and]

end Runner

/-- **Suppression is a filter after the run.** A run finds what it would without any suppressed
code, less the findings of those codes; and without them each checker reports what it emits, less
what the comments on a finding's line and on the line above silence. So a suppressed code touches
no finding of another code. A run hands back no rules, a linter keeps its runner as it is, and had
the rules read from some document been kept, they would change no later run. -/
theorem suppression_is_post_filter (runner : Runner) (registered : runner.registry.HasBuiltins)
    (source : Source) {names : List String}
    (known : ∀ name ∈ names, name ∈ Registry.builtin.names) :
    ∃ checkers emitted result plain,
      checkers.map (·.name) = names ∧ (∀ c ∈ checkers, c ∈ Registry.builtinCheckers) ∧
      emissions ⟨source, runner.options⟩ [] checkers =
        List.zipWith (fun c findings => (c, .ok findings)) checkers emitted ∧
      runner.run source (some names) = .ok result ∧
      runner.unsuppressed.run source (some names) = .ok plain ∧
      plain.turns = List.zipWith (fun c findings =>
        (c.name, findings.filter fun f => ¬ source.Silences f)) checkers emitted ∧
      result.findings = plain.findings.filter (fun f =>
        f.code ∉ runner.suppressions.globals ∧ everyCode ∉ runner.suppressions.globals) ∧
      (∀ code other, code ≠ everyCode → other ≠ code →
        ∃ fewer, (runner.suppressing code).run source (some names) = .ok fewer ∧
          fewer.withCode other = result.withCode other) ∧
      (∀ document, (runner.retaining document).run source (some names) = .ok result) ∧
      ∀ (linter : Linter) ticket, (linter.commit ticket).linter.runner = linter.runner := by
  obtain ⟨checkers, rfl, builtins⟩ := Registry.exists_builtin_of_names known
  have found : ∀ c ∈ checkers, runner.registry.get? c.name = some c :=
    fun c hc => registered c (builtins c hc)
  obtain ⟨emitted, -, emits⟩ :=
    exists_emissions_of_builtin builtins ⟨source, runner.options⟩ []
  refine ⟨checkers, emitted, _, _, rfl, builtins, emits, runner.run_map_name found source,
    runner.unsuppressed.run_map_name found source,
    runner.turns_unsuppressed emits, runner.findings_eq_filter emits, ?_, ?_,
    Linter.commit_runner⟩
  · intro code other single differ
    exact ⟨_, (runner.suppressing code).run_map_name found source,
      runner.withCode_suppressing emits single differ⟩
  · intro document
    exact (runner.retaining document).run_map_name found source

/-- A suppressed code, a marker on the line above, and a checker that runs twice. -/
theorem suppression_is_post_filter_repeated :
    let runner : Runner := { suppressions := { globals := ["missingSemicolon"] } }
    let source : Source := .ofString "a" "# tesseract-lint: disable=undefinedVariable\nf(x)\ng(y)"
    let names := ["undeclared", "semicolons", "undeclared"]
    runner.registry.HasBuiltins ∧ (∀ name ∈ names, name ∈ Registry.builtin.names) ∧
      ∃ result plain, runner.run source (some names) = .ok result ∧
        runner.unsuppressed.run source (some names) = .ok plain ∧
        result.findings = plain.findings.filter (fun f =>
          f.code ∉ ["missingSemicolon"] ∧ everyCode ∉ ["missingSemicolon"]) := by
  intro runner source names
  have known : ∀ name ∈ names, name ∈ Registry.builtin.names := by decide
  obtain ⟨_, _, result, plain, -, -, -, runs, plainRuns, -, filtered, -⟩ :=
    suppression_is_post_filter runner Registry.hasBuiltins_builtin source known
  exact ⟨Registry.hasBuiltins_builtin, known, result, plain, runs, plainRuns, filtered⟩

end LexLint
