import LexLint.Checker.Scripted
import LexLint.Proofs.Run.Turns
import Mathlib.Algebra.Ring.Nat

/-!
# Checkers are independent

A run of the language's checkers is the runs of its single checkers one after the other, as long
as undeclared names are looked for once at most; and a checker that fails adds its failure to a run
and nothing else (`checkers_independent`). All checkers of a run share the declared names. Only one
of the language's checkers reads or extends them, and one that fails without a declaration hands
them on as they were.
-/

namespace LexLint

/-- A checker fails in a phase, and has declared nothing up to there. -/
inductive Checker.FailsIn (checker : Checker) (context : Context) (declared : List String)
    (message : String) : PhaseName → Prop
  | configure
      (fails : (checker.configure context).outcome declared = (.error message, declared)) :
      FailsIn checker context declared message .configure
  | collect
      (configured : (checker.configure context).outcome declared = (.ok (), declared))
      (fails : (checker.collect context).outcome declared = (.error message, declared)) :
      FailsIn checker context declared message .collect
  | diagnose {collected : List Site}
      (configured : (checker.configure context).outcome declared = (.ok (), declared))
      (collects : (checker.collect context).outcome declared = (.ok collected, declared))
      (fails : (checker.diagnose context collected).outcome declared =
        (.error message, declared)) :
      FailsIn checker context declared message .diagnose

/-- Whatever the phase, nothing is left of a checker that fails but its message. -/
theorem Checker.FailsIn.outcome_emit {checker : Checker} {context : Context}
    {declared : List String} {message : String} {phase : PhaseName}
    (h : checker.FailsIn context declared message phase) :
    (checker.emit context).outcome declared = (.error message, declared) := by
  cases h with
  | configure fails => simp only [emit, Phase.outcome_bind, fails]
  | collect configured fails => simp only [emit, Phase.outcome_bind, configured, fails]
  | diagnose configured collects fails =>
    simp only [emit, Phase.outcome_bind, configured, collects, fails]

/-- A failing checker leaves what the others emit as it was. -/
theorem emissions_insert_failing {context : Context} {declared : List String}
    {earlier : List Checker} {failing : Checker} {message : String} {phase : PhaseName}
    (h : failing.FailsIn context (declaredAfter context declared earlier) message phase)
    (later : List Checker) :
    emissions context declared (earlier ++ failing :: later) =
      emissions context declared earlier ++ (failing, .error message) ::
        emissions context (declaredAfter context declared earlier) later := by
  rw [emissions_append, emissions, h.outcome_emit]

/-- Where undeclared names are looked for once at most, each checker emits what it would alone. -/
theorem emissions_of_builtin {checkers : List Checker}
    (h : ∀ c ∈ checkers, c ∈ Registry.builtinCheckers)
    (once : (checkers.map (·.name)).count Undeclared.checker.name ≤ 1) (context : Context) :
    emissions context [] checkers =
      checkers.map fun c => (c, ((c.emit context).outcome []).1) := by
  induction checkers with
  | nil => rfl
  | cons checker rest ih =>
    have builtins : ∀ c ∈ rest, c ∈ Registry.builtinCheckers := fun c hc =>
      h c (List.mem_cons_of_mem checker hc)
    rw [List.map_cons, List.count_cons] at once
    rcases detached_of_builtin (h checker List.mem_cons_self) with rfl | detached
    · -- The names it declares are of no concern to those that come after it.
      have absent : Undeclared.checker.name ∉ rest.map (·.name) := by
        simp only [beq_self_eq_true, if_true] at once
        exact List.count_eq_zero.mp (by omega)
      have others : ∀ c ∈ rest, c.Detached := by
        intro c hc
        rcases detached_of_builtin (builtins c hc) with rfl | detached
        · exact absurd (List.mem_map_of_mem hc) absent
        · exact detached
      simp only [emissions, emissions_of_detached others context _ [], List.map_cons]
    · have quiet := detached context [] []
      have later := ih builtins (by omega)
      simp only [emissions, List.map_cons]
      rw [quiet, later]

theorem putEntry_of_not_mem {α : Type} {key : String} {entries : List (String × α)}
    (h : key ∉ entries.map (·.1)) (value : α) :
    putEntry key value entries = entries ++ [(key, value)] := by
  induction entries with
  | nil => rfl
  | cons entry rest ih =>
    obtain ⟨k, v⟩ := entry
    simp only [List.map_cons, List.mem_cons, not_or] at h
    simp only [putEntry, Ne.symm h.1, if_false, ih h.2, List.cons_append]

/-- Where no checker runs twice, the table by checker is the list of turns. -/
theorem foldl_putEntry {α : Type} {turns entries : List (String × α)}
    (h : ((entries ++ turns).map (·.1)).Nodup) :
    turns.foldl (fun entries t => putEntry t.1 t.2 entries) entries = entries ++ turns := by
  induction turns generalizing entries with
  | nil => simp
  | cons turn rest ih =>
    rw [List.append_cons] at h
    have fresh : turn.1 ∉ entries.map (·.1) := by
      rw [List.append_assoc, List.map_append, List.nodup_append] at h
      intro member
      exact h.2.2 _ member _ (by simp) rfl
    rw [List.foldl_cons, putEntry_of_not_mem fresh, ih h, List.append_assoc]
    rfl

namespace Runner

variable (runner : Runner) (source : Source)

theorem map_name_turns (checkers : List Checker) :
    (runner.runCheckers source checkers).turns.map (·.1) = checkers.map (·.name) := by
  rw [runCheckers, takeTurns_eq_map, List.map_map]
  generalize ([] : List String) = declared
  induction checkers generalizing declared with
  | nil => rfl
  | cons checker rest ih => simp only [emissions, List.map_cons, Function.comp, ih]

/-- What a checker reports when it runs alone. -/
theorem runCheckers_single (checker : Checker) :
    (runner.runCheckers source [checker]).findings =
      checker.reported (runner.suppressions.forSource source)
        ((checker.emit ⟨source, runner.options⟩).outcome []).1 := by
  simp [runCheckers, RunResult.findings, takeTurns_eq_map, emissions]

theorem mapM_run_single {checkers : List Checker}
    (h : ∀ c ∈ checkers, runner.registry.get? c.name = some c) :
    (checkers.map (·.name)).mapM (fun name => runner.run source (some [name])) =
      .ok (checkers.map fun c => runner.runCheckers source [c]) := by
  induction checkers with
  | nil => rfl
  | cons checker rest ih =>
    obtain ⟨member, others⟩ := List.forall_mem_cons.mp h
    have single : ∀ c ∈ [checker], runner.registry.get? c.name = some c := by simpa using member
    have here := runner.run_map_name single source
    rw [List.map_cons, List.map_nil] at here
    rw [List.map_cons, List.mapM_cons, here, ih others]
    rfl

/-- The findings of a run are those of its checkers running alone. -/
theorem findings_eq_flatMap_single {checkers : List Checker}
    (h : ∀ c ∈ checkers, c ∈ Registry.builtinCheckers)
    (once : (checkers.map (·.name)).count Undeclared.checker.name ≤ 1) :
    (runner.runCheckers source checkers).findings =
      checkers.flatMap fun c => (runner.runCheckers source [c]).findings := by
  simp only [runCheckers_single]
  rw [runCheckers, RunResult.findings, takeTurns_eq_map, emissions_of_builtin h once]
  simp only [List.map_map, List.flatMap_map, Function.comp_def]

theorem byChecker_of_nodup {checkers : List Checker} (h : (checkers.map (·.name)).Nodup) :
    (runner.runCheckers source checkers).byChecker =
      (runner.runCheckers source checkers).turns := by
  have distinct := runner.map_name_turns source checkers ▸ h
  exact foldl_putEntry (List.nil_append _ ▸ distinct)

/-- A failing checker adds one turn, whatever the rules of suppression. -/
theorem turns_insert_failing {earlier : List Checker} {failing : Checker} {message : String}
    {phase : PhaseName}
    (h : failing.FailsIn ⟨source, runner.options⟩
      (declaredAfter ⟨source, runner.options⟩ [] earlier) message phase)
    (later : List Checker) :
    ∃ left right, (runner.runCheckers source (earlier ++ later)).turns = left ++ right ∧
      left.map (·.1) = earlier.map (·.name) ∧
      (runner.runCheckers source (earlier ++ failing :: later)).turns =
        left ++ (failing.name, [failing.failure message]) :: right := by
  let context : Context := ⟨source, runner.options⟩
  let rules := runner.suppressions.forSource source
  refine ⟨takeTurns context rules [] earlier,
    takeTurns context rules (declaredAfter context [] earlier) later, ?_,
    runner.map_name_turns source earlier, ?_⟩
  · simp only [runCheckers, takeTurns_eq_map, emissions_append, List.map_append, context, rules]
  · simp only [runCheckers, takeTurns_eq_map, emissions_insert_failing h, List.map_append,
      List.map_cons, Checker.reported, context, rules]

end Runner

/-- **Checkers are independent, and a crash is contained.** A run finds what its checkers find one
by one; if no checker runs twice, the table by checker holds the same findings. A checker put
anywhere among them that fails in some phase, and declares nothing, adds one warning at the start
of the text, which no rule suppresses, and changes nothing else. -/
theorem checkers_independent (runner : Runner) (registered : runner.registry.HasBuiltins)
    (source : Source) {names : List String}
    (known : ∀ name ∈ names, name ∈ Registry.builtin.names) :
    ∃ result, runner.run source (some names) = .ok result ∧
      (names.count Undeclared.checker.name ≤ 1 →
        ∃ singles, names.mapM (fun name => runner.run source (some [name])) = .ok singles ∧
          result.findings = singles.flatMap RunResult.findings) ∧
      (names.Nodup →
        result.findings = result.byChecker.flatMap (·.2) ∧
        (result.byChecker.map (·.2.length)).sum = result.findings.length) ∧
      ∀ before after earlier failing message phase, names = before ++ after →
        runner.registry.resolve (some before) = .ok earlier →
        runner.registry.get? failing.name = some failing →
        failing.FailsIn ⟨source, runner.options⟩
          (declaredAfter ⟨source, runner.options⟩ [] earlier) message phase →
        ∃ left right crashed, result.turns = left ++ right ∧ left.map (·.1) = before ∧
          runner.run source (some (before ++ failing.name :: after)) = .ok crashed ∧
          crashed.turns = left ++ (failing.name,
            [{ start := 0
               stop := 0
               message := s!"Checker '{failing.name}' failed: {message}"
               severity := .warning
               code := Code.checkerInternalError.text
               checker := failing.name }]) :: right := by
  obtain ⟨checkers, rfl, builtins⟩ := Registry.exists_builtin_of_names known
  have found : ∀ c ∈ checkers, runner.registry.get? c.name = some c :=
    fun c hc => registered c (builtins c hc)
  refine ⟨_, runner.run_map_name found source, fun once => ?_, fun distinct => ?_, ?_⟩
  · refine ⟨_, runner.mapM_run_single source found, ?_⟩
    rw [runner.findings_eq_flatMap_single source builtins once, List.flatMap_map]
  · rw [runner.byChecker_of_nodup source distinct, RunResult.findings, List.length_flatMap]
    exact ⟨rfl, rfl⟩
  · intro before after earlier failing message phase split first get fails
    obtain ⟨front, back, rfl, rfl, rfl⟩ := List.map_eq_append_iff.mp split
    obtain ⟨foundFront, foundBack⟩ := List.forall_mem_append.mp found
    -- The names before the failing checker stand for the checkers they are names of.
    rw [Registry.resolve_map_name foundFront] at first
    obtain rfl := Except.ok.inj first
    obtain ⟨left, right, whole, leftNames, crashed⟩ :=
      runner.turns_insert_failing source fails back
    refine ⟨left, right, _, whole, leftNames, ?_, crashed⟩
    have all : ∀ c ∈ front ++ failing :: back, runner.registry.get? c.name = some c :=
      List.forall_mem_append.mpr ⟨foundFront, List.forall_mem_cons.mpr ⟨get, foundBack⟩⟩
    simpa only [List.map_append, List.map_cons] using runner.run_map_name all source

/-- A checker that reports something and then fails, between two others, where every code is
suppressed. -/
theorem checkers_independent_late_crash :
    let script : Script :=
      { name := "probe", description := "", codes := [], severity := .error, declare := []
        emit := [⟨"probe", "seen", 0, 1, none⟩], fails := some .diagnose, message := "boom" }
    let runner : Runner :=
      { registry := Registry.builtin.register script.checker
        suppressions := { globals := [everyCode] } }
    let source : Source := .ofString "a" "f(x # tesseract-lint: disable"
    runner.registry.HasBuiltins ∧
      (∀ name ∈ ["undeclared", "brackets"], name ∈ Registry.builtin.names) ∧
      ∃ result crashed left right,
        runner.run source (some ["undeclared", "brackets"]) = .ok result ∧
        runner.run source (some ["undeclared", "probe", "brackets"]) = .ok crashed ∧
        result.turns = left ++ right ∧
        crashed.turns = left ++ ("probe", [⟨0, 0, "Checker 'probe' failed: boom", .warning,
          "checkerInternalError", "probe"⟩]) :: right := by
  intro script runner source
  have registered : runner.registry.HasBuiltins := by
    intro c hc
    simp only [Registry.builtinCheckers, List.mem_cons, List.not_mem_nil, or_false] at hc
    rcases hc with rfl | rfl | rfl | rfl | rfl | rfl | rfl | rfl | rfl <;> rfl
  have known : ∀ name ∈ ["undeclared", "brackets"], name ∈ Registry.builtin.names := by
    decide
  obtain ⟨result, runs, -, -, inserted⟩ := checkers_independent runner registered source known
  obtain ⟨left, right, crashed, whole, -, crashes, turns⟩ := inserted ["undeclared"] ["brackets"]
    [Undeclared.checker] script.checker "boom" .diagnose rfl rfl rfl (.diagnose rfl rfl rfl)
  exact ⟨registered, known, result, crashed, left, right, runs, crashes, whole, turns⟩

end LexLint
