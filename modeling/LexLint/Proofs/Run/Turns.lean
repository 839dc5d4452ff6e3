import LexLint.Run

/-!
# What checkers emit, and what a run reports of it

A run reports what its checkers emit, filtered by the rules of suppression, and the failures of
those that fail (`takeTurns_eq_map`). What they emit does not depend on the rules. The checkers of
the language are found by their names (`Runner.run_map_name`) and never fail
(`exists_emissions_of_builtin`); all but one of them neither read nor declare names
(`detached_of_builtin`).
-/

namespace LexLint

theorem mem_foldl_insertNew {α : Type} [DecidableEq α] {y : α} {xs ys : List α} :
    y ∈ xs.foldl (fun zs x => insertNew x zs) ys ↔ y ∈ xs ∨ y ∈ ys := by
  induction xs generalizing ys with
  | nil => simp
  | cons x rest ih =>
    rw [List.foldl_cons, ih, mem_insertNew, List.mem_cons]
    grind

namespace Phase

variable {α β : Type}

theorem outcome_pure (a : α) (declared : List String) :
    (pure a : Phase α).outcome declared = (.ok a, declared) :=
  rfl

/-- The second step runs on what the first has declared, unless that failed. -/
theorem outcome_bind (first : Phase α) (second : α → Phase β) (declared : List String) :
    (first >>= second).outcome declared =
      match first.outcome declared with
      | (.ok a, known) => (second a).outcome known
      | (.error message, known) => (.error message, known) := by
  simp only [outcome, ExceptT.run_bind, StateT.run_bind]
  rcases StateT.run first.run declared with ⟨failed | done, known⟩
  · rfl
  · rfl

end Phase

namespace Checker

/-- The sites that a checker comes to in its three phases, their ranges as it gives them. -/
def diagnosis (checker : Checker) (context : Context) : Phase (List Site) := do
  checker.configure context
  let collected ← checker.collect context
  checker.diagnose context collected

/-- A checker emits a finding for each of its sites. -/
theorem outcome_emit (checker : Checker) (context : Context) (declared : List String) :
    (checker.emit context).outcome declared =
      match (checker.diagnosis context).outcome declared with
      | (.ok sites, known) => (.ok (sites.map (checker.finding context.source.length)), known)
      | (.error message, known) => (.error message, known) := by
  simp only [emit, diagnosis, Phase.outcome_bind]
  rcases (checker.configure context).outcome declared with ⟨failed | done, known⟩
  · rfl
  rcases h : (checker.collect context).outcome known with ⟨failed | collected, known'⟩
  · simp only [h]
  rcases h' : (checker.diagnose context collected).outcome known' with ⟨failed | sites, known''⟩
  · simp only [h, h']
  · simp only [h, h', Phase.outcome_pure]

/-- What a checker emits, before suppression. -/
def Emits (checker : Checker) (context : Context) (declared : List String)
    (findings : List Finding) : Prop :=
  ((checker.emit context).outcome declared).1 = .ok findings

/-- What a checker reports of what it emitted, or of its failure. -/
def reported (rules : Suppressions) (checker : Checker) :
    Except String (List Finding) → List Finding
  | .ok findings => rules.filter findings
  | .error message => [checker.failure message]

theorem report_eq (checker : Checker) (context : Context) (rules : Suppressions)
    (declared : List String) :
    checker.report context rules declared =
      (checker.reported rules ((checker.emit context).outcome declared).1,
       ((checker.emit context).outcome declared).2) := by
  unfold report
  rcases (checker.emit context).outcome declared with ⟨failed | findings, known⟩
  · rfl
  · rfl

/-- A checker that emits the same whatever is declared, and declares nothing. -/
def Detached (checker : Checker) : Prop :=
  ∀ context declared other, (checker.emit context).outcome declared =
    (((checker.emit context).outcome other).1, declared)

theorem detached_ofSites (name title description : String) (codes : List Code)
    (sites : Source → Options → List Site) :
    (ofSites name title description codes sites).Detached :=
  fun _ _ _ => rfl

end Checker

/-- The names that are declared once checkers have had their turns. -/
def declaredAfter (context : Context) (declared : List String) : List Checker → List String
  | [] => declared
  | checker :: rest => declaredAfter context ((checker.emit context).outcome declared).2 rest

/-- What each checker emits at its turn, or why it fails. -/
def emissions (context : Context) (declared : List String) :
    List Checker → List (Checker × Except String (List Finding))
  | [] => []
  | checker :: rest =>
    let turn := (checker.emit context).outcome declared
    (checker, turn.1) :: emissions context turn.2 rest

/-- Suppression comes after all that is emitted. -/
theorem takeTurns_eq_map (context : Context) (rules : Suppressions) (declared : List String)
    (checkers : List Checker) :
    takeTurns context rules declared checkers =
      (emissions context declared checkers).map fun turn =>
        (turn.1.name, turn.1.reported rules turn.2) := by
  induction checkers generalizing declared with
  | nil => rfl
  | cons checker rest ih =>
    simp only [takeTurns, Checker.report_eq, emissions, List.map_cons, ih]

/-- At each turn one of the checkers reports, given the names that are declared by then. -/
theorem exists_report_of_mem_takeTurns {context : Context} {rules : Suppressions}
    {declared : List String} {checkers : List Checker} {turn : String × List Finding}
    (h : turn ∈ takeTurns context rules declared checkers) :
    ∃ checker ∈ checkers, ∃ known,
      turn = (checker.name, (checker.report context rules known).1) := by
  induction checkers generalizing declared with
  | nil => cases h
  | cons checker rest ih =>
    rcases List.mem_cons.mp h with rfl | later
    · exact ⟨checker, List.mem_cons_self, declared, rfl⟩
    · obtain ⟨c, inRest, known, same⟩ := ih later
      exact ⟨c, List.mem_cons_of_mem checker inRest, known, same⟩

theorem emissions_append (context : Context) (declared : List String)
    (earlier later : List Checker) :
    emissions context declared (earlier ++ later) = emissions context declared earlier ++
      emissions context (declaredAfter context declared earlier) later := by
  induction earlier generalizing declared with
  | nil => rfl
  | cons checker rest ih => simp only [List.cons_append, emissions, declaredAfter, ih]

theorem emissions_of_detached {checkers : List Checker} (h : ∀ c ∈ checkers, c.Detached)
    (context : Context) (declared other : List String) :
    emissions context declared checkers =
      checkers.map fun c => (c, ((c.emit context).outcome other).1) := by
  induction checkers with
  | nil => rfl
  | cons checker rest ih =>
    have here := h checker List.mem_cons_self context declared other
    have later := ih fun c hc => h c (List.mem_cons_of_mem checker hc)
    simp only [emissions, here, later, List.map_cons]

theorem Undeclared.outcome_diagnosis (context : Context) (declared : List String) :
    (checker.diagnosis context).outcome declared =
      let known := (seed context).foldl (fun ns n => insertNew n ns) declared
      (.ok ((survey known context.source.lines).1.map site),
       (survey known context.source.lines).2) :=
  rfl

/-- All checkers of the language but one are given by their sites. -/
theorem ofSites_of_builtin {checker : Checker} (h : checker ∈ Registry.builtinCheckers) :
    checker = Undeclared.checker ∨ ∃ name title description codes sites,
      checker = .ofSites name title description codes sites := by
  simp only [Registry.builtinCheckers, List.mem_cons, List.not_mem_nil, or_false] at h
  rcases h with rfl | rfl | rfl | rfl | rfl | rfl | rfl | rfl | rfl
  case inr.inr.inr.inr.inl => exact .inl rfl
  all_goals exact .inr ⟨_, _, _, _, _, rfl⟩

theorem detached_of_builtin {checker : Checker} (h : checker ∈ Registry.builtinCheckers) :
    checker = Undeclared.checker ∨ checker.Detached := by
  rcases ofSites_of_builtin h with undeclared | ⟨name, title, description, codes, sites, rfl⟩
  · exact .inl undeclared
  · exact .inr (Checker.detached_ofSites name title description codes sites)

/-- The checkers of the language do not fail. -/
theorem exists_diagnosis_of_builtin {checker : Checker} (h : checker ∈ Registry.builtinCheckers)
    (context : Context) (declared : List String) :
    ∃ sites known, (checker.diagnosis context).outcome declared = (.ok sites, known) := by
  rcases ofSites_of_builtin h with rfl | ⟨name, title, description, codes, sites, rfl⟩
  · exact ⟨_, _, Undeclared.outcome_diagnosis context declared⟩
  · exact ⟨_, _, rfl⟩

/-- What the checkers of the language emit at their turns. -/
theorem exists_emissions_of_builtin {checkers : List Checker}
    (h : ∀ c ∈ checkers, c ∈ Registry.builtinCheckers) (context : Context)
    (declared : List String) :
    ∃ emitted : List (List Finding), emitted.length = checkers.length ∧
      emissions context declared checkers =
        List.zipWith (fun c findings => (c, .ok findings)) checkers emitted := by
  induction checkers generalizing declared with
  | nil => exact ⟨[], rfl, rfl⟩
  | cons checker rest ih =>
    obtain ⟨sites, known, diagnoses⟩ :=
      exists_diagnosis_of_builtin (h checker List.mem_cons_self) context declared
    obtain ⟨emitted, size, later⟩ := ih (fun c hc => h c (List.mem_cons_of_mem checker hc)) known
    refine ⟨sites.map (checker.finding context.source.length) :: emitted, ?_, ?_⟩
    · simp only [List.length_cons, size]
    · simp only [emissions, Checker.outcome_emit, diagnoses, later, List.zipWith_cons_cons]

namespace Registry

/-- The checkers of the language are registered under their names; there may be others. -/
def HasBuiltins (r : Registry) : Prop := ∀ c ∈ builtinCheckers, r.get? c.name = some c

theorem hasBuiltins_builtin : builtin.HasBuiltins := by
  intro c hc
  simp only [builtinCheckers, List.mem_cons, List.not_mem_nil, or_false] at hc
  rcases hc with rfl | rfl | rfl | rfl | rfl | rfl | rfl | rfl | rfl <;> rfl

/-- Checkers that are registered are found by their names. -/
theorem resolve_map_name {r : Registry} {checkers : List Checker}
    (h : ∀ c ∈ checkers, r.get? c.name = some c) :
    r.resolve (some (checkers.map (·.name))) = .ok checkers := by
  induction checkers with
  | nil => rfl
  | cons checker rest ih =>
    have later := ih fun c hc => h c (List.mem_cons_of_mem checker hc)
    simp only [resolve] at later ⊢
    rw [List.map_cons, List.mapM_cons, h checker List.mem_cons_self, later]
    rfl

theorem exists_builtin_of_names {names : List String}
    (known : ∀ name ∈ names, name ∈ builtin.names) :
    ∃ checkers : List Checker, checkers.map (·.name) = names ∧
      ∀ c ∈ checkers, c ∈ builtinCheckers := by
  induction names with
  | nil => exact ⟨[], rfl, by simp⟩
  | cons name rest ih =>
    obtain ⟨checker, member, rfl⟩ := List.mem_map.mp (known name List.mem_cons_self)
    obtain ⟨checkers, rfl, builtins⟩ := ih fun n hn => known n (List.mem_cons_of_mem _ hn)
    exact ⟨checker :: checkers, rfl, List.forall_mem_cons.mpr ⟨member, builtins⟩⟩

end Registry

/-- A run of registered checkers by their names. -/
theorem Runner.run_map_name (runner : Runner) {checkers : List Checker}
    (h : ∀ c ∈ checkers, runner.registry.get? c.name = some c) (source : Source) :
    runner.run source (some (checkers.map (·.name))) =
      .ok (runner.runCheckers source checkers) := by
  rw [run, Registry.resolve_map_name h]
  rfl

end LexLint
