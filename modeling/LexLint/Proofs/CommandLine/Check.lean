import LexLint.Proofs.CommandLine.Writing
import LexLint.Proofs.Options.Load

/-!
# The exit code of a check

What a call of `check` selects (`Selection`) decides how it ends. If something is wrong with the
configuration, or a document cannot be read, the call fails without a trace; otherwise its exit code
tells whether a document has an error, however the results are shown, as long as standard output
takes what it is handed (`check_fails_without_trace_or_tells_errors`).
-/

namespace LexLint

namespace Registry

theorem resolve_cons (r : Registry) (name : String) (rest : List String) :
    r.resolve (some (name :: rest)) =
      match r.get? name with
      | none => .error (r.unknown name)
      | some checker => (r.resolve (some rest)).map (checker :: ·) := by
  simp only [resolve, List.mapM_cons]
  cases r.get? name with
  | none => rfl
  | some checker => rfl

/-- Only names of checkers can be resolved. -/
theorem mem_names_of_resolve {r : Registry} {names : List String} {checkers : List Checker}
    (resolved : r.resolve (some names) = .ok checkers) : ∀ name ∈ names, name ∈ r.names := by
  induction names generalizing checkers with
  | nil => simp
  | cons name rest ih =>
    rw [resolve_cons] at resolved
    split at resolved
    · cases resolved
    · rename_i checker found
      have named := List.find?_some found
      rw [List.forall_mem_cons]
      constructor
      · rw [← beq_iff_eq.1 named]
        exact List.mem_map_of_mem (List.mem_of_find?_eq_some found)
      · cases later : r.resolve (some rest) with
        | error e =>
          rw [later] at resolved
          cases resolved
        | ok others => exact ih later

theorem exists_resolve_of_known {names : List String}
    (known : ∀ name ∈ names, name ∈ builtin.names) :
    ∃ checkers, builtin.resolve (some names) = .ok checkers := by
  obtain ⟨checkers, rfl, builtins⟩ := exists_builtin_of_names known
  exact ⟨checkers, resolve_map_name fun c hc => hasBuiltins_builtin c (builtins c hc)⟩

end Registry

namespace CommandLine

/-- What a call of `check` asks for, apart from how the results are shown. -/
structure Selection where
  paths : List String
  checkers : List (Option String)
  disable : List (Option String)
  suppress : List (Option String)
  rawBrackets : Bool

def CheckRequest.selection (request : CheckRequest) : Selection :=
  ⟨request.paths, request.checkers, request.disable, request.suppress, request.rawBrackets⟩

namespace Selection

def overrides (s : Selection) : List (String × Json) :=
  if s.rawBrackets then [(OptionKey.text .ignoreStrings, .bool false)] else []

/-- The checkers to run: those given, or else all, without those to skip. -/
def chosen (s : Selection) : List String :=
  (if (namesIn s.checkers).isEmpty then Registry.builtin.names else namesIn s.checkers).filter
    fun name => name ∉ namesIn s.disable

def runner (s : Selection) (options : Options) : Runner :=
  { suppressions := ({} : Suppressions).suppressAll (namesIn s.suppress), options := options }

/-- The reasons for which a call fails before it reads a document: an option for names has no
value, a variable has a value that its option does not take, or no checker has a name that is
given. -/
inductive Misconfigured (s : Selection) (env : Environment) : Prop
  | valueMissing (missing : none ∈ s.suppress ++ s.checkers ++ s.disable)
  | environment (refused : ¬ env.Accepted)
  | unknownName {name : String} (given : name ∈ namesIn s.checkers ++ namesIn s.disable)
    (unknown : name ∉ Registry.builtin.names)

/-- Some path cannot be loaded, whatever its position. -/
def Unloadable (s : Selection) (world : World) : Prop :=
  ∃ path ∈ s.paths, world.document? false path = none

/-- The reasons for which a call has to fail: a variable has a value that its option does not take,
no checker has a name that is given, or some path cannot be loaded. -/
inductive Faulty (s : Selection) (world : World) : Prop
  | environment (refused : ¬ world.environment.Accepted)
  | unknownName {name : String} (given : name ∈ namesIn s.checkers ++ namesIn s.disable)
    (unknown : name ∉ Registry.builtin.names)
  | unloadable (missing : s.Unloadable world)

/-- The call ends because reading standard input is interrupted. -/
def Interrupted (s : Selection) (world : World) : Prop :=
  ¬ s.Misconfigured world.environment ∧ world.Interrupts s.paths

/-- Some document has a finding with the severity of an error. -/
def FindsError (s : Selection) (world : World) : Prop :=
  ∃ options sources, Options.load s.overrides world.environment = .ok options ∧
    world.documents? false s.paths = some sources ∧
    ∃ source ∈ sources, ∃ result, (s.runner options).run source (some s.chosen) = .ok result ∧
      ∃ f ∈ result.findings, f.severity = .error

/-- The results of the checkers that a call chooses, on the documents that it names. -/
inductive Results (s : Selection) (world : World) : List RunResult → Prop
  | intro {options : Options} {sources : List Source} {checkers : List Checker}
    (load : Options.load s.overrides world.environment = .ok options)
    (documents : world.documents? false s.paths = some sources)
    (chosen : (s.runner options).registry.resolve (some s.chosen) = .ok checkers) :
    Results s world (sources.map ((s.runner options).runCheckers · checkers))

/-- The exit code tells whether a document has an error. -/
def Verdict (s : Selection) (world : World) (exit : Nat) : Prop :=
  s.FindsError world ∧ exit = 1 ∨ ¬ s.FindsError world ∧ exit = 0

theorem Verdict.unique {s : Selection} {world : World} {exit exit' : Nat}
    (h : s.Verdict world exit) (h' : s.Verdict world exit') : exit = exit' := by
  rcases h with ⟨found, rfl⟩ | ⟨clean, rfl⟩
  · rcases h' with ⟨-, rfl⟩ | ⟨clean, -⟩
    · rfl
    · exact absurd found clean
  · rcases h' with ⟨found, -⟩ | ⟨-, rfl⟩
    · exact absurd found clean
    · rfl

theorem Faulty.fails {s : Selection} {world : World} (h : s.Faulty world) :
    s.Misconfigured world.environment ∨ s.Unloadable world := by
  cases h with
  | environment refused => exact .inl (.environment refused)
  | unknownName given unknown => exact .inl (.unknownName given unknown)
  | unloadable missing => exact .inr missing

end Selection

/-- Standard output takes the results of a call, or has no part in them. -/
def CheckRequest.Delivers (request : CheckRequest) (world : World) : Prop :=
  request.output.getD "" = "" → world.output.Working

/-! ### Preparations -/

/-- What a call does before it reads documents: the options, the rules of suppression and the names
of the checkers. -/
def prepare (world : World) (verbosity : Nat) (request : CheckRequest) :
    Session (Runner × List String) := do
  let suppressed ← allNames request.suppress
  let options ← checkOptions world verbosity request
  let given ← allNames request.checkers
  let skipped ← allNames request.disable
  match checkerNames given skipped with
  | .error e => throw (.failure e.message)
  | .ok names =>
    return ({ suppressions := ({} : Suppressions).suppressAll suppressed, options := options },
      names)

theorem Selection.override_overrides (s : Selection) (o : Options) :
    o.override s.overrides =
      .ok (if s.rawBrackets then { o with ignoreStrings := false } else o) := by
  unfold overrides
  split
  · rw [Options.override, OptionKey.ofText?_text]
    rfl
  · rfl

/-- The options of a call are those of the environment under its own override. -/
theorem checkOptions_cases (world : World) (verbosity : Nat) (request : CheckRequest) :
    (world.environment.Accepted ∧ ∃ options,
      Options.load request.selection.overrides world.environment = .ok options ∧
      ∀ t, (checkOptions world verbosity request).Quietly t (.ok options) t.inputRead) ∨
    (¬ world.environment.Accepted ∧ ∃ abort : Abort, abort.Tells False ∧ ∀ t,
      (checkOptions world verbosity request).Quietly t (.error abort) t.inputRead) := by
  obtain ⟨⟨settings, error⟩, run⟩ : ∃ r, environmentSettings world.environment OptionKey.all = r :=
    ⟨_, rfl⟩
  cases error with
  | none =>
    have made : Options.ofEnvironment world.environment = .ok (Options.apply {} settings) := by
      rw [Options.ofEnvironment, run]
    refine .inl ⟨Options.exists_ofEnvironment_ok_iff.1 ⟨_, made⟩,
      if request.rawBrackets then { Options.apply {} settings with ignoreStrings := false }
      else Options.apply {} settings, ?_, ?_⟩
    · rw [Options.load, made]
      exact request.selection.override_overrides _
    · intro t
      rw [checkOptions, run]
      refine (Session.quietly_forIn_log ?_ t).bind fun err => Session.quietly_pure _ _
      intro s t
      exact Session.quietly_log _ _ _ _ t
  | some e =>
    have refused : ¬ world.environment.Accepted := by
      intro accepted
      obtain ⟨o, made⟩ := Options.exists_ofEnvironment_ok_iff.2 accepted
      rw [Options.ofEnvironment, run] at made
      cases made
    have logged (s : Setting) (t : Transcript) := Session.quietly_log verbosity .debug
      "tesseract_lint.config" (s!"option {s.key.text}=" ++ s.key.quoteValue s.value ++
        s!" from {s.key.environmentName}") t
    cases e with
    | config e =>
      refine .inr ⟨refused, _, Abort.tells_failure e.message, fun t => ?_⟩
      rw [checkOptions, run]
      exact (Session.quietly_forIn_log logged t).bind fun err => Session.quietly_throw _ _
    | number fault =>
      refine .inr ⟨refused, _, Abort.tells_crash (.number fault), fun t => ?_⟩
      rw [checkOptions, run]
      exact (Session.quietly_forIn_log logged t).bind fun err => Session.quietly_throw _ _

/-- Exactly the names that are given have to be known, and the checkers to skip are left out. -/
theorem checkerNames_cases (s : Selection) :
    ((∀ name ∈ namesIn s.checkers ++ namesIn s.disable, name ∈ Registry.builtin.names) ∧
      checkerNames (namesIn s.checkers) (namesIn s.disable) = .ok s.chosen) ∨
    ((∃ name ∈ namesIn s.checkers ++ namesIn s.disable, name ∉ Registry.builtin.names) ∧
      ∃ e, checkerNames (namesIn s.checkers) (namesIn s.disable) = .error e) := by
  unfold checkerNames
  extract_lets selected disabled
  have skipped (name : String) : name ∈ disabled ↔ name ∈ namesIn s.disable := by
    rw [mem_foldl_insertNew]
    simp
  have asked (name : String) : name ∈ selected ++ sortStrings disabled ↔
      name ∈ selected ∨ name ∈ namesIn s.disable := by
    rw [List.mem_append, sortStrings, List.mem_mergeSort, skipped]
  have chosen : (selected.filter fun name => !disabled.contains name) = s.chosen := by
    apply List.filter_congr
    intro name _
    rw [List.contains_eq_mem, decide_eq_decide.2 (skipped name), decide_not]
  have given : ∀ name ∈ selected, name ∈ namesIn s.checkers ∨ name ∈ Registry.builtin.names := by
    intro name member
    unfold selected at member
    split at member
    · exact .inr member
    · exact .inl member
  cases resolved : Registry.builtin.resolve (some (selected ++ sortStrings disabled)) with
  | ok checkers =>
    have known := Registry.mem_names_of_resolve resolved
    refine .inl ⟨?_, congrArg Except.ok chosen⟩
    intro name member
    apply known
    rw [asked]
    rcases List.mem_append.1 member with checked | disabled
    · have some_given : (namesIn s.checkers).isEmpty = false :=
        List.isEmpty_eq_false_iff.2 (List.ne_nil_of_mem checked)
      unfold selected
      rw [some_given]
      exact .inl checked
    · exact .inr disabled
  | error e =>
    refine .inr ⟨?_, e, rfl⟩
    by_contra none
    push Not at none
    have known : ∀ name ∈ selected ++ sortStrings disabled, name ∈ Registry.builtin.names := by
      intro name member
      rcases (asked name).1 member with select | skip
      · exact (given name select).elim (fun h => none name (List.mem_append_left _ h)) id
      · exact none name (List.mem_append_right _ skip)
    obtain ⟨checkers, found⟩ := Registry.exists_resolve_of_known known
    rw [found] at resolved
    cases resolved

/-- A call is prepared quietly, or it fails so, and exactly if it is not configured well. -/
theorem prepare_cases (world : World) (verbosity : Nat) (request : CheckRequest)
    (t : Transcript) :
    (¬ request.selection.Misconfigured world.environment ∧ ∃ options,
      Options.load request.selection.overrides world.environment = .ok options ∧
      (prepare world verbosity request).Quietly t
        (.ok (request.selection.runner options, request.selection.chosen)) t.inputRead) ∨
    (request.selection.Misconfigured world.environment ∧ ∃ abort,
      (prepare world verbosity request).Quietly t (.error abort) t.inputRead ∧
      abort.Tells False) := by
  have names {texts : List (Option String)} (all : none ∉ texts) (t : Transcript) :
      (allNames texts).Quietly t (.ok (namesIn texts)) t.inputRead := by
    have quiet := quietly_allNames texts t
    rwa [if_neg all] at quiet
  have fails {texts : List (Option String)} (missing : none ∈ texts) (t : Transcript) :
      (allNames texts).Quietly t (.error (.crash .valueMissing)) t.inputRead := by
    have quiet := quietly_allNames texts t
    rwa [if_pos missing] at quiet
  have crash := Abort.tells_crash .valueMissing
  unfold prepare
  by_cases suppress : none ∈ request.suppress
  · exact .inr ⟨.valueMissing (by simp [CheckRequest.selection, suppress]), _,
      (fails suppress t).abort, crash⟩
  rcases checkOptions_cases world verbosity request with
    ⟨accepted, options, load, quiet⟩ | ⟨refused, abort, tells, quiet⟩
  swap
  · exact .inr ⟨.environment refused, _,
      (names suppress t).bind fun err => (quiet _).abort, tells⟩
  by_cases checkers : none ∈ request.checkers
  · exact .inr ⟨.valueMissing (by simp [CheckRequest.selection, checkers]), _,
      (names suppress t).bind fun err => (quiet _).bind fun err => (fails checkers _).abort, crash⟩
  by_cases disable : none ∈ request.disable
  · exact .inr ⟨.valueMissing (by simp [CheckRequest.selection, disable]), _,
      (names suppress t).bind fun err => (quiet _).bind fun err =>
        (names checkers _).bind fun err => (fails disable _).abort, crash⟩
  rcases checkerNames_cases request.selection with
    ⟨known, chosen⟩ | ⟨⟨name, given, unknown⟩, e, wrong⟩
  · refine .inl ⟨?_, options, load, (names suppress t).bind fun err => (quiet _).bind fun err =>
      (names checkers _).bind fun err => (names disable _).bind fun err => ?_⟩
    · rintro (missing | refused | ⟨given, unknown⟩)
      · simp [CheckRequest.selection, suppress, checkers, disable] at missing
      · exact refused accepted
      · exact unknown (known _ given)
    · change checkerNames (namesIn request.checkers) (namesIn request.disable) = _ at chosen
      rw [chosen]
      exact Session.quietly_pure _ _
  · refine .inr ⟨.unknownName given unknown, .failure e.message,
      (names suppress t).bind fun err => (quiet _).bind fun err =>
        (names checkers _).bind fun err => (names disable _).bind fun err => ?_,
      Abort.tells_failure _⟩
    change checkerNames (namesIn request.checkers) (namesIn request.disable) = _ at wrong
    rw [wrong]
    exact Session.quietly_throw _ _

/-- The results of a call, before they are written. -/
def collect (world : World) (verbosity : Nat) (request : CheckRequest) :
    Session (List RunResult) := do
  let (runner, names) ← prepare world verbosity request
  request.paths.mapM (checkPath world verbosity runner names)

/-- Results are written after all documents have been checked. -/
theorem runCheck_eq (world : World) (verbosity : Nat) (request : CheckRequest) :
    runCheck world verbosity request =
      collect world verbosity request >>= present world verbosity request := by
  simp only [runCheck, collect, prepare, bind_assoc]
  refine bind_congr fun suppressed => bind_congr fun options => bind_congr fun given =>
    bind_congr fun skipped => ?_
  cases checkerNames given skipped with
  | error e => rfl
  | ok names => rfl

/-! ### Whole calls -/

theorem errorCount_pos_iff {r : RunResult} :
    0 < r.errorCount ↔ ∃ f ∈ r.findings, f.severity = .error := by
  simp [RunResult.errorCount, RunResult.withSeverity, List.length_pos_iff_exists_mem]

/-- The checkers that a call chooses are there. -/
theorem Selection.exists_resolve_chosen {s : Selection} {env : Environment}
    (configured : ¬ s.Misconfigured env) (options : Options) :
    ∃ checkers, (s.runner options).registry.resolve (some s.chosen) = .ok checkers := by
  apply Registry.exists_resolve_of_known
  intro name member
  have given := (List.mem_filter.1 member).1
  split at given
  · exact given
  · by_contra unknown
    exact configured (.unknownName (List.mem_append_left _ given) unknown)

/-- An error among the results is an error in a document. -/
theorem Selection.Results.any_errorCount_iff {s : Selection} {world : World}
    {results : List RunResult} (h : s.Results world results) :
    results.any (0 < ·.errorCount) = true ↔ s.FindsError world := by
  cases h with
  | @intro options sources checkers load documents chosen =>
    have run (source : Source) : (s.runner options).run source (some s.chosen) =
        .ok ((s.runner options).runCheckers source checkers) := by
      rw [Runner.run, chosen]
      rfl
    rw [List.any_map, List.any_eq_true]
    constructor
    · rintro ⟨source, member, error⟩
      have found := errorCount_pos_iff.1 (of_decide_eq_true error)
      exact ⟨options, sources, load, documents, source, member, _, run source, found⟩
    · rintro ⟨options', sources', load', documents', source, member, result, ran, found⟩
      rw [load] at load'
      cases load'
      rw [documents] at documents'
      cases documents'
      rw [run source] at ran
      cases ran
      exact ⟨source, member, decide_eq_true (errorCount_pos_iff.2 found)⟩

/-- A call of `check` fails quietly, or it comes to presenting its results, and has until then
neither written anything nor changed a file. -/
theorem runCheck_cases {world : World} {request : CheckRequest} (verbosity : Nat)
    (t : Transcript) (files : t.files = world.files) (unread : t.inputRead = false) :
    ((request.selection.Misconfigured world.environment ∨ request.selection.Unloadable world) ∧
      ∃ abort read, (runCheck world verbosity request).Quietly t (.error abort) read ∧
        abort.Tells (request.selection.Interrupted world)) ∨
    (¬ request.selection.Misconfigured world.environment ∧
      ¬ request.selection.Unloadable world ∧
      ∃ results err read, request.selection.Results world results ∧
        (runCheck world verbosity request).outcome t =
          (present world verbosity request results).outcome
            { t with err := err, inputRead := read }) := by
  rw [runCheck_eq]
  rcases prepare_cases world verbosity request t with
    ⟨configured, options, load, prepared⟩ | ⟨misconfigured, abort, quiet, tells⟩
  swap
  · refine .inl ⟨.inl misconfigured, abort, _, quiet.abort.abort, tells.congr ?_⟩
    exact iff_of_false id fun interrupted => interrupted.1 misconfigured
  obtain ⟨checkers, chosen⟩ := request.selection.exists_resolve_chosen configured options
  have checks : (collect world verbosity request).Finds t
      (t.inputRead || request.paths.contains "-")
      (t.inputRead = false ∧ world.Interrupts request.paths)
      ((world.documents? t.inputRead request.paths).map
        (·.map ((request.selection.runner options).runCheckers · checkers))) := by
    refine Session.Finds.bind prepared fun err => ?_
    exact finds_mapM_checkPath chosen verbosity request.paths
      (t := { t with err := err, inputRead := t.inputRead }) files
  rw [unread] at checks
  have unloadable : world.documents? false request.paths = none ↔
      request.selection.Unloadable world :=
    World.documents?_eq_none_iff (by simp) request.paths
  cases documents : world.documents? false request.paths with
  | none =>
    rw [documents] at checks
    cases checks with
    | missing quiet tells =>
      refine .inl ⟨.inr (unloadable.1 documents), _, _, quiet.abort, tells.congr ?_⟩
      exact ⟨fun h => ⟨configured, h.2⟩, fun h => ⟨rfl, h.2⟩⟩
  | some sources =>
    have loaded : ¬ request.selection.Unloadable world := by
      rw [← unloadable, documents]
      simp
    rw [documents] at checks
    cases checks with
    | found calm quiet =>
      obtain ⟨err, done⟩ := quiet
      refine .inr ⟨configured, loaded, _, err, false || request.paths.contains "-",
        .intro load documents chosen, ?_⟩
      rw [Session.outcome_bind, done]

/-- A call of `check` that is understood comes to what the command does. -/
theorem run_of_parseCall {world : World} {arguments : List String} {call : Call}
    {request : CheckRequest} (parsed : parseCall world.dashes arguments = .ok call)
    (check : call.command = some (.check request)) :
    run world arguments =
      match (runCheck world call.verbosity request).outcome { files := world.files } with
      | (.ok exit, t) => { exit := exit, out := t.out, err := t.err, files := t.files }
      | (.error abort, t) =>
        { exit := abort.exit
          out := t.out
          err := t.err ++ abort.lastWords call.verbosity
          files := t.files } := by
  rw [run, parsed]
  simp only [check]
  rfl

section Calls

variable {world : World} {arguments : List String} {call : Call} {request : CheckRequest}

/-- A call that fails leaves no trace. -/
theorem run_of_failing (parsed : parseCall world.dashes arguments = .ok call)
    (check : call.command = some (.check request))
    (fails : request.selection.Misconfigured world.environment ∨
      request.selection.Unloadable world) :
    (run world arguments).out = "" ∧ (run world arguments).files = world.files ∧
      (request.selection.Interrupted world → (run world arguments).exit = 130) ∧
      (¬ request.selection.Interrupted world → (run world arguments).exit = 2) := by
  rcases runCheck_cases call.verbosity { files := world.files } rfl rfl with
    ⟨-, abort, read, ⟨err, done⟩, tells⟩ | ⟨configured, loaded, -⟩
  · rw [run_of_parseCall parsed check, done]
    exact ⟨rfl, rfl, tells.of_interrupted, tells.of_calm⟩
  · exact (fails.elim configured loaded).elim

/-- A call that reads its documents tells whether there is an error, unless standard output
fails. -/
theorem exit_of_loaded (parsed : parseCall world.dashes arguments = .ok call)
    (check : call.command = some (.check request))
    (configured : ¬ request.selection.Misconfigured world.environment)
    (loaded : ¬ request.selection.Unloadable world) (presentable : request.Presentable world) :
    request.selection.Verdict world (run world arguments).exit ∨
      request.output.getD "" = "" ∧
        ∃ fault, world.output.Fails fault ∧ (run world arguments).exit = fault.exit := by
  rcases runCheck_cases call.verbosity { files := world.files } rfl rfl with
    ⟨fails, -⟩ | ⟨-, -, results, err, read, done, presents⟩
  · exact (fails.elim configured loaded).elim
  · rw [run_of_parseCall parsed check, presents]
    cases endsUnless_present (t := { files := world.files, err := err, inputRead := read })
        presentable rfl call.verbosity results with
    | ends ended =>
      rw [ended]
      by_cases found : request.selection.FindsError world
      · exact .inl (.inl ⟨found, if_pos (done.any_errorCount_iff.2 found)⟩)
      · exact .inl (.inr ⟨found, if_neg (mt done.any_errorCount_iff.1 found)⟩)
    | fails faulty failed =>
      rw [failed]
      exact .inr ⟨faulty.1, _, faulty.2, rfl⟩

theorem exit_of_delivered (parsed : parseCall world.dashes arguments = .ok call)
    (check : call.command = some (.check request))
    (configured : ¬ request.selection.Misconfigured world.environment)
    (loaded : ¬ request.selection.Unloadable world) (presentable : request.Presentable world)
    (delivers : request.Delivers world) :
    request.selection.Verdict world (run world arguments).exit := by
  rcases exit_of_loaded parsed check configured loaded presentable with
    verdict | ⟨unnamed, fault, faulty, -⟩
  · exact verdict
  · exact absurd faulty (delivers unnamed fault)

/-- On standard output that is blocked, a text report of an error ends with the code for that, and
not with the code for errors. -/
theorem exit_of_blocked (parsed : parseCall world.dashes arguments = .ok call)
    (check : call.command = some (.check request))
    (configured : ¬ request.selection.Misconfigured world.environment)
    (loaded : ¬ request.selection.Unloadable world) (presentable : request.Presentable world)
    (byDocument : request.format = some .text) (unnamed : request.output.getD "" = "")
    {fault : OutputFault} {capacity : Nat} (blocked : world.output = .blocked fault capacity)
    (found : request.selection.FindsError world) :
    (run world arguments).exit = fault.exit := by
  rcases runCheck_cases call.verbosity { files := world.files } rfl rfl with
    ⟨fails, -⟩ | ⟨-, -, results, err, read, done, presents⟩
  · exact (fails.elim configured loaded).elim
  · have visible : ∃ r ∈ results, r.findings ≠ [] := by
      obtain ⟨r, member, errors⟩ := List.any_eq_true.1 (done.any_errorCount_iff.2 found)
      obtain ⟨f, inResult, -⟩ := errorCount_pos_iff.1 (of_decide_eq_true errors)
      exact ⟨r, member, List.ne_nil_of_mem inResult⟩
    obtain ⟨after, failed⟩ := outcome_present_blocked
      (t := { files := world.files, err := err, inputRead := read }) presentable rfl blocked
      byDocument unnamed call.verbosity visible
    rw [run_of_parseCall parsed check, presents, failed]
    rfl

end Calls

/-- A call of `check` under which a variable or a name is not known, or with a path that cannot be
loaded, wherever it stands, hands nothing to standard output and changes no file. Any other call
whose options have their values has the exit code for whether some document has an error, which is
the same for calls that differ only in how they show their results, as long as standard output takes
these; where it does not, the exit code may be the one for its fault. -/
theorem check_fails_without_trace_or_tells_errors (world : World) {arguments : List String}
    {call : Call} {request : CheckRequest}
    (parsed : parseCall world.dashes arguments = .ok call)
    (check : call.command = some (.check request)) :
    (request.selection.Faulty world →
      (run world arguments).out = "" ∧ (run world arguments).files = world.files ∧
      (request.selection.Interrupted world → (run world arguments).exit = 130) ∧
      (¬ request.selection.Interrupted world → (run world arguments).exit = 2)) ∧
    (¬ request.selection.Misconfigured world.environment →
      ¬ request.selection.Unloadable world → request.Presentable world →
      (request.Delivers world →
        (request.selection.FindsError world → (run world arguments).exit = 1) ∧
        (¬ request.selection.FindsError world → (run world arguments).exit = 0)) ∧
      (request.selection.Verdict world (run world arguments).exit ∨
        request.output.getD "" = "" ∧
          ∃ fault, world.output.Fails fault ∧ (run world arguments).exit = fault.exit)) ∧
    (∀ (arguments' : List String) (call' : Call) (request' : CheckRequest),
      parseCall world.dashes arguments' = .ok call' → call'.command = some (.check request') →
      request'.selection = request.selection → request.Presentable world →
      request'.Presentable world → request.Delivers world → request'.Delivers world →
      (run world arguments').exit = (run world arguments).exit) := by
  refine ⟨fun faulty => run_of_failing parsed check faulty.fails, ?_, ?_⟩
  · intro configured loaded presentable
    refine ⟨fun delivers => ?_, exit_of_loaded parsed check configured loaded presentable⟩
    rcases exit_of_delivered parsed check configured loaded presentable delivers with
      ⟨found, exit⟩ | ⟨clean, exit⟩
    · exact ⟨fun _ => exit, fun clean => absurd found clean⟩
    · exact ⟨fun found => absurd found clean, fun _ => exit⟩
  intro arguments' call' request' parsed' check' same presentable presentable' delivers delivers'
  by_cases fails : request.selection.Misconfigured world.environment ∨
      request.selection.Unloadable world
  · have exits := (run_of_failing parsed check fails).2.2
    have exits' := (run_of_failing parsed' check' (same ▸ fails)).2.2
    rw [same] at exits'
    by_cases interrupted : request.selection.Interrupted world
    · exact (exits'.1 interrupted).trans (exits.1 interrupted).symm
    · exact (exits'.2 interrupted).trans (exits.2 interrupted).symm
  · obtain ⟨configured, loaded⟩ := not_or.1 fails
    have verdict := exit_of_delivered parsed check configured loaded presentable delivers
    have verdict' := exit_of_delivered parsed' check' (same ▸ configured) (same ▸ loaded)
      presentable' delivers'
    rw [same] at verdict'
    exact verdict'.unique verdict

/-- A world with one document, `let$ x = 1`, whose semicolon is missing. -/
def oneDocument : World where
  environment := []
  files := { nodes := [(["a.tes"], .file [108, 101, 116, 36, 32, 120, 32, 61, 32, 49, 10])] }
  input := some []
  engine := HtmlTemplate.plainEngine
  dashes := .isValue

/-- The checker of semicolons on the document `a.tes`. -/
def semicolonsOnly : Selection where
  paths := ["a.tes"]
  checkers := [some "semicolons"]
  disable := []
  suppress := []
  rawBrackets := false

/-- Whatever standard output is, the semicolon is missed. -/
theorem findsError_oneDocument (output : Outlet) :
    ¬ semicolonsOnly.Misconfigured [] ∧
      ¬ semicolonsOnly.Unloadable { oneDocument with output := output } ∧
      semicolonsOnly.FindsError { oneDocument with output := output } := by
  have loaded : ({ oneDocument with output := output } : World).document? false "a.tes" =
      some ⟨"a.tes", "let$ x = 1\n".toList⟩ := rfl
  have finding : ∃ f ∈ (Runner.runCheckers {} ⟨"a.tes", "let$ x = 1\n".toList⟩
      [Terminators.checker]).findings, f.severity = .error := by
    decide +kernel
  refine ⟨?_, ?_, ?_⟩
  · rintro (missing | refused | ⟨given, unknown⟩)
    · exact absurd missing (by decide)
    · exact refused Environment.accepted_nil
    · rw [List.mem_singleton.1 given] at unknown
      exact unknown (by decide)
  · rintro ⟨path, member, missing⟩
    rw [List.mem_singleton.1 member, loaded] at missing
    cases missing
  · exact ⟨{}, [⟨"a.tes", "let$ x = 1\n".toList⟩], rfl, rfl, _, List.mem_cons_self,
      Runner.runCheckers {} _ [Terminators.checker], rfl, finding⟩

/-- A path behind a good one cannot be loaded, and the output is not touched; without it, the page
is written and the exit code tells of the error, as it does for a report on standard output. -/
theorem check_fails_without_trace_or_tells_errors_one_document :
    ((run oneDocument ["check", "a.tes", "b.tes", "-f", "json", "-o", "x"]).out = "" ∧
      (run oneDocument ["check", "a.tes", "b.tes", "-f", "json", "-o", "x"]).files =
        oneDocument.files ∧
      (run oneDocument ["check", "a.tes", "b.tes", "-f", "json", "-o", "x"]).exit = 2) ∧
    (run oneDocument ["check", "a.tes", "--checkers", "semicolons", "-f", "html", "-o", "x"]).exit =
      1 ∧
    (run oneDocument ["check", "a.tes", "--checkers", "semicolons"]).exit = 1 := by
  have failing : parseCall oneDocument.dashes
      ["check", "a.tes", "b.tes", "-f", "json", "-o", "x"] =
      .ok { command := some (.check
        { paths := ["a.tes", "b.tes"], format := some .json, output := some "x" }) } := rfl
  let asPage : CheckRequest :=
    { paths := ["a.tes"]
      checkers := [some "semicolons"]
      format := some .html
      output := some "x" }
  have parsed : parseCall oneDocument.dashes
      ["check", "a.tes", "--checkers", "semicolons", "-f", "html", "-o", "x"] =
      .ok { command := some (.check asPage) } := rfl
  let asText : CheckRequest := { paths := ["a.tes"], checkers := [some "semicolons"] }
  have parsed' : parseCall oneDocument.dashes ["check", "a.tes", "--checkers", "semicolons"] =
      .ok { command := some (.check asText) } := rfl
  obtain ⟨out, files, -, exit⟩ :=
    (check_fails_without_trace_or_tells_errors oneDocument failing rfl).1
      (.unloadable ⟨"b.tes", by decide, rfl⟩)
  obtain ⟨configured, loaded, found⟩ := findsError_oneDocument {}
  obtain ⟨-, tells, same⟩ := check_fails_without_trace_or_tells_errors oneDocument parsed rfl
  have opens : ∃ opened, oneDocument.files.create "x" = .ok opened := ⟨_, rfl⟩
  have page : asPage.Presentable oneDocument :=
    ⟨fun files _ => rfl, .inr ⟨by decide, opens⟩, fun p hp => (nomatch hp)⟩
  have text : asText.Presentable oneDocument :=
    ⟨fun files _ => rfl, .inl rfl, fun p hp => (nomatch hp)⟩
  have error := ((tells configured loaded page).1 fun _ => Outlet.working_open).1 found
  refine ⟨⟨out, files, exit fun interrupted => (nomatch interrupted.2.1)⟩, error, ?_⟩
  rw [← error]
  exact same _ _ _ parsed' rfl rfl page text (fun _ => Outlet.working_open)
    fun _ => Outlet.working_open

/-- A world in which reading standard input is interrupted. -/
def interruptedInput : World where
  environment := []
  files := {}
  input := none
  engine := HtmlTemplate.plainEngine
  dashes := .isValue

/-- An interruption is no failure of its own, and a report of an error into a pipe that nobody reads
from ends well, although the same findings in the one-line form tell of the error. -/
theorem check_interrupted_and_pipe_closed :
    (parseCall interruptedInput.dashes ["check", "-"] =
        .ok { command := some (.check { paths := ["-"] }) } ∧
      interruptedInput.document? false "-" = none ∧
      (run interruptedInput ["check", "-"]).exit ≠ 2) ∧
    let world := { oneDocument with output := .closedPipe 8192 }
    let arguments := ["check", "a.tes", "--checkers", "semicolons"]
    parseCall world.dashes arguments = .ok { command := some (.check
      { paths := ["a.tes"], checkers := [some "semicolons"] }) } ∧
    semicolonsOnly.FindsError world ∧ (run world arguments).exit = 0 ∧
    (run world (arguments ++ ["-f", "gcc"])).exit = 1 := by
  refine ⟨⟨rfl, rfl, by decide +kernel⟩, ?_⟩
  intro world arguments
  have parsed : parseCall world.dashes arguments = .ok { command := some (.check
      { paths := ["a.tes"], checkers := [some "semicolons"] }) } := rfl
  obtain ⟨configured, loaded, found⟩ := findsError_oneDocument (.closedPipe 8192)
  refine ⟨parsed, found, ?_, by decide +kernel⟩
  exact exit_of_blocked parsed rfl configured loaded
    ⟨fun files _ => rfl, .inl rfl, fun p hp => (nomatch hp)⟩ rfl rfl rfl found

end CommandLine

end LexLint
