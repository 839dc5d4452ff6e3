import LexLint.Proofs.CommandLine.Output
import LexLint.Proofs.View.Returns

/-!
# Writing results fails only where standard output does

Once the output can be opened, results are written in every format to the end, as long as pages have
the tool's own layout and standard output takes what it is handed, and the exit code is the one for
the results (`endsUnless_present`): a side file that cannot be written is only mentioned in the log.
-/

namespace LexLint

/-- A tree after some files were opened for writing, at some of the paths, and written to. -/
inductive FileTree.Becomes (paths : List String) (t : FileTree) : FileTree → Prop
  | same : Becomes paths t t
  | opened {u v : FileTree} {path : String} {place : List String} (before : Becomes paths t u)
    (listed : path ∈ paths) (opens : u.create path = .ok (place, v)) : Becomes paths t v
  | written {u : FileTree} (before : Becomes paths t u) (place : List String) (position : Nat)
    (octets : List UInt8) : Becomes paths t (u.put place position octets)

theorem FileTree.Becomes.write {paths : List String} {t u v : FileTree} {path : String}
    {octets : List UInt8} (before : t.Becomes paths u) (listed : path ∈ paths)
    (written : u.write path octets = .ok v) : t.Becomes paths v := by
  unfold FileTree.write at written
  split at written
  · cases written
  · rename_i place opened opens
    cases written
    exact (before.opened listed opens).written place 0 octets

theorem FileTree.Becomes.trans {paths others : List String} {t u v : FileTree}
    (before : t.Becomes paths u) (after : u.Becomes others v) (sub : others ⊆ paths) :
    t.Becomes paths v := by
  induction after with
  | same => exact before
  | opened _ listed opens ih => exact ih.opened (sub listed) opens
  | written _ place position octets ih => exact ih.written place position octets

/-! ### Paths without a NUL -/

theorem hasNul_eq_false_iff {path : String} : hasNul path = false ↔ Char.ofNat 0 ∉ path.toList := by
  rw [hasNul, List.contains_eq_mem, decide_eq_false_iff_not]

theorem mem_of_mem_joinStrings {c : Char} {sep : String} {parts : List String}
    (h : c ∈ (joinStrings sep parts).toList) :
    c ∈ sep.toList ∨ ∃ part ∈ parts, c ∈ part.toList := by
  induction parts with
  | nil => exact absurd h (by simp [joinStrings])
  | cons part parts ih =>
    cases parts with
    | nil =>
      rw [joinStrings, String.intercalate_singleton] at h
      exact .inr ⟨part, List.mem_cons_self, h⟩
    | cons next more =>
      rw [joinStrings, String.intercalate_cons_cons, String.toList_append, String.toList_append,
        List.mem_append, List.mem_append] at h
      rcases h with (first | between) | later
      · exact .inr ⟨part, List.mem_cons_self, first⟩
      · exact .inl between
      · rcases ih later with between | ⟨other, member, inside⟩
        · exact .inl between
        · exact .inr ⟨other, List.mem_cons_of_mem part member, inside⟩

/-- Nothing comes into a path but slashes and dots. -/
theorem hasNul_normalizePath {path : String} (clean : hasNul path = false) :
    hasNul (normalizePath path) = false := by
  rw [hasNul_eq_false_iff] at clean ⊢
  unfold normalizePath
  extract_lets parts slashes root normal
  have inParts : Char.ofNat 0 ∉ (joinStrings "/" parts).toList := by
    intro member
    rcases mem_of_mem_joinStrings member with slash | ⟨part, listed, inside⟩
    · exact absurd slash (by decide)
    · obtain ⟨piece, piece_of, rfl⟩ := List.mem_map.1 (List.mem_filter.1 listed).1
      rw [String.toList_ofList] at inside
      exact clean (mem_of_mem_splitAtChar piece_of inside)
  have inRoot : Char.ofNat 0 ∉ root.toList := by
    unfold root
    split
    · decide
    · split <;> decide
  split
  · decide
  · rw [String.toList_append, List.mem_append]
    exact not_or.2 ⟨inRoot, inParts⟩

/-! ### Reports -/

namespace Reporter

theorem settings_foldl_add (source : Source) (index : LineIndex) (findings : List Finding)
    (r : Reporter) : (findings.foldl (·.add source index) r).settings = r.settings := by
  induction findings generalizing r with
  | nil => rfl
  | cons f findings ih => exact ih (r.add source index f)

theorem settings_foldl_report (reports : List Report) (r : Reporter) :
    (reports.foldl (fun r d => r.report d.source d.findings) r).settings = r.settings := by
  induction reports generalizing r with
  | nil => rfl
  | cons d reports ih =>
    exact (ih (r.report d.source d.findings)).trans (settings_foldl_add d.source _ d.findings _)

theorem settings_reportAll (settings : ReportSettings) (reports : List Report) :
    (reportAll settings reports).settings = settings :=
  settings_foldl_report reports _

/-- A side file whose path has no NUL is written, or it is said why not. -/
theorem exists_sideFile {s : ReportSettings} {path : String} (clean : hasNul path = false)
    (files : FileTree) (format text : String) :
    ∃ after err, sideFile s files format path text = .ok (after, err) ∧
      (after = files ∨ files.write (normalizePath path) text.toUTF8.toList = .ok after) := by
  simp only [sideFile, hasNul_normalizePath clean]
  cases written : files.write (normalizePath path) text.toUTF8.toList with
  | ok after => exact ⟨after, "", rfl, .inr rfl⟩
  | error e => exact ⟨files, _, rfl, .inl rfl⟩

/-- A report is finished without a crash if a page has the tool's own layout after the first side
file has been written. -/
theorem crash_finish {r : Reporter} {files : FileTree}
    (sarif : hasNul (r.settings.sidePath sarifVariable) = false)
    (html : hasNul (r.settings.sidePath htmlVariable) = false)
    (layout : ∀ after,
      files.Becomes [normalizePath (r.settings.sidePath sarifVariable)] after →
        chooseTemplate after r.settings.environment "" = .ok none) :
    (r.finish files).crash = none := by
  obtain ⟨between, err, first, path⟩ : ∃ between err, r.sarifFile files = .ok (between, err) ∧
      files.Becomes [normalizePath (r.settings.sidePath sarifVariable)] between := by
    by_cases unset : (r.settings.sidePath sarifVariable).isEmpty
    · exact ⟨files, "", by rw [sarifFile, if_pos unset], .same⟩
    · obtain ⟨after, err, made, written⟩ := exists_sideFile (s := r.settings) sarif files "SARIF"
        (r.sarif.text r.settings.toolName r.settings.toolVersion)
      refine ⟨after, err, by rw [sarifFile, if_neg unset, made], ?_⟩
      rcases written with rfl | written
      · exact .same
      · exact FileTree.Becomes.same.write List.mem_cons_self written
  obtain ⟨after, err', second⟩ : ∃ after err', r.htmlFile between = .ok (after, err') := by
    by_cases unset : (r.settings.sidePath htmlVariable).isEmpty
    · exact ⟨between, "", by rw [htmlFile, if_pos unset]⟩
    · have page := HtmlPage.render_of_builtin (layout between path) r.html r.settings.engine
      obtain ⟨after, err', made, -⟩ := exists_sideFile (s := r.settings) html between "HTML"
        r.html.text
      exact ⟨after, err', by rw [htmlFile, if_neg unset, page]; exact made⟩
  rw [finish, first]
  simp only [second]

end Reporter

namespace CommandLine

/-! ### Output -/

/-- The paths that may be written before a page is laid out. -/
def CheckRequest.writtenFirst (request : CheckRequest) (env : Environment) : List String :=
  [request.output.getD "", normalizePath ((env.get? sarifVariable).getD "")]

/-- Nothing hinders the writing of results: pages have the tool's own layout, whatever has been
written before them, the output can be opened if there is one, and no variable holds a NUL. -/
structure CheckRequest.Presentable (request : CheckRequest) (world : World) : Prop where
  layout : ∀ files, world.files.Becomes (request.writtenFirst world.environment) files →
    chooseTemplate files world.environment "" = .ok none
  output : request.output.getD "" = "" ∨ hasNul (request.output.getD "") = false ∧
    ∃ opened, world.files.create (request.output.getD "") = .ok opened
  clean : ∀ p ∈ world.environment, hasNul p.2 = false

/-- No variable of an environment without NULs names a path with one. -/
theorem hasNul_getD_get? {env : Environment} (clean : ∀ p ∈ env, hasNul p.2 = false)
    (name : String) : hasNul ((env.get? name).getD "") = false := by
  cases found : env.get? name with
  | none => decide
  | some value =>
    obtain ⟨p, hp, rfl⟩ := Option.map_eq_some_iff.1 found
    exact clean p (List.mem_of_find?_eq_some hp)

variable {world : World} {request : CheckRequest} {t : Transcript}

/-! ### Results -/

/-- Nothing is in the way of side files where results can be presented. -/
theorem CheckRequest.Presentable.safeSides (presentable : request.Presentable world)
    {files : FileTree}
    (reached : world.files.Becomes (request.writtenFirst world.environment) files)
    {settings : ReportSettings} (environment : settings.environment = world.environment) :
    SafeSides settings files := by
  rintro r rfl
  apply Reporter.crash_finish
  · rw [ReportSettings.sidePath, environment]
    exact hasNul_getD_get? presentable.clean sarifVariable
  · rw [ReportSettings.sidePath, environment]
    exact hasNul_getD_get? presentable.clean htmlVariable
  · intro after later
    rw [environment]
    apply presentable.layout
    apply reached.trans later
    simp [CheckRequest.writtenFirst, ReportSettings.sidePath, environment]

/-- A report into a file is written to its end. -/
theorem exists_reportToFile {settings : ReportSettings} (place : List String)
    (reports : List Report)
    (safe : ∀ octets, SafeSides settings (t.files.put place 0 octets)) :
    ∃ after, (reportToFile place settings reports).outcome t = (.ok (), after) := by
  have kept := Reporter.settings_reportAll settings reports
  have safe := safe (Reporter.reportAll settings reports).out.toUTF8.toList _ kept
  simp only [reportToFile, Session.outcome_bind, Session.outcome_writeFile, outcome_finishReport,
    safe]
  exact ⟨_, rfl⟩

/-- Pages have the tool's own layout, so that results have a text in every format. -/
theorem exists_formatResults (presentable : request.Presentable world)
    (files : world.files.Becomes (request.writtenFirst world.environment) t.files)
    (results : List RunResult) :
    ∃ text, formatResults world t.files request.format results = .ok text := by
  have page (reports : List Report) :=
    HtmlPage.render_of_builtin (presentable.layout t.files files) (htmlPage reports) world.engine
  unfold formatResults
  split
  · exact ⟨_, rfl⟩
  · exact ⟨_, rfl⟩
  · exact ⟨_, rfl⟩
  · exact ⟨_, page _⟩
  · exact ⟨_, rfl⟩
  · exact ⟨_, rfl⟩

/-- Results are written to the end in every format, into a file or to standard output that takes
them. -/
theorem endsUnless_writeResults (presentable : request.Presentable world)
    (files : world.files.Becomes (request.writtenFirst world.environment) t.files)
    (results : List RunResult) (place : Option (List String)) :
    (writeResults world request results place).EndsUnless
      (fun fault => place = none ∧ world.output.Fails fault) t () := by
  by_cases byDocument : request.format = some .text
  · rw [writeResults, if_pos byDocument]
    let settings := reportSettings world request
    cases place with
    | none =>
      have safe : SafeSides settings t.files := presentable.safeSides files rfl
      exact (endsUnless_reportToOutput safe world.output _).mono fun _ faulty => ⟨rfl, faulty⟩
    | some place =>
      have safe (octets : List UInt8) : SafeSides settings (t.files.put place 0 octets) :=
        presentable.safeSides (files.written place 0 octets) rfl
      obtain ⟨after, done⟩ := exists_reportToFile place
        (results.map fun r => (⟨r.source, r.findings⟩ : Report)) safe
      exact .ends done
  · obtain ⟨text, formats⟩ := exists_formatResults presentable files results
    have goesOn : (writeResults world request results place).outcome t =
        (if !text.isEmpty then Session.writeTo world.output place (text ++ "\n")
          else pure ()).outcome t := by
      rw [writeResults, if_neg byDocument]
      simp only [Session.outcome_bind, Session.outcome_get, formats]
    refine Session.EndsUnless.of_outcome_eq ?_ goesOn
    split
    · cases place with
      | none =>
        exact (Session.endsUnless_writeOut world.output (text ++ "\n") t).mono
          fun _ faulty => ⟨rfl, faulty⟩
      | some place => exact .ends (Session.outcome_writeFile place 0 (text ++ "\n") t)
    · exact .ends rfl

theorem outcome_openOutput {path : String} (clean : hasNul path = false) {place : List String}
    {opened : FileTree} (opens : t.files.create path = .ok (place, opened)) :
    (openOutput path).outcome t = (.ok place, { t with files := opened }) := by
  simp only [openOutput, Session.outcome_bind, outcome_requirePath clean, Session.outcome_get,
    opens]
  rfl

/-- What `check` does with its results: they are written, and the exit code tells whether there is
an error among them. -/
def present (world : World) (verbosity : Nat) (request : CheckRequest)
    (results : List RunResult) : Session Nat := do
  let output := request.output.getD ""
  if output.isEmpty then writeResults world request results none
  else
    let place ← openOutput output
    writeResults world request results (some place)
    Session.log verbosity .info "tesseract_lint"
      s!"wrote {formatName request.format} report to {output}"
  return if results.any (0 < ·.errorCount) then exitFindings else 0

/-- The exit code does not depend on how results are written, unless standard output fails. -/
theorem endsUnless_present (presentable : request.Presentable world)
    (files : t.files = world.files) (verbosity : Nat) (results : List RunResult) :
    (present world verbosity request results).EndsUnless
      (fun fault => request.output.getD "" = "" ∧ world.output.Fails fault) t
      (if results.any (0 < ·.errorCount) then exitFindings else 0) := by
  unfold present
  extract_lets output conclude
  have start : world.files.Becomes (request.writtenFirst world.environment) t.files :=
    files ▸ .same
  split
  · rename_i unnamed
    have writes := endsUnless_writeResults presentable start results none
    refine Session.EndsUnless.bind (writes.mono fun _ h => ?_) fun after => ⟨after, rfl⟩
    exact ⟨String.isEmpty_iff.1 unnamed, h.2⟩
  · rename_i named
    rcases presentable.output with unnamed | ⟨clean, ⟨place, opened⟩, opens⟩
    · exact absurd (String.isEmpty_iff.2 unnamed) named
    · rw [← files] at opens
      have started : world.files.Becomes (request.writtenFirst world.environment) opened :=
        start.opened List.mem_cons_self opens
      have openedAt : (openOutput output).outcome t = (.ok place, { t with files := opened }) :=
        outcome_openOutput clean opens
      have writes := endsUnless_writeResults (t := { t with files := opened }) presentable
        started results (some place)
      refine Session.EndsUnless.after openedAt ?_
      exact Session.EndsUnless.bind (writes.mono fun _ h => (nomatch h.1)) fun after => ⟨_, rfl⟩

/-- A text report of a finding, on standard output that is blocked, ends the call. -/
theorem outcome_present_blocked (presentable : request.Presentable world)
    (files : t.files = world.files) {fault : OutputFault} {capacity : Nat}
    (blocked : world.output = .blocked fault capacity) (byDocument : request.format = some .text)
    (unnamed : request.output.getD "" = "") (verbosity : Nat) {results : List RunResult}
    (found : ∃ r ∈ results, r.findings ≠ []) :
    ∃ after, (present world verbosity request results).outcome t =
      (.error (.output fault), after) := by
  let settings := reportSettings world request
  let reports := results.map fun r => (⟨r.source, r.findings⟩ : Report)
  have safe : SafeSides settings t.files := presentable.safeSides (files ▸ .same) rfl
  have reported : ∃ d ∈ reports, d.findings ≠ [] := by
    obtain ⟨r, member, visible⟩ := found
    exact ⟨_, List.mem_map_of_mem member, visible⟩
  have stops : ∃ after, (reportToOutput (.blocked fault capacity) settings reports).outcome t =
      (.error (.output fault), after) := outcome_reportToOutput_blocked safe reported
  obtain ⟨after, done⟩ := stops
  have writes : (writeResults world request results none).outcome t =
      (.error (.output fault), after) := by
    rw [writeResults, if_pos byDocument, blocked]
    exact done
  refine ⟨after, ?_⟩
  unfold present
  extract_lets output conclude
  rw [if_pos (String.isEmpty_iff.2 unnamed), Session.outcome_bind, writes]

end CommandLine

end LexLint
