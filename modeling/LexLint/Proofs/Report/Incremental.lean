import LexLint.Proofs.CommandLine.Writing
import LexLint.Proofs.Files.Contents
import LexLint.Proofs.Report.Findings

/-!
# Reporting document by document

A reporter that takes one document after the other holds at each point what the findings up to there
come to when they are taken at once (`Reporter.reportAll_eq`). So what it leaves behind is what is
built from the whole list (`incremental_reports_equal_batch_reports`).
-/

namespace LexLint

/-- The counts for a number of documents with some findings. -/
def Stats.ofFindings (documents : Nat) (findings : List (Source × Finding)) : Stats where
  errors := findings.countP (·.2.severity == .error)
  warnings := findings.countP (·.2.severity == .warning)
  files := documents

theorem Stats.record_ofFindings (documents : Nat) (findings : List (Source × Finding))
    (p : Source × Finding) :
    (ofFindings documents findings).record p.2.severity =
      ofFindings documents (findings ++ [p]) := by
  cases h : p.2.severity <;> simp [record, ofFindings, h]

namespace ReportSettings

/-- The path of a side file as it is opened. -/
def sideName (s : ReportSettings) (name : String) : String := normalizePath (s.sidePath name)

/-- A variable names a side file that can be written at a place. -/
structure Writes (s : ReportSettings) (files : FileTree) (name : String) (place : List String) :
    Prop where
  set : s.sidePath name ≠ ""
  clean : hasNul (s.sidePath name) = false
  writable : files.Writable (s.sideName name) place

theorem Writes.store {s : ReportSettings} {files : FileTree} {name : String}
    {place other : List String} (h : s.Writes files name place) (room : files.HasRoom other)
    (octets : List UInt8) : s.Writes (files.store other (.file octets)) name place :=
  ⟨h.set, h.clean, h.writable.store room octets⟩

end ReportSettings

namespace Reporter

variable {s : ReportSettings} {files : FileTree} {findings : List (Source × Finding)}

/-- The reporter that has taken a number of documents with these findings in all. -/
def holding (s : ReportSettings) (documents : Nat) (findings : List (Source × Finding)) :
    Reporter where
  settings := s
  stats := .ofFindings documents findings
  out := String.join (findings.map fun p => renderFinding s p.1 p.1.index p.2)
  sarif := if (s.sidePath sarifVariable).isEmpty then {}
    else findings.foldl (fun log p => log.add p.1 p.1.index p.2) {}
  html := if (s.sidePath htmlVariable).isEmpty then {}
    else findings.foldl (fun page p => page.add p.1 p.1.index p.2) {}

theorem add_holding (s : ReportSettings) (documents : Nat) (findings : List (Source × Finding))
    (source : Source) (f : Finding) :
    (holding s documents findings).add source source.index f =
      holding s documents (findings ++ [(source, f)]) := by
  have stats := Stats.record_ofFindings documents findings (source, f)
  have out : String.join (findings.map fun p => renderFinding s p.1 p.1.index p.2) ++
      renderFinding s source source.index f =
        String.join ((findings ++ [(source, f)]).map fun p =>
          renderFinding s p.1 p.1.index p.2) := by
    rw [List.map_append, String.join, String.join, List.foldl_append]
    rfl
  simp only [add, holding, stats, out, List.foldl_append]
  congr 1 <;> split <;> rfl

theorem foldl_add_holding (s : ReportSettings) (documents : Nat)
    (findings : List (Source × Finding)) (source : Source) (added : List Finding) :
    added.foldl (·.add source source.index) (holding s documents findings) =
      holding s documents (findings ++ added.map fun f => (source, f)) := by
  induction added generalizing findings with
  | nil => rw [List.map_nil, List.append_nil]; rfl
  | cons f added ih => rw [List.foldl_cons, add_holding, ih, List.map_cons, ← List.append_cons]

theorem report_holding (s : ReportSettings) (documents : Nat) (findings : List (Source × Finding))
    (source : Source) (added : List Finding) :
    (holding s documents findings).report source added =
      holding s (documents + 1) (findings ++ added.map fun f => (source, f)) :=
  foldl_add_holding s (documents + 1) findings source added

/-- Taking documents one by one comes to taking all their findings at once. -/
theorem reportAll_eq (s : ReportSettings) (reports : List Report) :
    reportAll s reports = holding s reports.length (reportedFindings reports) := by
  have run (documents : Nat) (findings : List (Source × Finding)) :
      reports.foldl (fun r d => r.report d.source d.findings) (holding s documents findings) =
        holding s (documents + reports.length) (findings ++ reportedFindings reports) := by
    induction reports generalizing documents findings with
    | nil => simp [reportedFindings]
    | cons d reports ih =>
      rw [List.foldl_cons, report_holding, ih, List.length_cons, List.append_assoc,
        Nat.add_assoc, Nat.add_comm 1]
      rfl
  have start : ({ settings := s } : Reporter) = holding s 0 [] := by
    simp [holding, Stats.ofFindings]
  rw [reportAll, start, run, Nat.zero_add, List.nil_append]

theorem sarif_holding {reports : List Report} (set : s.sidePath sarifVariable ≠ "") :
    (holding s reports.length (reportedFindings reports)).sarif =
      reports.foldl (fun log r => log.addAll r.source r.findings) {} := by
  rw [holding, if_neg (mt String.isEmpty_iff.mp set)]
  exact (foldl_reports SarifLog.add {} reports).symm

theorem html_holding {reports : List Report} (set : s.sidePath htmlVariable ≠ "") :
    (holding s reports.length (reportedFindings reports)).html = htmlPage reports := by
  rw [holding, if_neg (mt String.isEmpty_iff.mp set)]
  exact (foldl_reports HtmlPage.add {} reports).symm

/-- A side file that can be written is written. -/
theorem sideFile_eq {name : String} {place : List String} (h : s.Writes files name place)
    (format text : String) :
    sideFile s files format (s.sidePath name) text =
      .ok (files.store place (.file text.toUTF8.toList), "") := by
  have written := h.writable.write_eq text.toUTF8.toList
  rw [ReportSettings.sideName] at written
  simp only [sideFile, hasNul_normalizePath h.clean, written]
  rfl

theorem sarifFile_eq {place : List String} (r : Reporter)
    (h : r.settings.Writes files sarifVariable place) :
    r.sarifFile files = .ok (files.store place
      (.file (r.sarif.text r.settings.toolName r.settings.toolVersion).toUTF8.toList), "") := by
  rw [sarifFile, if_neg (mt String.isEmpty_iff.mp h.set), sideFile_eq h]

theorem htmlFile_eq {place : List String} (r : Reporter)
    (h : r.settings.Writes files htmlVariable place) {page : String}
    (rendered : r.html.render r.settings.engine files r.settings.environment "" = .ok page) :
    r.htmlFile files = .ok (files.store place (.file page.toUTF8.toList), "") := by
  rw [htmlFile, if_neg (mt String.isEmpty_iff.mp h.set), rendered]
  exact sideFile_eq h "HTML" page

/-- A page that cannot be laid out is not written, and may end the call. -/
theorem htmlFile_of_failure (r : Reporter) (set : r.settings.sidePath htmlVariable ≠ "")
    {failure : PageFailure}
    (fails : r.html.render r.settings.engine files r.settings.environment "" = .error failure) :
    r.htmlFile files = match failure.crash? with
      | some crash => .error crash
      | none => .ok (files, writeFailure r.settings "HTML" failure.message) := by
  have named := mt String.isEmpty_iff.mp set
  cases crashes : failure.crash? with
  | some crash => simp only [htmlFile, if_neg named, fails, crashes]
  | none => simp only [htmlFile, if_neg named, fails, crashes]

/-- A page is written, or it has no layout and nothing is written. -/
theorem htmlFile_cases {place : List String} (r : Reporter)
    (h : r.settings.Writes files htmlVariable place) :
    (∃ octets, r.htmlFile files = .ok (files.store place (.file octets), "")) ∨
    (∃ err, r.htmlFile files = .ok (files, err)) ∨ ∃ crash, r.htmlFile files = .error crash := by
  cases rendered : r.html.render r.settings.engine files r.settings.environment "" with
  | ok page => exact .inl ⟨_, r.htmlFile_eq h rendered⟩
  | error failure =>
    rw [r.htmlFile_of_failure h.set rendered]
    cases failure.crash? with
    | some crash => exact .inr (.inr ⟨crash, rfl⟩)
    | none => exact .inr (.inl ⟨_, rfl⟩)

/-! ### The end of a report -/

theorem stats_finish (r : Reporter) (files : FileTree) : (r.finish files).stats = r.stats := by
  unfold finish
  split
  · rfl
  · split <;> rfl

theorem closing_finish (r : Reporter) (files : FileTree) :
    (r.finish files).closing = r.closing := by
  unfold finish
  split
  · rfl
  · split <;> rfl

/-- Reporters with the same counts and side files end alike, up to what they write last. -/
theorem finish_congr {r other : Reporter} (stats : r.stats = other.stats)
    (sarif : r.sarif = other.sarif) (html : r.html = other.html)
    (environment : r.settings.environment = other.settings.environment)
    (engine : r.settings.engine = other.settings.engine)
    (name : r.settings.toolName = other.settings.toolName)
    (version : r.settings.toolVersion = other.settings.toolVersion) (files : FileTree) :
    r.finish files = { other.finish files with closing := (r.finish files).closing } := by
  have path (side : String) : r.settings.sidePath side = other.settings.sidePath side := by
    rw [ReportSettings.sidePath, environment, ReportSettings.sidePath]
  have sarifFile : r.sarifFile files = other.sarifFile files := by
    simp only [Reporter.sarifFile, sideFile, writeFailure, path, name, version, sarif]
  have htmlFile (files : FileTree) : r.htmlFile files = other.htmlFile files := by
    simp only [Reporter.htmlFile, sideFile, writeFailure, path, environment, engine, name, html]
  rw [closing_finish]
  simp only [finish, sarifFile, htmlFile, stats]
  split
  · rfl
  · split <;> rfl

/-- What the side files hold at the end, if both can be written. -/
theorem files_finish {r : Reporter} {sarifPlace htmlPlace : List String}
    (sarif : r.settings.Writes files sarifVariable sarifPlace)
    (html : r.settings.Writes files htmlVariable htmlPlace) :
    let text := r.sarif.text r.settings.toolName r.settings.toolVersion
    ∃ between, files.write (r.settings.sideName sarifVariable) text.toUTF8.toList = .ok between ∧
      (sarifPlace ≠ htmlPlace →
        (r.finish files).files.read (r.settings.sideName sarifVariable) =
          .ok text.toUTF8.toList) ∧
      (∀ page, r.html.render r.settings.engine between r.settings.environment "" = .ok page →
        (r.finish files).crash = none ∧ (r.finish files).err = "" ∧
        (r.finish files).files.read (r.settings.sideName htmlVariable) =
          .ok page.toUTF8.toList) ∧
      ∀ failure,
        r.html.render r.settings.engine between r.settings.environment "" = .error failure →
        (r.finish files).crash = failure.crash? ∧ (r.finish files).files = between := by
  intro text
  let between := files.store sarifPlace (.file text.toUTF8.toList)
  have first : r.sarifFile files = .ok (between, "") := r.sarifFile_eq sarif
  -- The page is laid out and written in the tree that the first file has changed.
  have html' : r.settings.Writes between htmlVariable htmlPlace :=
    html.store sarif.writable.hasRoom _
  have room := html'.writable.hasRoom
  refine ⟨between, sarif.writable.write_eq _, fun apart => ?_, fun page rendered => ?_,
    fun failure fails => ?_⟩
  · have readBetween := sarif.writable.read_store text.toUTF8.toList
    have kept (octets : List UInt8) :
        (between.store htmlPlace (.file octets)).read (r.settings.sideName sarifVariable) =
          .ok text.toUTF8.toList := by
      rw [FileTree.read_store_of_ne room octets (sarif.writable.locate_store _) apart,
        readBetween]
    rcases r.htmlFile_cases html' with ⟨octets, second⟩ | ⟨err, second⟩ | ⟨crash, second⟩
    · simp only [finish, first, second]
      exact kept _
    · simp only [finish, first, second]
      exact readBetween
    · simp only [finish, first, second]
      exact readBetween
  · simp only [finish, first, r.htmlFile_eq html' rendered]
    exact ⟨trivial, rfl, html'.writable.read_store _⟩
  · simp only [finish, first, r.htmlFile_of_failure html'.set fails]
    cases failure.crash? with
    | some crash => exact ⟨rfl, rfl⟩
    | none => exact ⟨rfl, rfl⟩

end Reporter

/-- **Reporting document by document comes to reporting all at once.** Whatever the documents and
their findings are, the counts are those of the whole list, and what a report without colours writes
is the line of each finding, in order, and the line of the counts. Where the environment names two
side files that can be written, they hold what is built from the whole list, the page under the
template in force when it is laid out and by the engine for templates, whatever that is. If the page
of the whole list cannot be laid out, none is written, and the report ends as this failure says.
Whether colours and the counts are asked for makes no difference to this. -/
theorem incremental_reports_equal_batch_reports (settings : ReportSettings)
    (reports : List Report) (files : FileTree) :
    let reporter := Reporter.reportAll settings reports
    let done := reporter.finish files
    let findings := reportedFindings reports
    done.stats = .ofFindings reports.length findings ∧
    (settings.withLines = false → reporter.out ++ done.closing =
      String.join (findings.map fun p => p.2.gccLine p.1.name p.1.index ++ "\n") ++
        if settings.summary then "  " ++ done.stats.summaryLine ++ "\n" else "") ∧
    (∀ colour summary,
      let other := (Reporter.reportAll { settings with colour, summary } reports).finish files
      other = { done with closing := other.closing }) ∧
    ∀ sarifPlace htmlPlace, settings.Writes files sarifVariable sarifPlace →
      settings.Writes files htmlVariable htmlPlace →
      ∃ sarif between,
        (settings.toolVersion = toolVersion → sarif = sarifReport reports settings.toolName) ∧
        files.write (settings.sideName sarifVariable) sarif.toUTF8.toList = .ok between ∧
        (sarifPlace ≠ htmlPlace →
          done.files.read (settings.sideName sarifVariable) = .ok sarif.toUTF8.toList) ∧
        (∀ page,
          (htmlPage reports).render settings.engine between settings.environment "" = .ok page →
          done.crash = none ∧ done.err = "" ∧
          done.files.read (settings.sideName htmlVariable) = .ok page.toUTF8.toList) ∧
        ∀ failure,
          (htmlPage reports).render settings.engine between settings.environment "" =
            .error failure →
          done.crash = failure.crash? ∧ done.files = between := by
  intro reporter done findings
  have held : reporter = Reporter.holding settings reports.length findings :=
    Reporter.reportAll_eq settings reports
  refine ⟨?stats, ?output, ?asked, ?sides⟩
  case stats =>
    rw [Reporter.stats_finish, held]
    rfl
  case output =>
    intro plain
    rw [Reporter.stats_finish, Reporter.closing_finish, held]
    simp only [Reporter.holding, Reporter.renderFinding, Reporter.closing, Reporter.renderSummary,
      plain, Plain.render, Plain.summary, Bool.false_eq_true, if_false]
  case asked =>
    intro colour summary other
    have held' := Reporter.reportAll_eq { settings with colour, summary } reports
    apply Reporter.finish_congr <;> rw [held, held'] <;> rfl
  case sides =>
    intro sarifPlace htmlPlace sarifSet htmlSet
    have kept : reporter.settings = settings := Reporter.settings_reportAll settings reports
    obtain ⟨between, written, sarifRead, htmlRead, htmlFails⟩ :=
      reporter.files_finish (kept ▸ sarifSet) (kept ▸ htmlSet)
    rw [kept] at written sarifRead htmlRead htmlFails
    have page : reporter.html = htmlPage reports := by
      rw [held, Reporter.html_holding htmlSet.set]
    refine ⟨_, between, ?_, written, sarifRead, page ▸ htmlRead, page ▸ htmlFails⟩
    intro version
    rw [held, Reporter.sarif_holding sarifSet.set, version, sarifReport]

/-- The template in force is not changed by a side file at another place. -/
theorem chooseTemplate_store {files : FileTree} {place other : List String} {env : Environment}
    (room : files.HasRoom place) (octets : List UInt8)
    (located : files.locate (normalizePath ((env.get? templateVariable).getD "")) = .ok other)
    (ne : other ≠ place) :
    chooseTemplate (files.store place (.file octets)) env "" = chooseTemplate files env "" := by
  simp only [chooseTemplate, readTemplate, FileTree.isFile_store_of_ne room octets located ne,
    FileTree.read_store_of_ne room octets located ne]
  rfl

/-- A template that writes the total and the codes of all findings. -/
def codesTemplate : String :=
  "\x7b\x7b total \x7d\x7d:\x7b% for f in findings %\x7d\x7b\x7b f.code \x7d\x7d\x7b% endfor %\x7d"

/-- An engine that takes one template. -/
def codesEngine : TemplateEngine := fun template cards total =>
  if template = codesTemplate.toList then
    .ok (toString total ++ ":" ++ String.join (cards.map fun c => escapeHtml c.code))
  else .error "not the template for codes"

/-- Two documents with three findings in all, and two side files in the working directory, the page
under a template of the caller's. -/
theorem incremental_reports_equal_batch_reports_two_documents :
    let first : Report := ⟨.ofString "a" "x", [⟨0, 1, "m", .error, "c", "k"⟩]⟩
    let second : Report := ⟨.ofString "b" "y\nz",
      [⟨2, 3, "n", .warning, "c", "k"⟩, ⟨0, 1, "o", .error, "d", "k"⟩]⟩
    let settings : ReportSettings :=
      { colour := some false, streamIsTerminal := true, outputIsTerminal := true,
        environment := [(sarifVariable, "s.json"), (htmlVariable, "./p.html"),
          (templateVariable, "t.html")],
        engine := codesEngine }
    let files : FileTree := { nodes := [(["t.html"], .file codesTemplate.toUTF8.toList)] }
    let reporter := Reporter.reportAll settings [first, second]
    let done := reporter.finish files
    settings.withLines = false ∧ settings.Writes files sarifVariable ["s.json"] ∧
      settings.Writes files htmlVariable ["p.html"] ∧
      done.stats = ⟨2, 1, 2⟩ ∧
      reporter.out ++ done.closing = "a:1:1: error: m [c]\nb:2:1: warning: n [c]\n" ++
        "b:1:1: error: o [d]\n  2 errors; 1 warning (3 total)\n" ∧
      done.files.read "s.json" = .ok (sarifReport [first, second] toolName).toUTF8.toList ∧
      done.files.read "p.html" = .ok "3:ccd".toUTF8.toList := by
  intro first second settings files reporter done
  have sarifSet : settings.Writes files sarifVariable ["s.json"] :=
    ⟨by decide +kernel, by decide +kernel, by decide +kernel, by decide +kernel⟩
  have htmlSet : settings.Writes files htmlVariable ["p.html"] :=
    ⟨by decide +kernel, by decide +kernel, by decide +kernel, by decide +kernel⟩
  obtain ⟨stats, output, -, sides⟩ :=
    incremental_reports_equal_batch_reports settings [first, second] files
  obtain ⟨sarif, between, same, written, sarifRead, htmlRead, -⟩ :=
    sides ["s.json"] ["p.html"] sarifSet htmlSet
  have sarifName : settings.sideName sarifVariable = "s.json" := by decide +kernel
  have htmlName : settings.sideName htmlVariable = "p.html" := by decide +kernel
  -- The side file that is written first is not the template.
  have layout : chooseTemplate between settings.environment "" =
      .ok (some codesTemplate.toList) := by
    have located : files.locate (normalizePath
        ((settings.environment.get? templateVariable).getD "")) = .ok ["t.html"] := by
      decide +kernel
    have unchanged := chooseTemplate_store sarifSet.writable.hasRoom sarif.toUTF8.toList
      located (by decide)
    rw [sarifSet.writable.write_eq] at written
    rw [← Except.ok.inj written, unchanged]
    decide +kernel
  have rendered : (htmlPage [first, second]).render settings.engine between settings.environment ""
      = .ok "3:ccd" := by
    rw [HtmlPage.render, layout]
    decide +kernel
  obtain ⟨-, -, page⟩ := htmlRead "3:ccd" rendered
  rw [sarifName, same rfl] at sarifRead
  rw [htmlName] at page
  refine ⟨rfl, sarifSet, htmlSet, stats.trans ?_, (output rfl).trans ?_, sarifRead (by decide),
    page⟩
  · decide +kernel
  · rw [stats]
    decide +kernel

end LexLint
