import LexLint.Proofs.CommandLine.Reading

/-!
# Reports on standard output

A report by document is handed to standard output finding by finding, and what it does then decides
how the call goes on. Where it works, it gets what a reporter that takes all documents at once
writes (`exists_reportToOutput_of_working`). A report fails only where standard output does
(`endsUnless_reportToOutput`), and the first finding ends a report if nothing gets through
(`outcome_reportToOutput_blocked`).
-/

namespace LexLint.CommandLine

variable {t : Transcript}

namespace Outlet

/-- Standard output has a fault that shows for some text, or when texts are to be passed on. -/
def Fails (o : Outlet) (fault : OutputFault) : Prop :=
  ∃ before text, o.writeFault? before text = some fault ∨ o.flushFault? before = some fault

/-- Standard output takes every text. -/
def Working (o : Outlet) : Prop := ∀ fault, ¬ o.Fails fault

theorem Working.writeFault? {o : Outlet} (h : o.Working) (before text : String) :
    o.writeFault? before text = none :=
  Option.eq_none_iff_forall_ne_some.2 fun fault found => h fault ⟨before, text, .inl found⟩

theorem working_open : ({} : Outlet).Working := by
  rintro fault ⟨before, text, found | found⟩
  · cases found
  · cases found

end Outlet

namespace Session

/-- How a part of a call ends in which standard output may have had a fault. -/
def ending : Option OutputFault → Except Abort Unit
  | some fault => .error (.output fault)
  | none => .ok ()

theorem outcome_writeOut (output : Outlet) (text : String) (t : Transcript) :
    (writeOut output text).outcome t =
      (ending (output.writeFault? t.out text), { t with out := t.out ++ text }) := by
  simp only [writeOut, outcome_bind, outcome_get, outcome_modify]
  cases output.writeFault? t.out text with
  | none => rfl
  | some fault => rfl

theorem outcome_writeThrough (output : Outlet) (text : String) (t : Transcript) :
    (writeThrough output text).outcome t =
      (.ok ((output.writeFault? t.out text).or (output.flushFault? (t.out ++ text))),
        { t with out := t.out ++ text }) :=
  rfl

theorem outcome_writeFile (place : List String) (position : Nat) (text : String)
    (t : Transcript) :
    (writeFile place position text).outcome t =
      (.ok (), { t with files := t.files.put place position text.toUTF8.toList }) :=
  rfl

/-- A part of a call comes to a result, unless standard output has a fault that it may have. -/
inductive EndsUnless {α : Type} (may : OutputFault → Prop) (s : Session α) (t : Transcript)
    (a : α) : Prop
  | ends {after : Transcript} (done : s.outcome t = (.ok a, after))
  | fails {fault : OutputFault} {after : Transcript} (faulty : may fault)
    (failed : s.outcome t = (.error (.output fault), after))

theorem EndsUnless.mono {α : Type} {may may' : OutputFault → Prop} {s : Session α} {a : α}
    (h : s.EndsUnless may t a) (sub : ∀ fault, may fault → may' fault) :
    s.EndsUnless may' t a := by
  cases h with
  | ends done => exact .ends done
  | fails faulty failed => exact .fails (sub _ faulty) failed

/-- Where a part of a call goes on as another, it ends as the other. -/
theorem EndsUnless.of_outcome_eq {α : Type} {may : OutputFault → Prop} {s next : Session α}
    {t u : Transcript} {a : α} (h : next.EndsUnless may u a)
    (same : s.outcome t = next.outcome u) : s.EndsUnless may t a := by
  cases h with
  | ends done => exact .ends (same.trans done)
  | fails faulty failed => exact .fails faulty (same.trans failed)

theorem EndsUnless.after {α β : Type} {may : OutputFault → Prop} {first : Session α}
    {second : α → Session β} {t u : Transcript} {a : α} {b : β}
    (done : first.outcome t = (.ok a, u)) (h : (second a).EndsUnless may u b) :
    (first >>= second).EndsUnless may t b := by
  apply h.of_outcome_eq
  rw [outcome_bind, done]

/-- A part that may end early is followed by one that comes to its result wherever it starts. -/
theorem EndsUnless.bind {α β : Type} {may : OutputFault → Prop} {first : Session α}
    {second : α → Session β} {a : α} {b : β} (h : first.EndsUnless may t a)
    (next : ∀ after, ∃ last, (second a).outcome after = (.ok b, last)) :
    (first >>= second).EndsUnless may t b := by
  cases h with
  | @ends after done =>
    obtain ⟨last, done'⟩ := next after
    exact .ends (by rw [outcome_bind, done]; exact done')
  | fails faulty failed => exact .fails faulty (by rw [outcome_bind, failed])

theorem endsUnless_of_ending {may : OutputFault → Prop} {s : Session Unit} {t after : Transcript}
    {fault? : Option OutputFault} (done : s.outcome t = (ending fault?, after))
    (faulty : ∀ fault ∈ fault?, may fault) : s.EndsUnless may t () := by
  cases fault? with
  | none => exact .ends done
  | some fault => exact .fails (faulty fault rfl) done

theorem endsUnless_writeOut (output : Outlet) (text : String) (t : Transcript) :
    (writeOut output text).EndsUnless output.Fails t () :=
  endsUnless_of_ending (outcome_writeOut output text t) fun _ found => ⟨t.out, text, .inl found⟩

end Session

/-! ### Reports on standard output -/

/-- A part of a report is shown: to its end, so that standard output gets what the reporter writes
meanwhile, or up to a fault of standard output. -/
inductive Shows (output : Outlet) (s : Session (Reporter × Option OutputFault)) (t : Transcript)
    (r next : Reporter) : Prop
  | all (text : String) (done : s.outcome t = (.ok (next, none), { t with out := t.out ++ text }))
    (settings : next.settings = r.settings) (written : next.out = r.out ++ text)
  | stopped {last : Reporter} {fault : OutputFault} (text : String)
    (done : s.outcome t = (.ok (last, some fault), { t with out := t.out ++ text }))
    (settings : last.settings = r.settings) (faulty : output.Fails fault)

theorem shows_showFinding (output : Outlet) (source : Source) (index : LineIndex) (r : Reporter)
    (f : Finding) (t : Transcript) :
    Shows output (showFinding output source index r f) t r (r.add source index f) := by
  let text := Reporter.renderFinding r.settings source index f
  have through := Session.outcome_writeThrough output text t
  cases found : (output.writeFault? t.out text).or (output.flushFault? (t.out ++ text)) with
  | none =>
    rw [found] at through
    have done : (showFinding output source index r f).outcome t =
        (.ok (r.add source index f, none), { t with out := t.out ++ text }) := by
      rw [showFinding, Session.outcome_bind, through]
      rfl
    exact .all text done rfl rfl
  | some fault =>
    rw [found] at through
    have done : (showFinding output source index r f).outcome t =
        (.ok (r.countFinding f, some fault), { t with out := t.out ++ text }) := by
      rw [showFinding, Session.outcome_bind, through]
      rfl
    refine .stopped text done rfl ?_
    rcases Option.or_eq_some_iff.1 found with write | ⟨-, flush⟩
    · exact ⟨t.out, text, .inl write⟩
    · exact ⟨t.out ++ text, "", .inr flush⟩

/-- Where each step shows its part, the steps up to the first fault show the whole. -/
theorem shows_takeUntilFault {α : Type} {output : Outlet} {next : Reporter → α → Reporter}
    {step : Reporter → α → Session (Reporter × Option OutputFault)}
    (shows : ∀ r a t, Shows output (step r a) t r (next r a)) (items : List α) (r : Reporter)
    (t : Transcript) : Shows output (takeUntilFault step r items) t r (items.foldl next r) := by
  induction items generalizing r t with
  | nil =>
    have done : (takeUntilFault step r []).outcome t =
        (.ok (r, none), { t with out := t.out ++ "" }) := by
      rw [String.append_empty]
      rfl
    exact .all "" done rfl String.append_empty.symm
  | cons a rest ih =>
    cases shows r a t with
    | all text first settings written =>
      cases ih (next r a) { t with out := t.out ++ text } with
      | all text' later settings' written' =>
        refine .all (text ++ text') ?_ (settings'.trans settings) ?_
        · rw [takeUntilFault, Session.outcome_bind, first, ← String.append_assoc]
          exact later
        · rw [List.foldl_cons, written', written, String.append_assoc]
      | stopped text' later settings' faulty =>
        refine .stopped (text ++ text') ?_ (settings'.trans settings) faulty
        rw [takeUntilFault, Session.outcome_bind, first, ← String.append_assoc]
        exact later
    | stopped text first settings faulty =>
      refine .stopped text ?_ settings faulty
      rw [takeUntilFault, Session.outcome_bind, first]
      rfl

theorem shows_showReport (output : Outlet) (r : Reporter) (report : Report) (t : Transcript) :
    Shows output (showReport output r report) t r (r.report report.source report.findings) := by
  -- Counting the document changes neither the settings nor what has been written.
  cases shows_takeUntilFault (shows_showFinding output report.source report.source.index)
      report.findings r.countDocument t with
  | all text done settings written => exact .all text done settings written
  | stopped text done settings faulty => exact .stopped text done settings faulty

/-- Documents are shown one after the other as a reporter takes them all. -/
theorem shows_reportAll (output : Outlet) (settings : ReportSettings) (reports : List Report)
    (t : Transcript) :
    Shows output (takeUntilFault (showReport output) { settings := settings } reports) t
      { settings := settings } (Reporter.reportAll settings reports) :=
  shows_takeUntilFault (shows_showReport output) reports _ t

theorem outcome_finishReport (r : Reporter) (t : Transcript) :
    (finishReport r).outcome t = (.ok (r.finish t.files).crash,
      { t with files := (r.finish t.files).files, err := t.err ++ (r.finish t.files).err }) :=
  rfl

/-- No side file ends a call that reports under the settings. -/
def SafeSides (settings : ReportSettings) (files : FileTree) : Prop :=
  ∀ r : Reporter, r.settings = settings → (r.finish files).crash = none

/-- The end of a report whose side files are safe: what standard output does with the counts comes
before what it did with the findings. -/
theorem outcome_closeReport {r : Reporter} (safe : (r.finish t.files).crash = none)
    (output : Outlet) (fault : Option OutputFault) :
    ∃ after, (closeReport output r fault).outcome t =
        (Session.ending ((output.writeFault? t.out r.closing).or fault), after) ∧
      after.out = t.out ++ r.closing ∧
      (output.writeFault? t.out r.closing = none → after.files = (r.finish t.files).files) := by
  have written := Session.outcome_writeOut output r.closing t
  cases closing : output.writeFault? t.out r.closing with
  | some fault' =>
    rw [closing] at written
    refine ⟨{ t with out := t.out ++ r.closing }, ?_, rfl, fun taken => (nomatch taken)⟩
    rw [closeReport, Session.outcome_bind, written]
    rfl
  | none =>
    rw [closing] at written
    let finished := r.finish t.files
    refine ⟨{ t with
      out := t.out ++ r.closing
      files := finished.files
      err := t.err ++ finished.err }, ?_, rfl, fun _ => rfl⟩
    simp only [closeReport, Session.outcome_bind, written, Session.ending, outcome_finishReport,
      safe]
    cases fault with
    | some fault => rfl
    | none => rfl

/-- Once its findings have been shown, as far as that goes, a report ends as its end does. -/
theorem exists_reportToOutput_of_shown {output : Outlet} {settings : ReportSettings}
    (safe : SafeSides settings t.files) {reports : List Report} {r : Reporter}
    {fault : Option OutputFault} {text : String}
    (shown : (takeUntilFault (showReport output) { settings := settings } reports).outcome t =
      (.ok (r, fault), { t with out := t.out ++ text }))
    (kept : r.settings = settings) :
    ∃ after, (reportToOutput output settings reports).outcome t =
        (Session.ending ((output.writeFault? (t.out ++ text) r.closing).or fault), after) ∧
      after.out = t.out ++ text ++ r.closing ∧
      (output.writeFault? (t.out ++ text) r.closing = none →
        after.files = (r.finish t.files).files) := by
  obtain ⟨after, closes, out, files⟩ :=
    outcome_closeReport (t := { t with out := t.out ++ text }) (safe r kept) output fault
  refine ⟨after, ?_, out, files⟩
  rw [reportToOutput, Session.outcome_bind, shown]
  exact closes

/-- A report on standard output fails only where standard output does. -/
theorem endsUnless_reportToOutput {settings : ReportSettings} (safe : SafeSides settings t.files)
    (output : Outlet) (reports : List Report) :
    (reportToOutput output settings reports).EndsUnless output.Fails t () := by
  cases shows_reportAll output settings reports t with
  | all text shown kept written =>
    obtain ⟨after, ends, -⟩ := exists_reportToOutput_of_shown safe shown kept
    rw [Option.or_none] at ends
    exact Session.endsUnless_of_ending ends fun _ closing => ⟨_, _, .inl closing⟩
  | stopped text shown kept faulty =>
    obtain ⟨after, ends, -⟩ := exists_reportToOutput_of_shown safe shown kept
    refine Session.endsUnless_of_ending ends fun _ found => ?_
    rcases Option.or_eq_some_iff.1 found with closing | ⟨-, earlier⟩
    · exact ⟨_, _, .inl closing⟩
    · exact Option.some.inj earlier ▸ faulty

/-- Where standard output works, it gets the whole report and then the counts, and the side files
are those of the reporter that has taken all documents. -/
theorem exists_reportToOutput_of_working {output : Outlet} (working : output.Working)
    {settings : ReportSettings} (safe : SafeSides settings t.files) (reports : List Report) :
    let reporter := Reporter.reportAll settings reports
    ∃ after, (reportToOutput output settings reports).outcome t = (.ok (), after) ∧
      after.out = t.out ++ (reporter.out ++ reporter.closing) ∧
      after.files = (reporter.finish t.files).files := by
  intro reporter
  cases shows_reportAll output settings reports t with
  | all text shown kept written =>
    obtain ⟨after, ends, out, files⟩ := exists_reportToOutput_of_shown safe shown kept
    have taken := working.writeFault? (t.out ++ text) reporter.closing
    rw [taken] at ends
    have all : reporter.out = text := written.trans String.empty_append
    refine ⟨after, ends, ?_, files taken⟩
    rw [out, all, String.append_assoc]
  | stopped text shown kept faulty => exact absurd faulty (working _)

/-! ### Standard output that is blocked -/

namespace Outlet

theorem eq_of_fails_blocked {fault found : OutputFault} {capacity : Nat}
    (h : (blocked fault capacity).Fails found) : found = fault := by
  obtain ⟨before, text, write | flush⟩ := h
  · simp only [blocked, Option.ite_none_right_eq_some, Option.some.injEq] at write
    exact write.2.symm
  · simp only [blocked, Option.ite_none_left_eq_some, Option.some.injEq] at flush
    exact flush.2.symm

/-- Nothing can be handed over and passed on. -/
theorem through_blocked (fault : OutputFault) (capacity : Nat) (before : String) {text : String}
    (visible : text ≠ "") :
    ((blocked fault capacity).writeFault? before text).or
      ((blocked fault capacity).flushFault? (before ++ text)) = some fault := by
  have pending : (before ++ text).isEmpty = false := by
    rw [← Bool.not_eq_true, String.isEmpty_iff, String.append_eq_empty_iff]
    exact fun empty => visible empty.2
  simp only [blocked, pending]
  split <;> rfl

end Outlet

theorem renderFinding_ne_empty (settings : ReportSettings) (source : Source) (index : LineIndex)
    (f : Finding) : Reporter.renderFinding settings source index f ≠ "" := by
  unfold Reporter.renderFinding
  split
  · simp [Terminal.render]
  · simp [Plain.render]

theorem outcome_showFinding_blocked (fault : OutputFault) (capacity : Nat) (source : Source)
    (index : LineIndex) (r : Reporter) (f : Finding) (t : Transcript) :
    (showFinding (.blocked fault capacity) source index r f).outcome t =
      (.ok (r.countFinding f, some fault),
        { t with out := t.out ++ Reporter.renderFinding r.settings source index f }) := by
  have through := Session.outcome_writeThrough (.blocked fault capacity)
    (Reporter.renderFinding r.settings source index f) t
  rw [Outlet.through_blocked fault capacity t.out (renderFinding_ne_empty _ _ _ _)] at through
  rw [showFinding, Session.outcome_bind, through]
  rfl

/-- The first finding stops a report on standard output that is blocked. -/
theorem stopped_showReports_blocked {fault : OutputFault} {capacity : Nat} {reports : List Report}
    (found : ∃ d ∈ reports, d.findings ≠ []) (r : Reporter) (t : Transcript) :
    ∃ last text, (takeUntilFault (showReport (.blocked fault capacity)) r reports).outcome t =
      (.ok (last, some fault), { t with out := t.out ++ text }) ∧ last.settings = r.settings := by
  induction reports generalizing r with
  | nil => simp at found
  | cons d rest ih =>
    cases findings : d.findings with
    | nil =>
      have first : (showReport (.blocked fault capacity) r d).outcome t =
          (.ok (r.countDocument, none), t) := by
        rw [showReport, findings]
        rfl
      have later : ∃ d ∈ rest, d.findings ≠ [] := by
        simpa [findings] using found
      obtain ⟨last, text, done, settings⟩ := ih later r.countDocument
      refine ⟨last, text, ?_, settings⟩
      rw [takeUntilFault, Session.outcome_bind, first]
      exact done
    | cons f findings' =>
      let text := Reporter.renderFinding r.settings d.source d.source.index f
      refine ⟨r.countDocument.countFinding f, text, ?_, rfl⟩
      rw [takeUntilFault, Session.outcome_bind, showReport, findings, takeUntilFault,
        Session.outcome_bind, outcome_showFinding_blocked]
      rfl

/-- A report with a finding, on standard output that is blocked, ends the call. -/
theorem outcome_reportToOutput_blocked {fault : OutputFault} {capacity : Nat}
    {settings : ReportSettings} (safe : SafeSides settings t.files) {reports : List Report}
    (found : ∃ d ∈ reports, d.findings ≠ []) :
    ∃ after, (reportToOutput (.blocked fault capacity) settings reports).outcome t =
      (.error (.output fault), after) := by
  obtain ⟨last, text, shown, kept⟩ := stopped_showReports_blocked found { settings := settings } t
  obtain ⟨after, ends, -⟩ := exists_reportToOutput_of_shown safe shown kept
  have one : ((Outlet.blocked fault capacity).writeFault? (t.out ++ text) last.closing).or
      (some fault) = some fault := by
    cases closing : (Outlet.blocked fault capacity).writeFault? (t.out ++ text) last.closing with
    | none => rfl
    | some other => rw [Option.some_or, Outlet.eq_of_fails_blocked ⟨_, _, .inl closing⟩]
  rw [one] at ends
  exact ⟨after, ends⟩

end LexLint.CommandLine
