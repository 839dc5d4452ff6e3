import LexLint.Proofs.Run.Turns
import LexLint.Report.Reporter

/-!
# The findings of a report

A report takes its documents one after the other, and the findings of each in order
(`foldl_reports`). The findings of a run lie in the text that was run on, whatever the checkers
are (`Report.FromRun.liesIn`).
-/

namespace LexLint

/-- All findings of reports, each with its document. -/
def reportedFindings (reports : List Report) : List (Source × Finding) :=
  reports.flatMap fun r => r.findings.map fun f => (r.source, f)

/-- What adds the findings of one document after the other adds all findings in order. -/
theorem foldl_reports {β : Type} (add : β → Source → LineIndex → Finding → β) (start : β)
    (reports : List Report) :
    reports.foldl (fun b r => r.findings.foldl (fun b f => add b r.source r.source.index f) b)
        start =
      (reportedFindings reports).foldl (fun b p => add b p.1 p.1.index p.2) start := by
  simp only [reportedFindings, List.foldl_flatMap, List.foldl_map]

/-- The range of a finding lies in a text. -/
def Finding.LiesIn (text : List Char) (f : Finding) : Prop :=
  0 ≤ f.start ∧ f.start ≤ f.stop ∧ f.stop ≤ text.length

theorem Checker.finding_liesIn (checker : Checker) (text : List Char) (site : Site) :
    (checker.finding text.length site).LiesIn text := by
  simp only [Finding.LiesIn, finding]
  omega

theorem Checker.failure_liesIn (checker : Checker) (text : List Char) (message : String) :
    (checker.failure message).LiesIn text := by
  simp [Finding.LiesIn, failure]

/-- What a checker reports lies in the text. -/
theorem Checker.liesIn_of_mem_report {checker : Checker} {context : Context}
    {rules : Suppressions} {declared : List String} {f : Finding}
    (h : f ∈ (checker.report context rules declared).1) : f.LiesIn context.source.text := by
  rw [report_eq, outcome_emit] at h
  cases diagnosed : (checker.diagnosis context).outcome declared with
  | mk outcome known =>
    rw [diagnosed] at h
    cases outcome with
    | error message =>
      obtain rfl := List.mem_singleton.mp h
      exact checker.failure_liesIn _ message
    | ok sites =>
      obtain ⟨site, -, rfl⟩ := List.mem_map.mp (List.mem_filter.mp h).1
      exact checker.finding_liesIn _ site

theorem liesIn_of_mem_takeTurns {checkers : List Checker} {context : Context}
    {rules : Suppressions} {declared : List String} {turn : String × List Finding}
    (member : turn ∈ takeTurns context rules declared checkers) {f : Finding}
    (found : f ∈ turn.2) : f.LiesIn context.source.text := by
  obtain ⟨checker, -, known, rfl⟩ := exists_report_of_mem_takeTurns member
  exact Checker.liesIn_of_mem_report found

/-- The findings of a document come from a run on it. -/
def Report.FromRun (report : Report) : Prop :=
  ∃ (runner : Runner) (names : Option (List String)) (result : RunResult),
    runner.run report.source names = .ok result ∧ report.findings ⊆ result.findings

/-- What a run finds lies in the text. -/
theorem Report.FromRun.liesIn {report : Report} (h : report.FromRun) {f : Finding}
    (member : f ∈ report.findings) : f.LiesIn report.source.text := by
  obtain ⟨runner, names, result, ran, among⟩ := h
  obtain ⟨turn, inTurns, found⟩ := List.mem_flatMap.mp (among member)
  unfold Runner.run at ran
  cases resolved : runner.registry.resolve names with
  | error e =>
    rw [resolved] at ran
    cases ran
  | ok checkers =>
    rw [resolved] at ran
    obtain rfl := Except.ok.inj ran
    exact liesIn_of_mem_takeTurns inTurns found

end LexLint
