import LexLint.Proofs.Checker.CodeView
import LexLint.Proofs.Checker.Ranges

/-!
# Findings at pairs of angle brackets

The check of data types judges each run in angle brackets by what stands in it. As the runs are the
pairs of angle brackets, its findings stand at pairs, and no two of them at one
(`angle_runs_are_pairs`).
-/

namespace LexLint

namespace DataTypes

/-- What is reported about a run stands at the run. -/
theorem range_of_site? {run : AngleSpan} {s : Site} (h : site? run = some s) :
    s.start = run.span.start ∧ s.stop = run.span.stop := by
  rw [site?_eq_verdict, Option.map_eq_some_iff] at h
  obtain ⟨verdict, -, rfl⟩ := h
  exact ⟨rfl, rfl⟩

/-- What is reported stands at a pair. -/
theorem exists_pair_of_mem_sites {source : Source} {options : Options} {s : Site}
    (h : s ∈ sites source options) :
    ∃ i j, AnglePair options.typeSpanLimit source.code i j ∧ s.start = i ∧ s.stop = j + 1 := by
  obtain ⟨run, scanned, reported⟩ := List.mem_filterMap.mp h
  obtain ⟨start, stop⟩ := range_of_site? reported
  obtain ⟨i, j, pair, rfl⟩ := (mem_scanAngles_iff run).mp scanned
  exact ⟨i, j, pair, start, by rw [stop]; rfl⟩

/-- Runs are reported in text order, each once at most. -/
theorem sites_separated (source : Source) (options : Options) :
    (sites source options).Pairwise fun s t => s.stop ≤ t.start := by
  have runs := scanAngles_separated options.typeSpanLimit source.code
  refine runs.filterMap site? fun a b separated s hs t ht => ?_
  rw [(range_of_site? hs).2, (range_of_site? ht).1]
  exact Int.ofNat_le.mpr separated

end DataTypes

/-- **Runs in angle brackets are the pairs of angle brackets.** The scan finds, in text order, each
opening bracket with the closing one that is at most `limit` characters behind it on the same line,
no other angle bracket between, and nothing else; so no two runs meet. The check of data types has
its findings at such pairs of the code view, one at most for each. -/
theorem angle_runs_are_pairs (limit : Nat) (text : List Char) :
    (∀ run, run ∈ scanAngles limit text ↔
      ∃ i j, AnglePair limit text i j ∧ run = ⟨⟨i, j + 1⟩, slice text ⟨i + 1, j⟩⟩) ∧
    ((scanAngles limit text).Pairwise fun a b => a.span.stop ≤ b.span.start) ∧
    ∀ (source : Source) (options : Options) (declared : List String), ∃ findings,
      (DataTypes.checker.emit ⟨source, options⟩).outcome declared = (.ok findings, declared) ∧
      (∀ f ∈ findings, ∃ i j, AnglePair options.typeSpanLimit source.code i j ∧
        f.start = i ∧ f.stop = j + 1) ∧
      ∀ i j : Nat,
        (findings.map fun f => (f.start, f.stop)).count ((i : Int), (j : Int) + 1) ≤ 1 := by
  refine ⟨mem_scanAngles_iff, scanAngles_separated limit text, fun source options declared => ?_⟩
  have atPair : ∀ f ∈ (DataTypes.sites source options).map DataTypes.checker.placed,
      ∃ i j, AnglePair options.typeSpanLimit source.code i j ∧ f.start = i ∧ f.stop = j + 1 := by
    intro f hf
    obtain ⟨s, inSites, rfl⟩ := List.mem_map.mp hf
    exact DataTypes.exists_pair_of_mem_sites inSites
  have separated : ((DataTypes.sites source options).map DataTypes.checker.placed).Pairwise
      fun f g => f.stop ≤ g.start :=
    List.pairwise_map.mpr (DataTypes.sites_separated source options)
  refine ⟨_, Checker.outcome_emit_placed (DataTypes.apt_sites source options) declared, atPair, ?_⟩
  intro i j
  apply List.nodup_iff_count_le_one.mp
  refine List.pairwise_map.mpr (separated.imp_of_mem fun hf hg behind same => ?_)
  -- Two findings at one pair would stand one behind the other.
  obtain ⟨i, j, pair, start, stop⟩ := atPair _ hf
  have lt := pair.lt
  have sameStart := congrArg Prod.fst same
  simp only at sameStart
  omega

/-- A bracket that opens again begins the run, and one that closes too late ends none. -/
example : scanAngles 2 "<<x><yz>".toList = [⟨⟨1, 4⟩, ['x']⟩] := by
  decide

end LexLint
