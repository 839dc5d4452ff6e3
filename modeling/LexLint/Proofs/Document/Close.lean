import LexLint.Proofs.Document.Interleaving

/-!
# Close wins

A document that is closed stays closed for the updates that were under way: they are dropped
whenever they commit, and what a document shows was published by an update that began after the
document was last closed. Closing drops nothing else (`close_wins`).
-/

namespace LexLint.Interleaving

variable {runner : Runner} {name : String} {history : List Event} {s s' : Traffic}
variable {update : Nat} {t : Ticket} {result : Option (List Finding)}

/-- What a commit step does: the update waits, and the linter commits it. -/
theorem Step.committed_cases (step : Step s (.committed update t result) s') :
    (update, t) ∈ s.waiting ∧ result = (s.linter.commit t).result ∧
      s'.linter = (s.linter.commit t).linter := by
  cases step with
  | commit _ _ waits => exact ⟨waits, rfl, rfl⟩

/-- A commit behind a close of its document changes nothing. -/
theorem Run.commit_of_closed {later earlier : List Event}
    (run : Run runner name (later ++ .began update t :: earlier) s)
    (closed : .closed t.document ∈ later) : s.linter.commit t = ⟨s.linter, none, []⟩ := by
  rcases s.linter.commit_cases t with ⟨dropped, _⟩ | ⟨_, current, _⟩
  · exact dropped
  · exact absurd closed (run.generation_iff.mp current)

/-- An update whose document was not closed is dropped only for its version. -/
theorem Run.stale_of_dropped {later earlier : List Event}
    (run : Run runner name (later ++ .began update t :: earlier) s)
    (stays : .closed t.document ∉ later) (dropped : (s.linter.commit t).result = none) :
    s.linter.isStale t.document t.version = true := by
  rcases s.linter.commit_cases t with ⟨_, outdated | stale⟩ | ⟨accepted, _⟩
  · exact absurd (run.generation_iff.mpr stays) outdated
  · exact stale
  · rw [dropped] at accepted
    cases accepted

/-- A stale version is below one accepted since the last close. -/
theorem Run.exists_higher_of_stale (run : Run runner name history s) {document : String}
    {version : Option Int} (stale : s.linter.isStale document version = true) :
    ∃ v higher, version = some v ∧ v < higher ∧
      higher ∈ acceptedVersions document (since document history) := by
  have recorded := (run.records document).version
  cases version with
  | none => simp [Linter.isStale] at stale
  | some v =>
    cases hlast : s.linter.version? document with
    | none => simp [Linter.isStale, hlast] at stale
    | some last =>
      simp only [Linter.isStale, hlast, decide_eq_true_eq] at stale
      rw [hlast] at recorded
      exact ⟨v, last, rfl, stale, (List.max?_eq_some_iff.mp recorded.symm).1⟩

/-- An update that commits successfully began after its document was last closed. -/
theorem Run.began_of_commit (run : Run runner name history s) {findings : List Finding}
    (step : Step s (.committed update t (some findings)) s') :
    .began update t ∈ since t.document history := by
  obtain ⟨waits, result, _⟩ := step.committed_cases
  obtain ⟨later, earlier, rfl⟩ := List.append_of_mem (run.began_of_waits waits)
  have stays : .closed t.document ∉ later := by
    intro closed
    rw [run.commit_of_closed closed] at result
    cases result
  rw [since_append stays, since_cons_of_ne (by simp)]
  exact List.mem_append_right _ List.mem_cons_self

/-- Every update accepted since the last close of its document also began since then. -/
theorem Run.began_of_accepted (run : Run runner name history s) {document : String}
    (h : (update, t) ∈ accepted document (since document history)) :
    .began update t ∈ since document history := by
  induction run with
  | start => simp [since, accepted] at h
  | @next history a b e before step ih =>
    by_cases closes : e = .closed document
    · subst closes
      simp [since_cons_closed, accepted] at h
    rw [since_cons_of_ne closes] at h ⊢
    obtain ⟨f, hf, accepts⟩ := List.mem_filterMap.mp h
    rcases List.mem_cons.mp hf with rfl | earlier
    · obtain ⟨rfl, findings, rfl⟩ := Event.accepts?_eq_some.mp accepts
      exact List.mem_cons_of_mem _ (before.began_of_commit step)
    · exact List.mem_cons_of_mem e (ih (List.mem_filterMap.mpr ⟨f, earlier, accepts⟩))

theorem accepted_head?_of_since {document : String} {u : Nat × Ticket}
    (h : (accepted document (since document history)).head? = some u) :
    (accepted document history).head? = some u := by
  obtain ⟨older, split⟩ := List.takeWhile_prefix (l := history) (· ≠ Event.closed document)
  obtain ⟨rest, recent⟩ := List.head?_eq_some_iff.mp h
  rw [← split, accepted, List.filterMap_append]
  change (accepted document (since document history) ++ _).head? = some u
  rw [recent]
  rfl

/-- **Close wins over updates that were already waiting.** Whatever order the steps come in: the
update that published what a document shows began after the document was last closed; a commit
behind a close of its document that came after its begin returns nothing and changes nothing; and
without such a close an update is dropped only if a higher version was accepted since the document
was last closed. -/
theorem close_wins (run : Run runner name history s) :
    (∀ document, s.linter.collection.contains document = true →
      ∃ update t, (accepted document history).head? = some (update, t) ∧
        s.linter.collection.get document = s.linter.findings document t.text ∧
        .began update t ∈ since document history) ∧
    ∀ update t result s', Step s (.committed update t result) s' →
      .began update t ∈ history ∧
      ∀ later earlier, history = later ++ .began update t :: earlier →
        (.closed t.document ∈ later → result = none ∧ s'.linter = s.linter) ∧
        (.closed t.document ∉ later → result = none →
          ∃ v higher, t.version = some v ∧ v < higher ∧
            higher ∈ acceptedVersions t.document (since t.document history)) := by
  constructor
  · intro document shown
    have published := (run.records document).published
    rw [Collection.contains_eq_lookup] at shown
    obtain ⟨findings, entry⟩ := Option.isSome_iff_exists.mp shown
    have get : s.linter.collection.get document = findings := by
      rw [Collection.get_eq_lookup, entry, Option.getD_some]
    rw [Linter.published?, entry] at published
    obtain ⟨⟨update, t⟩, latest, same⟩ := Option.map_eq_some_iff.mp published.symm
    have member := List.mem_of_mem_head? latest
    exact ⟨update, t, accepted_head?_of_since latest, get.trans same.symm,
      run.began_of_accepted member⟩
  · intro update t result s' step
    obtain ⟨waits, returned, linter⟩ := step.committed_cases
    refine ⟨run.began_of_waits waits, ?_⟩
    rintro later earlier rfl
    constructor
    · intro closed
      have unchanged := run.commit_of_closed closed
      exact ⟨by rw [returned, unchanged], by rw [linter, unchanged]⟩
    · rintro stays rfl
      exact run.exists_higher_of_stale (run.stale_of_dropped stays returned.symm)

/-- An update is under way while its document is closed twice. -/
theorem close_wins_twice_closed :
    let l : Linter := { runner := {}, collection := { name := "tesseract" } }
    let t := l.begin "a.tes" "let$ x = 1" (some 1)
    let closed := ((l.close "a.tes").linter.close "a.tes").linter
    Run {} "tesseract" [.closed "a.tes", .closed "a.tes", .began 0 t] ⟨closed, [(0, t)], 1⟩ ∧
      (closed.commit t).result = none ∧ (closed.commit t).linter = closed := by
  intro l t closed
  have run : Run {} "tesseract" [.closed "a.tes", .closed "a.tes", .began 0 t]
      ⟨closed, [(0, t)], 1⟩ :=
    .next (.next (.next .start (.begin _ "a.tes" "let$ x = 1" (some 1) (some languageId)
      (by decide))) (.close _ _)) (.close _ _)
  have step := Step.commit ⟨closed, [(0, t)], 1⟩ 0 t List.mem_cons_self
  have dropped := ((close_wins run).2 0 t _ _ step).2 [.closed "a.tes", .closed "a.tes"] [] rfl
  exact ⟨run, dropped.1 List.mem_cons_self⟩

end LexLint.Interleaving
