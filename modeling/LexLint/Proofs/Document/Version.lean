import LexLint.Proofs.Document.Close
import Mathlib.Data.List.Nodup

/-!
# The latest version wins

The version recorded for a document is the highest that was accepted since the document was last
closed, and accepted versions never go down. So the order in which versioned updates commit does
not matter: the document ends with the findings of the highest version (`latest_version_wins`).
-/

namespace LexLint.Interleaving

variable {runner : Runner} {name : String} {history : List Event} {s s' : Traffic}
variable {update : Nat} {t : Ticket} {result : Option (List Finding)}

/-- The update of a document that an event commits, accepted or not: its version and its text. -/
def Event.commits? (document : String) : Event → Option (Option Int × String)
  | .committed _ t _ => if t.document = document then some (t.version, t.text) else none
  | _ => none

/-- The updates of a document that committed, accepted or not, latest first. -/
def committed (document : String) (history : List Event) : List (Option Int × String) :=
  history.filterMap (Event.commits? document)

theorem mem_committed {document : String} {version : Option Int} {text : String} :
    (version, text) ∈ committed document history ↔
      ∃ update t result, .committed update t result ∈ history ∧ t.document = document ∧
        t.version = version ∧ t.text = text := by
  constructor
  · intro h
    obtain ⟨e, he, commits⟩ := List.mem_filterMap.mp h
    cases e with
    | began | closed => simp [Event.commits?] at commits
    | committed update t result =>
      simp only [Event.commits?, Option.ite_none_right_eq_some, Option.some.injEq,
        Prod.mk.injEq] at commits
      exact ⟨update, t, result, he, commits⟩
  · rintro ⟨update, t, result, he, same, rfl, rfl⟩
    exact List.mem_filterMap.mpr ⟨_, he, if_pos same⟩

theorem mem_accepted {document : String} :
    (update, t) ∈ accepted document history ↔
      t.document = document ∧ ∃ findings, .committed update t (some findings) ∈ history := by
  constructor
  · intro h
    obtain ⟨e, he, accepts⟩ := List.mem_filterMap.mp h
    obtain ⟨same, findings, rfl⟩ := Event.accepts?_eq_some.mp accepts
    exact ⟨same, findings, he⟩
  · rintro ⟨same, findings, he⟩
    exact List.mem_filterMap.mpr ⟨_, he, Event.accepts?_eq_some.mpr ⟨same, findings, rfl⟩⟩

/-- What was accepted also committed. -/
theorem committed_of_mem_accepted {document : String}
    (h : (update, t) ∈ accepted document history) :
    (t.version, t.text) ∈ committed document history := by
  obtain ⟨same, findings, he⟩ := mem_accepted.mp h
  exact mem_committed.mpr ⟨update, t, _, he, same, rfl, rfl⟩

theorem committed_of_mem_acceptedVersions {document : String} {v : Int}
    (h : v ∈ acceptedVersions document history) :
    ∃ text, (some v, text) ∈ committed document history := by
  obtain ⟨⟨update, t⟩, member, version⟩ := List.mem_filterMap.mp h
  exact ⟨t.text, version ▸ committed_of_mem_accepted member⟩

theorem acceptedVersions_append (document : String) (later earlier : List Event) :
    acceptedVersions document (later ++ earlier) =
      acceptedVersions document later ++ acceptedVersions document earlier := by
  simp only [acceptedVersions, accepted, List.filterMap_append]

/-- Accepted versions do not go down while a document is not closed. -/
theorem Run.acceptedVersions_ordered {document : String} {later middle earlier : List Event}
    (run : Run runner name (later ++ middle ++ earlier) s) (stays : .closed document ∉ middle) :
    (acceptedVersions document middle).Pairwise (· ≥ ·) := by
  rw [List.append_assoc] at run
  obtain ⟨a, reached⟩ := run.exists_earlier
  have ordered := (reached.records document).ordered
  rw [since_append stays, acceptedVersions_append] at ordered
  exact (List.pairwise_append.mp ordered).1

/-- A version below the one recorded is dropped and changes nothing. -/
theorem commit_of_lt {l : Linter} {v last : Int} (version : t.version = some v)
    (recorded : l.version? t.document = some last) (lt : v < last) :
    l.commit t = ⟨l, none, []⟩ := by
  have stale : l.isStale t.document t.version = true := by
    simp [Linter.isStale, version, recorded, lt]
  rcases l.commit_cases t with ⟨dropped, _⟩ | ⟨_, _, fresh⟩
  · exact dropped
  · rw [stale] at fresh
    cases fresh

/-- While a document is not closed, an update of it is dropped only below an accepted version. -/
theorem Run.exists_higher_of_dropped (run : Run runner name history s)
    (dropped : .committed update t none ∈ history) (stays : .closed t.document ∉ history) :
    ∃ v higher, t.version = some v ∧ v < higher ∧
      higher ∈ acceptedVersions t.document history := by
  obtain ⟨later, earlier, rfl⟩ := List.append_of_mem dropped
  obtain ⟨a, b, before, step⟩ := run.exists_step
  obtain ⟨waits, returned, _⟩ := step.committed_cases
  have unclosed : .closed t.document ∉ earlier := fun closed =>
    stays (List.mem_append_right _ (List.mem_cons_of_mem _ closed))
  obtain ⟨recent, old, rfl⟩ := List.append_of_mem (before.began_of_waits waits)
  have stale := before.stale_of_dropped
    (fun closed => unclosed (List.mem_append_left _ closed)) returned.symm
  obtain ⟨v, higher, version, lt, member⟩ := before.exists_higher_of_stale stale
  rw [since_of_not_closed unclosed] at member
  refine ⟨v, higher, version, lt, ?_⟩
  rw [List.append_cons, acceptedVersions_append]
  exact List.mem_append_right _ member

/-- The highest of some updates is the one that a document shows in the end. -/
theorem Run.published_highest {document : String} (run : Run runner name history s)
    (stays : .closed document ∉ history) {updates : List (Int × String)}
    (commits : (committed document history).Perm (updates.map fun u => (some u.1, u.2)))
    (distinct : (updates.map (·.1)).Nodup) {u : Int × String} (hu : u ∈ updates)
    (highest : ∀ w ∈ updates, w.1 ≤ u.1) :
    s.linter.published? document = some (s.linter.findings document u.2) := by
  obtain ⟨v, text⟩ := u
  have committed_iff (w : Int) (other : String) :
      (some w, other) ∈ committed document history ↔ (w, other) ∈ updates := by
    simp [commits.mem_iff]
  -- The highest update was accepted: nothing higher could have made it stale.
  have member : v ∈ acceptedVersions document history := by
    obtain ⟨update, t, result, he, rfl, version, rfl⟩ :=
      mem_committed.mp ((committed_iff v text).mpr hu)
    cases result with
    | some findings =>
      exact List.mem_filterMap.mpr ⟨(update, t), mem_accepted.mpr ⟨rfl, findings, he⟩, version⟩
    | none =>
      obtain ⟨v', higher, version', lt, above⟩ := run.exists_higher_of_dropped he stays
      obtain ⟨other, hother⟩ := committed_of_mem_acceptedVersions above
      have := highest _ ((committed_iff higher other).mp hother)
      rw [version] at version'
      obtain rfl := Option.some.inj version'
      simp only at this
      omega
  have records := run.records document
  rw [since_of_not_closed stays] at records
  cases latest : accepted document history with
  | nil => simp [acceptedVersions, latest] at member
  | cons first rest =>
    obtain ⟨update, t⟩ := first
    have shown := committed_of_mem_accepted (latest ▸ List.mem_cons_self)
    obtain ⟨⟨w, other⟩, hw, same⟩ := List.mem_map.mp (commits.mem_iff.mp shown)
    obtain ⟨version, rfl⟩ := Prod.mk.inj same
    -- Accepted versions do not go down, so the last one is the highest.
    have versions : acceptedVersions document history =
        w :: rest.filterMap (·.2.version) := by
      simp [acceptedVersions, latest, ← version]
    have top : v ≤ w := by
      have ordered := records.ordered
      rw [versions] at ordered member
      rcases List.mem_cons.mp member with rfl | later
      · exact Int.le_refl _
      · exact (List.pairwise_cons.mp ordered).1 v later
    have bound := highest _ hw
    have equal := List.inj_on_of_nodup_map distinct hw hu (Int.le_antisymm bound top)
    obtain ⟨_, text⟩ := Prod.mk.inj equal
    rw [records.published, latest, List.head?_cons, Option.map_some, text]

/-- **The latest version wins in every order.** Whatever order the steps come in: the version
recorded for a document is the highest accepted since it was last closed, accepted versions do not
go down between two closes, and a version below the one recorded is dropped without effect; and if
updates of a document with different versions are all that ever committed for it, and it was never
closed, then it shows the findings of the highest version. -/
theorem latest_version_wins (run : Run runner name history s) :
    (∀ document, s.linter.version? document =
      (acceptedVersions document (since document history)).max?) ∧
    (∀ document later middle earlier, history = later ++ middle ++ earlier →
      .closed document ∉ middle → (acceptedVersions document middle).Pairwise (· ≥ ·)) ∧
    (∀ update t result s', Step s (.committed update t result) s' →
      ∀ v last, t.version = some v → s.linter.version? t.document = some last → v < last →
        result = none ∧ s'.linter = s.linter) ∧
    ∀ document (updates : List (Int × String)), .closed document ∉ history →
      (committed document history).Perm (updates.map fun u => (some u.1, u.2)) →
      (updates.map (·.1)).Nodup → ∀ u ∈ updates, (∀ w ∈ updates, w.1 ≤ u.1) →
        ∃ r, runner.run (.ofString document u.2) none = .ok r ∧
          s.linter.collection.contains document = true ∧
          s.linter.collection.get document = r.findings := by
  refine ⟨fun document => (run.records document).version, ?_, ?_, ?_⟩
  · rintro document later middle earlier rfl stays
    exact run.acceptedVersions_ordered stays
  · intro update t result s' step v last version recorded lt
    obtain ⟨_, returned, linter⟩ := step.committed_cases
    have unchanged := commit_of_lt version recorded lt
    exact ⟨by rw [returned, unchanged], by rw [linter, unchanged]⟩
  · intro document updates stays commits distinct u hu highest
    have published := run.published_highest stays commits distinct hu highest
    refine ⟨_, rfl, ?_, ?_⟩
    · rw [Collection.contains_eq_lookup]
      exact Option.isSome_iff_exists.mpr ⟨_, published⟩
    · rw [Linter.published?] at published
      rw [Collection.get_eq_lookup, published, Option.getD_some, Linter.findings, run.runner_eq]

/-- The second version commits before the first. -/
theorem latest_version_wins_out_of_order :
    let l : Linter := { runner := {}, collection := { name := "tesseract" } }
    let old := l.begin "a.tes" "let$ x = 1" (some 1)
    let new := l.begin "a.tes" "let$ x = 1;" (some 2)
    let first := l.commit new
    let second := first.linter.commit old
    let history : List Event := [.committed 0 old second.result, .committed 1 new first.result,
      .began 1 new, .began 0 old]
    Run {} "tesseract" history ⟨second.linter, [], 2⟩ ∧ .closed "a.tes" ∉ history ∧
      ∃ r, Runner.run {} (.ofString "a.tes" "let$ x = 1;") none = .ok r ∧
        second.linter.collection.contains "a.tes" = true ∧
        second.linter.collection.get "a.tes" = r.findings := by
  intro l old new first second history
  have run : Run {} "tesseract" history ⟨second.linter, [], 2⟩ :=
    .next (.next (.next (.next .start
      (.begin _ "a.tes" "let$ x = 1" (some 1) (some languageId) (by decide)))
      (.begin _ "a.tes" "let$ x = 1;" (some 2) (some languageId) (by decide)))
      (.commit _ 1 new List.mem_cons_self)) (.commit _ 0 old (by decide))
  have stays : .closed "a.tes" ∉ history := by simp [history]
  have commits : (committed "a.tes" history).Perm
      ([(1, "let$ x = 1"), (2, "let$ x = 1;")].map fun u => (some u.1, u.2)) := .refl _
  exact ⟨run, stays, (latest_version_wins run).2.2.2 "a.tes" _ stays commits (by decide)
    (2, "let$ x = 1;") (by decide) (by decide)⟩

end LexLint.Interleaving
