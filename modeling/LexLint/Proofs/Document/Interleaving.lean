import LexLint.Document.Linter

/-!
# Interleaved updates

Any number of updates may be under way on any documents. An update begins and later commits, a
document is closed at once, and these steps come in any order (`Step`, `Run`). A run keeps what
happened, latest first. The step lemmas say what a step does to the three records of a linter:
the published findings, the versions and the generations.
-/

namespace LexLint

/-- What a key stands for. -/
def lookup {α : Type} (key : String) (entries : List (String × α)) : Option α :=
  (entries.find? (·.1 == key)).map (·.2)

theorem lookup_putEntry {α : Type} (key other : String) (value : α)
    (entries : List (String × α)) :
    lookup other (putEntry key value entries) =
      if key = other then some value else lookup other entries := by
  induction entries with
  | nil => by_cases h : key = other <;> simp [lookup, putEntry, h]
  | cons entry rest ih =>
    obtain ⟨k, v⟩ := entry
    by_cases hk : k = key
    · subst hk
      by_cases h : k = other <;> simp [lookup, putEntry, h]
    · by_cases h : k = other
      · subst h
        simp [lookup, putEntry, hk, Ne.symm hk]
      · simpa [lookup, putEntry, hk, h] using ih

theorem lookup_filter_ne {α : Type} (key other : String) (entries : List (String × α)) :
    lookup other (entries.filter (·.1 != key)) =
      if key = other then none else lookup other entries := by
  induction entries with
  | nil => simp [lookup]
  | cons entry rest ih =>
    obtain ⟨k, v⟩ := entry
    by_cases hk : k = key
    · subst hk
      rw [List.filter_cons_of_neg (by simp), ih]
      by_cases h : k = other <;> simp [lookup, h]
    · by_cases h : k = other
      · subst h
        simp [lookup, hk, Ne.symm hk]
      · simpa [lookup, hk, h] using ih

theorem Collection.contains_eq_lookup (c : Collection) (document : String) :
    c.contains document = (lookup document c.entries).isSome := by
  rw [Collection.contains, lookup, Option.isSome_map, List.isSome_find?]

theorem Collection.get_eq_lookup (c : Collection) (document : String) :
    c.get document = (lookup document c.entries).getD [] :=
  rfl

namespace Linter

/-- The findings published for a document. -/
def published? (l : Linter) (document : String) : Option (List Finding) :=
  lookup document l.collection.entries

/-- A commit drops its update, because the document was closed since it began or because the
version is stale; or it accepts it and publishes its findings. -/
theorem commit_cases (l : Linter) (t : Ticket) :
    (l.commit t = ⟨l, none, []⟩ ∧
      (l.generation t.document ≠ t.generation ∨ l.isStale t.document t.version = true)) ∨
    ((l.commit t).result = some (l.findings t.document t.text) ∧
      l.generation t.document = t.generation ∧ l.isStale t.document t.version = false) := by
  by_cases h : l.generation t.document ≠ t.generation ∨ l.isStale t.document t.version = true
  · exact .inl ⟨by simp [commit, h], h⟩
  · refine .inr ⟨by simp [commit, h], ?_, ?_⟩
    · exact Decidable.not_not.mp fun differ => h (.inl differ)
    · exact Bool.eq_false_iff.mpr fun stale => h (.inr stale)

theorem commit_runner (l : Linter) (t : Ticket) : (l.commit t).linter.runner = l.runner := by
  unfold commit
  split <;> rfl

theorem commit_generation (l : Linter) (t : Ticket) (document : String) :
    (l.commit t).linter.generation document = l.generation document := by
  unfold commit
  split <;> rfl

/-- An accepted update is published, and its version, if it has one, recorded. -/
theorem commit_accepted {l : Linter} {t : Ticket} {findings : List Finding}
    (h : (l.commit t).result = some findings) (document : String) :
    (l.commit t).linter.published? document =
      (if t.document = document then some findings else l.published? document) ∧
    (l.commit t).linter.version? document =
      (if t.document = document then t.version.or (l.version? document)
       else l.version? document) := by
  have taken : ¬ (l.generation t.document ≠ t.generation ∨
      l.isStale t.document t.version = true) := by
    intro dropped
    simp [commit, dropped] at h
  obtain rfl : l.findings t.document t.text = findings := by
    simpa [commit, taken] using h
  simp only [commit, taken, if_false]
  refine ⟨lookup_putEntry .., ?_⟩
  cases t.version with
  | none => simp [version?]
  | some v => exact lookup_putEntry ..

theorem close_published? (l : Linter) (document other : String) :
    (l.close document).linter.published? other =
      if document = other then none else l.published? other :=
  lookup_filter_ne document other l.collection.entries

theorem close_version? (l : Linter) (document other : String) :
    (l.close document).linter.version? other =
      if document = other then none else l.version? other :=
  lookup_filter_ne document other l.versions

theorem close_generation (l : Linter) (document other : String) :
    (l.close document).linter.generation other =
      l.generation other + if document = other then 1 else 0 := by
  have put := lookup_putEntry document other (l.generation document + 1) l.generations
  change (lookup other (putEntry document (l.generation document + 1) l.generations)).getD 0 = _
  rw [put]
  split
  · rename_i same
    rw [← same]
    rfl
  · rfl

end Linter

namespace Interleaving

/-- What happens in a run. An update is known by the number that it gets when it begins. -/
inductive Event where
  | began (update : Nat) (ticket : Ticket)
  | committed (update : Nat) (ticket : Ticket) (result : Option (List Finding))
  | closed (document : String)
  deriving DecidableEq

/-- A linter with the updates that have begun and not yet committed, and how many have begun. -/
structure Traffic where
  linter : Linter
  waiting : List (Nat × Ticket) := []
  begun : Nat := 0

/-- Nothing is under way on a linter that has published nothing. -/
def Traffic.empty (runner : Runner) (name : String) : Traffic :=
  { linter := { runner := runner, collection := { name := name } } }

/-- One step. An update of a document that is no script takes none. -/
inductive Step : Traffic → Event → Traffic → Prop where
  | begin (s : Traffic) (document text : String) (version : Option Int)
      (language : Option String) (script : isScript document language = true) :
      Step s (.began s.begun (s.linter.begin document text version))
        { s with
          waiting := (s.begun, s.linter.begin document text version) :: s.waiting
          begun := s.begun + 1 }
  | commit (s : Traffic) (update : Nat) (ticket : Ticket)
      (waits : (update, ticket) ∈ s.waiting) :
      Step s (.committed update ticket (s.linter.commit ticket).result)
        { s with
          linter := (s.linter.commit ticket).linter
          waiting := s.waiting.erase (update, ticket) }
  | close (s : Traffic) (document : String) :
      Step s (.closed document) { s with linter := (s.linter.close document).linter }

/-- A run from an empty linter, with what happened in it, latest first. -/
inductive Run (runner : Runner) (name : String) : List Event → Traffic → Prop where
  | start : Run runner name [] (.empty runner name)
  | next {history : List Event} {s t : Traffic} {e : Event} :
      Run runner name history s → Step s e t → Run runner name (e :: history) t

/-- What happened since a document was last closed. -/
def since (document : String) (history : List Event) : List Event :=
  history.takeWhile (· ≠ .closed document)

/-- The update of a document that an event accepts. -/
def Event.accepts? (document : String) : Event → Option (Nat × Ticket)
  | .committed update t (some _) => if t.document = document then some (update, t) else none
  | _ => none

/-- The updates of a document that were accepted, latest first. -/
def accepted (document : String) (history : List Event) : List (Nat × Ticket) :=
  history.filterMap (Event.accepts? document)

/-- The versions of a document that were accepted, latest first. -/
def acceptedVersions (document : String) (history : List Event) : List Int :=
  (accepted document history).filterMap (·.2.version)

theorem Event.accepts?_eq_some {document : String} {e : Event} {update : Nat} {t : Ticket} :
    e.accepts? document = some (update, t) ↔
      t.document = document ∧ ∃ findings, e = .committed update t (some findings) := by
  constructor
  · intro h
    unfold Event.accepts? at h
    split at h
    · rename_i other u findings
      simp only [Option.ite_none_right_eq_some, Option.some.injEq, Prod.mk.injEq] at h
      obtain ⟨same, rfl, rfl⟩ := h
      exact ⟨same, findings, rfl⟩
    · cases h
  · rintro ⟨rfl, findings, rfl⟩
    exact if_pos rfl

theorem since_cons_closed (document : String) (history : List Event) :
    since document (.closed document :: history) = [] := by
  simp [since]

theorem since_cons_of_ne {document : String} {e : Event} (h : e ≠ .closed document)
    (history : List Event) : since document (e :: history) = e :: since document history := by
  simp [since, h]

theorem since_append {document : String} {later : List Event} (h : .closed document ∉ later)
    (earlier : List Event) :
    since document (later ++ earlier) = later ++ since document earlier := by
  apply List.takeWhile_append_of_pos
  intro e he
  exact decide_eq_true fun same => h (same ▸ he)

theorem since_of_not_closed {document : String} {history : List Event}
    (h : .closed document ∉ history) : since document history = history := by
  simpa [since] using since_append h []

variable {runner : Runner} {name : String} {history : List Event} {s : Traffic}

/-- What came first in a run is a run. -/
theorem Run.exists_earlier {later earlier : List Event}
    (run : Run runner name (later ++ earlier) s) : ∃ a, Run runner name earlier a := by
  induction later generalizing s with
  | nil => exact ⟨s, run⟩
  | cons e rest ih =>
    cases run with
    | next before _ => exact ih before

/-- A run has been through each step that it records. -/
theorem Run.exists_step {later earlier : List Event} {e : Event}
    (run : Run runner name (later ++ e :: earlier) s) :
    ∃ a b, Run runner name earlier a ∧ Step a e b := by
  obtain ⟨b, reached⟩ := run.exists_earlier
  cases reached with
  | next before step => exact ⟨_, b, before, step⟩

theorem Run.runner_eq (run : Run runner name history s) : s.linter.runner = runner := by
  induction run with
  | start => rfl
  | next _ step ih =>
    cases step with
    | begin => exact ih
    | commit update ticket => rw [Linter.commit_runner, ih]
    | close => exact ih

/-- The generation of a document counts how often it was closed. -/
theorem Run.generation_eq (run : Run runner name history s) (document : String) :
    s.linter.generation document = history.count (.closed document) := by
  induction run with
  | start => rfl
  | next _ step ih =>
    cases step with
    | begin => simpa using ih
    | commit update ticket => simpa [Linter.commit_generation] using ih
    | close other =>
      rw [Linter.close_generation, ih, List.count_cons]
      simp

/-- An update carries the generation that its document had when it began. -/
theorem Run.generation_of_began {later earlier : List Event} {update : Nat} {t : Ticket}
    (run : Run runner name (later ++ .began update t :: earlier) s) :
    t.generation = earlier.count (.closed t.document) := by
  obtain ⟨a, _, before, step⟩ := run.exists_step
  cases step with
  | begin document => exact before.generation_eq document

theorem Run.began_of_waits (run : Run runner name history s) {update : Nat} {t : Ticket}
    (h : (update, t) ∈ s.waiting) : .began update t ∈ history := by
  induction run with
  | start => simp [Traffic.empty] at h
  | next _ step ih =>
    cases step with
    | begin =>
      rcases List.mem_cons.mp h with same | waits
      · obtain ⟨rfl, rfl⟩ := Prod.mk.inj same
        exact List.mem_cons_self
      · exact List.mem_cons_of_mem _ (ih waits)
    | commit => exact List.mem_cons_of_mem _ (ih (List.mem_of_mem_erase h))
    | close => exact List.mem_cons_of_mem _ (ih h)

/-- An update is up to date exactly if its document was not closed since it began. -/
theorem Run.generation_iff {later earlier : List Event} {update : Nat} {t : Ticket}
    (run : Run runner name (later ++ .began update t :: earlier) s) :
    s.linter.generation t.document = t.generation ↔ .closed t.document ∉ later := by
  rw [run.generation_eq, run.generation_of_began, List.count_append, List.count_cons]
  simp [List.count_eq_zero]

/-- What a linter records of a document is what was accepted since the document was last closed:
the findings of the update accepted last, and the highest version, which is also the last. -/
structure Records (l : Linter) (document : String) (recent : List Event) : Prop where
  published : l.published? document =
    (accepted document recent).head?.map fun u => l.findings document u.2.text
  version : l.version? document = (acceptedVersions document recent).max?
  ordered : (acceptedVersions document recent).Pairwise (· ≥ ·)

theorem Records.of_accepts_none {l : Linter} {document : String} {recent : List Event}
    (h : Records l document recent) {e : Event} (he : e.accepts? document = none) :
    Records l document (e :: recent) := by
  have same : accepted document (e :: recent) = accepted document recent := by
    simp [accepted, he]
  have sameVersions : acceptedVersions document (e :: recent) =
      acceptedVersions document recent := by
    rw [acceptedVersions, same, acceptedVersions]
  exact ⟨same ▸ h.published, sameVersions ▸ h.version, sameVersions ▸ h.ordered⟩

/-- A version that is not stale is as high as all accepted before. -/
theorem Records.le_of_not_stale {l : Linter} {document : String} {recent : List Event}
    (h : Records l document recent) {v : Int} (fresh : l.isStale document (some v) = false) :
    ∀ u ∈ acceptedVersions document recent, u ≤ v := by
  intro u hu
  have recorded := h.version
  cases hmax : (acceptedVersions document recent).max? with
  | none => simp [List.max?_eq_none_iff.mp hmax] at hu
  | some last =>
    rw [hmax] at recorded
    have le := (List.max?_eq_some_iff.mp hmax).2 u hu
    simp only [Linter.isStale, recorded, decide_eq_false_iff_not] at fresh
    omega

/-- A linter that records the same of a document agrees with the same history. -/
theorem Records.congr {l l' : Linter} {document : String} {recent : List Event}
    (h : Records l document recent) (runner : l'.runner = l.runner)
    (published : l'.published? document = l.published? document)
    (version : l'.version? document = l.version? document) : Records l' document recent := by
  refine ⟨?_, version.trans h.version, h.ordered⟩
  rw [published, h.published]
  simp only [Linter.findings, runner]

theorem Records.of_accepted {l : Linter} {t : Ticket} {recent : List Event}
    (h : Records l t.document recent) (fresh : l.isStale t.document t.version = false)
    (result : (l.commit t).result = some (l.findings t.document t.text)) {e : Event}
    {update : Nat} (he : e.accepts? t.document = some (update, t)) :
    Records (l.commit t).linter t.document (e :: recent) := by
  obtain ⟨published, version⟩ := Linter.commit_accepted result t.document
  rw [if_pos rfl] at published version
  have latest : accepted t.document (e :: recent) =
      (update, t) :: accepted t.document recent := by
    simp [accepted, he]
  have entry : (l.commit t).linter.published? t.document = (accepted t.document
      (e :: recent)).head?.map fun u => (l.commit t).linter.findings t.document u.2.text := by
    rw [published, latest]
    simp [Linter.findings, Linter.commit_runner]
  cases hv : t.version with
  | none =>
    have versions : acceptedVersions t.document (e :: recent) =
        acceptedVersions t.document recent := by
      simp [acceptedVersions, latest, hv]
    refine ⟨entry, ?_, versions ▸ h.ordered⟩
    rw [version, hv, Option.none_or, versions, h.version]
  | some v =>
    have highest := h.le_of_not_stale (hv ▸ fresh)
    have versions : acceptedVersions t.document (e :: recent) =
        v :: acceptedVersions t.document recent := by
      simp [acceptedVersions, latest, hv]
    refine ⟨entry, ?_, ?_⟩
    · rw [version, hv, Option.some_or, versions, eq_comm, List.max?_eq_some_iff]
      simpa using highest
    · rw [versions, List.pairwise_cons]
      exact ⟨highest, h.ordered⟩

/-- **The records of a linter are a function of what happened since the last close.** -/
theorem Run.records (run : Run runner name history s) (document : String) :
    Records s.linter document (since document history) := by
  induction run with
  | start => exact ⟨rfl, rfl, .nil⟩
  | @next history a b e before step ih =>
    cases step with
    | begin =>
      rw [since_cons_of_ne (by simp)]
      exact ih.of_accepts_none rfl
    | commit update t waits =>
      rw [since_cons_of_ne (by simp)]
      -- Only an accepted update of this very document changes what is recorded of it.
      rcases Linter.commit_cases a.linter t with ⟨dropped, _⟩ | ⟨result, _, fresh⟩
      · rw [dropped]
        exact ih.of_accepts_none rfl
      · rw [result]
        by_cases same : t.document = document
        · subst same
          exact ih.of_accepted fresh result (if_pos rfl : _ = some (update, t))
        · obtain ⟨published, version⟩ := Linter.commit_accepted result document
          rw [if_neg same] at published version
          have other := ih.congr (Linter.commit_runner a.linter t) published version
          exact other.of_accepts_none (by simp [Event.accepts?, same])
    | close other =>
      by_cases same : other = document
      · subst same
        rw [since_cons_closed]
        refine ⟨?_, ?_, .nil⟩
        · rw [Linter.close_published?, if_pos rfl]
          rfl
        · rw [Linter.close_version?, if_pos rfl]
          rfl
      · rw [since_cons_of_ne (by simpa using same)]
        have kept : Records (a.linter.close other).linter document (since document history) :=
          ih.congr rfl (by rw [Linter.close_published?, if_neg same])
            (by rw [Linter.close_version?, if_neg same])
        exact kept.of_accepts_none rfl

end Interleaving

end LexLint
