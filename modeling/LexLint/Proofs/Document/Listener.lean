import LexLint.Proofs.Document.Interleaving

/-!
# Listeners

Documents are updated and closed, and the collection is also changed by hand. A listener that
remembers only what it was last told of each document knows the collection
(`Watched.valid_after`). Documents stay apart: an operation on one of them leaves what is
recorded of the others as it is (`Operation.apply_other`).
-/

namespace LexLint

theorem map_fst_putEntry {α : Type} (key : String) (value : α) (entries : List (String × α)) :
    (putEntry key value entries).map (·.1) =
      if key ∈ entries.map (·.1) then entries.map (·.1) else entries.map (·.1) ++ [key] := by
  induction entries with
  | nil => simp [putEntry]
  | cons entry rest ih =>
    obtain ⟨k, v⟩ := entry
    by_cases same : k = key
    · simp [putEntry, same]
    · simp only [putEntry, if_neg same, List.map_cons, ih, List.mem_cons, Ne.symm same, false_or]
      split <;> simp

namespace Collection

/-- The documents that are published, in their order. -/
def documents (c : Collection) : List String := c.entries.map (·.1)

theorem documents_set (c : Collection) (document : String) (findings : List Finding) :
    (c.set document findings).1.documents =
      if document ∈ c.documents then c.documents else c.documents ++ [document] :=
  map_fst_putEntry document findings c.entries

theorem documents_delete (c : Collection) (document : String) :
    (c.delete document).1.documents = c.documents.filter (· != document) := by
  simp only [documents, delete, List.filter_map]
  rfl

end Collection

/-- An update is dropped and changes nothing, or it is published, and its version, if it has one,
recorded. -/
theorem Linter.update_cases (l : Linter) (document text : String) (version : Option Int)
    (language : Option String) :
    l.update document text version language = ⟨l, none, []⟩ ∨
    l.update document text version language =
      ⟨{ l with
          collection := (l.collection.set document (l.findings document text)).1
          versions := match version with
            | some v => putEntry document v l.versions
            | none => l.versions },
        some (l.findings document text), [⟨document, l.findings document text⟩]⟩ := by
  unfold update
  split
  · unfold commit
    split
    · exact .inl rfl
    · exact .inr rfl
  · exact .inl rfl

namespace Listening

/-- What is done to a linter, or by hand to its collection. -/
inductive Operation where
  | update (document text : String) (version : Option Int) (language : Option String)
  | close (document : String)
  | set (document : String) (findings : List Finding)
  | delete (document : String)
  | clear

/-- What a step leaves behind besides its result. -/
def traces {α : Type} (step : LinterStep α) : Linter × List Publication :=
  (step.linter, step.events)

namespace Operation

/-- The document that an operation is about; clearing is about all of them. -/
def document? : Operation → Option String
  | .update document _ _ _ => some document
  | .close document => some document
  | .set document _ => some document
  | .delete document => some document
  | .clear => none

/-- The linter after an operation, and what a listener is told. -/
def apply (l : Linter) : Operation → Linter × List Publication
  | .update document text version language => traces (l.update document text version language)
  | .close document => traces (l.close document)
  | .set document findings => traces (l.publish (·.set document findings))
  | .delete document => traces (l.publish (·.delete document))
  | .clear => traces (l.publish (·.clear))

/-- An operation on one document leaves what is recorded of the others. -/
theorem apply_other {op : Operation} {document other : String}
    (about : op.document? = some document) (h : document ≠ other) (l : Linter) :
    (op.apply l).1.published? other = l.published? other ∧
      (op.apply l).1.version? other = l.version? other ∧
      (op.apply l).1.generation other = l.generation other := by
  cases op with
  | update d text version language =>
    obtain rfl := Option.some.inj about
    rcases l.update_cases d text version language with dropped | accepted
    · rw [apply, dropped]
      exact ⟨rfl, rfl, rfl⟩
    · rw [apply, accepted]
      refine ⟨(lookup_putEntry ..).trans (if_neg h), ?_, rfl⟩
      cases version with
      | none => rfl
      | some v => exact (lookup_putEntry ..).trans (if_neg h)
  | close d =>
    obtain rfl := Option.some.inj about
    refine ⟨?_, ?_, ?_⟩
    · exact (l.close_published? d other).trans (if_neg h)
    · exact (l.close_version? d other).trans (if_neg h)
    · exact (l.close_generation d other).trans (by rw [if_neg h, Nat.add_zero])
  | set d findings =>
    obtain rfl := Option.some.inj about
    exact ⟨(lookup_putEntry ..).trans (if_neg h), rfl, rfl⟩
  | delete d =>
    obtain rfl := Option.some.inj about
    exact ⟨(lookup_filter_ne ..).trans (if_neg h), rfl, rfl⟩
  | clear => cases about

end Operation

/-- What a listener was last told of a document. -/
def lastTold (document : String) (heard : List Publication) : Option (List Finding) :=
  (heard.filter (·.document == document)).getLast?.map (·.findings)

theorem lastTold_append (document : String) (earlier later : List Publication) :
    lastTold document (earlier ++ later) =
      (lastTold document later).or (lastTold document earlier) := by
  rw [lastTold, List.filter_append, List.getLast?_append, Option.map_or]
  rfl

theorem lastTold_singleton (document other : String) (findings : List Finding) :
    lastTold other [⟨document, findings⟩] = if document = other then some findings else none := by
  by_cases same : document = other <;> simp [lastTold, same]

theorem lastTold_eq_none_iff {document : String} {heard : List Publication} :
    lastTold document heard = none ↔ ∀ p ∈ heard, p.document ≠ document := by
  simp [lastTold]

theorem exists_of_lastTold {document : String} {heard : List Publication}
    {findings : List Finding} (h : lastTold document heard = some findings) :
    ∃ p ∈ heard, p.document = document ∧ p.findings = findings := by
  obtain ⟨p, last, same⟩ := Option.map_eq_some_iff.mp h
  obtain ⟨member, about⟩ := List.mem_filter.mp (List.mem_of_getLast? last)
  exact ⟨p, member, by simpa using about, same⟩

/-- The listener is told all that changes from one collection to another. -/
def Tells (events : List Publication) (before after : Collection) : Prop :=
  ∀ document, lastTold document events = some (after.get document) ∨
    lastTold document events = none ∧
      lookup document after.entries = lookup document before.entries

theorem tells_set (c : Collection) (document : String) (findings : List Finding) :
    Tells (c.set document findings).2 c (c.set document findings).1 := by
  intro other
  have told : lastTold other (c.set document findings).2 = _ :=
    lastTold_singleton document other findings
  have entry : lookup other (c.set document findings).1.entries = _ :=
    lookup_putEntry document other findings c.entries
  by_cases same : document = other
  · left
    rw [told, Collection.get_eq_lookup, entry, if_pos same, if_pos same]
    rfl
  · right
    rw [told, entry, if_neg same, if_neg same]
    exact ⟨rfl, rfl⟩

theorem tells_delete (c : Collection) (document : String) :
    Tells (c.delete document).2 c (c.delete document).1 := by
  intro other
  have entry : lookup other (c.delete document).1.entries = _ :=
    lookup_filter_ne document other c.entries
  by_cases present : c.contains document = true
  · have events : (c.delete document).2 = [⟨document, []⟩] := if_pos present
    rw [events, lastTold_singleton, Collection.get_eq_lookup, entry]
    by_cases same : document = other
    · rw [if_pos same, if_pos same]
      exact .inl rfl
    · rw [if_neg same, if_neg same]
      exact .inr ⟨rfl, rfl⟩
  · -- Nothing is withdrawn, and the listener stays silent.
    have events : (c.delete document).2 = [] := if_neg present
    have absent : lookup document c.entries = none := by
      rw [Collection.contains_eq_lookup] at present
      simpa using present
    rw [events, entry]
    refine .inr ⟨rfl, ?_⟩
    split
    · rename_i same
      rw [← same, absent]
    · rfl

theorem tells_clear (c : Collection) : Tells c.clear.2 c c.clear.1 := by
  intro document
  cases told : lastTold document c.clear.2 with
  | some findings =>
    obtain ⟨p, member, -, rfl⟩ := exists_of_lastTold told
    obtain ⟨entry, -, rfl⟩ := List.mem_map.mp member
    exact .inl rfl
  | none =>
    refine .inr ⟨rfl, ?_⟩
    have absent : ∀ e ∈ c.entries, e.1 ≠ document := fun e he =>
      lastTold_eq_none_iff.mp told _ (List.mem_map_of_mem he)
    have missing : lookup document c.entries = none := by
      simpa [lookup] using absent
    rw [missing]
    rfl

theorem Operation.tells_apply (op : Operation) (l : Linter) :
    Tells (op.apply l).2 l.collection (op.apply l).1.collection := by
  cases op with
  | update document text version language =>
    rcases l.update_cases document text version language with dropped | accepted
    · rw [apply, dropped]
      exact fun _ => .inr ⟨rfl, rfl⟩
    · rw [apply, accepted]
      exact tells_set l.collection document _
  | close document => exact tells_delete l.collection document
  | set document findings => exact tells_set l.collection document findings
  | delete document => exact tells_delete l.collection document
  | clear => exact tells_clear l.collection

/-- Of each document the listener was last told what the collection holds, or it was told nothing
and the document is not there. -/
def Mirrors (heard : List Publication) (c : Collection) : Prop :=
  ∀ document, lastTold document heard = some (c.get document) ∨
    lastTold document heard = none ∧ lookup document c.entries = none

theorem Mirrors.append {heard events : List Publication} {before after : Collection}
    (h : Mirrors heard before) (told : Tells events before after) :
    Mirrors (heard ++ events) after := by
  intro document
  rw [lastTold_append]
  rcases told document with now | ⟨silent, same⟩
  · rw [now]
    exact .inl rfl
  · rw [silent, Option.none_or, Collection.get_eq_lookup, same]
    exact h document

/-- Where a document comes when it is published: one that is there keeps its place, and one that
is new, or was withdrawn, comes last. -/
def place (document : String) (documents : List String) : List String :=
  if document ∈ documents then documents else documents ++ [document]

theorem nodup_place {documents : List String} (h : documents.Nodup) (document : String) :
    (place document documents).Nodup := by
  unfold place
  split
  · exact h
  · rename_i new
    exact List.nodup_append.mpr ⟨h, by simp, by grind⟩

namespace Operation

/-- The order of the documents after an operation on a linter, by their order before. -/
def arrange (l : Linter) (documents : List String) : Operation → List String
  | .update document text version language =>
    if (l.update document text version language).result.isSome then place document documents
    else documents
  | .close document => documents.filter (· != document)
  | .set document _ => place document documents
  | .delete document => documents.filter (· != document)
  | .clear => []

theorem documents_apply (op : Operation) (l : Linter) :
    (op.apply l).1.collection.documents = op.arrange l l.collection.documents := by
  cases op with
  | update document text version language =>
    rcases l.update_cases document text version language with dropped | accepted
    · rw [apply, arrange, dropped]
      rfl
    · rw [apply, arrange, accepted]
      exact l.collection.documents_set document _
  | close document => exact l.collection.documents_delete document
  | set document findings => exact l.collection.documents_set document findings
  | delete document => exact l.collection.documents_delete document
  | clear => rfl

theorem nodup_arrange {documents : List String} (h : documents.Nodup) (op : Operation)
    (l : Linter) : (op.arrange l documents).Nodup := by
  cases op with
  | update document text version language =>
    rw [arrange]
    split
    · exact nodup_place h document
    · exact h
  | close document => exact h.filter _
  | set document findings => exact nodup_place h document
  | delete document => exact h.filter _
  | clear => exact List.nodup_nil

end Operation

/-- A linter, and what a listener has been told so far. -/
structure Watched where
  linter : Linter
  heard : List Publication := []

namespace Watched

def perform (s : Watched) (op : Operation) : Watched :=
  ⟨(op.apply s.linter).1, s.heard ++ (op.apply s.linter).2⟩

/-- A linter that has published nothing. -/
def start (runner : Runner) (name : String) : Watched :=
  { linter := { runner := runner, collection := { name := name } } }

/-- Operations in turn, from the start. -/
def after (runner : Runner) (name : String) (operations : List Operation) : Watched :=
  operations.foldl perform (start runner name)

/-- The listener mirrors the collection, in which no document comes twice. -/
structure Valid (s : Watched) : Prop where
  mirrors : Mirrors s.heard s.linter.collection
  distinct : s.linter.collection.documents.Nodup

theorem Valid.perform {s : Watched} (h : s.Valid) (op : Operation) : (s.perform op).Valid := by
  constructor
  · exact h.mirrors.append (op.tells_apply s.linter)
  · have documents := op.documents_apply s.linter
    exact documents ▸ op.nodup_arrange h.distinct s.linter

theorem valid_start (runner : Runner) (name : String) : (start runner name).Valid :=
  ⟨fun _ => .inr ⟨rfl, rfl⟩, List.nodup_nil⟩

theorem valid_after (runner : Runner) (name : String) (operations : List Operation) :
    (after runner name operations).Valid := by
  have run (s : Watched) (h : s.Valid) : (operations.foldl Watched.perform s).Valid := by
    induction operations generalizing s with
    | nil => exact h
    | cons op rest ih => exact ih (s.perform op) (h.perform op)
  exact run _ (valid_start runner name)

/-- A dropped update leaves the linter as it was and tells the listener nothing. -/
theorem perform_update_of_dropped {s : Watched} {document text : String} {version : Option Int}
    {language : Option String}
    (h : (s.linter.update document text version language).result = none) :
    s.perform (.update document text version language) = s := by
  rcases s.linter.update_cases document text version language with dropped | accepted
  · rw [perform, Operation.apply, dropped]
    simp [traces]
  · rw [accepted] at h
    cases h

end Watched

/-- **A listener can mirror the collection, and documents stay apart.** After any operations: what
the listener was last told of a document is what the collection holds for it, and a document of
which it was told nothing is not there; no document comes twice, and each operation arranges the
documents as it should; an operation on one document leaves the entry, the version and the
generation of every other; and an update that is dropped tells the listener nothing and changes
nothing. -/
theorem listener_mirrors_collection (runner : Runner) (name : String)
    (operations : List Operation) :
    let s := Watched.after runner name operations
    let collection := s.linter.collection
    (∀ document,
      (∀ findings, lastTold document s.heard = some findings →
        collection.get document = findings) ∧
      ((∀ p ∈ s.heard, p.document ≠ document) →
        collection.get document = [] ∧ collection.contains document = false)) ∧
    collection.documents.Nodup ∧
    (∀ op : Operation,
      (s.perform op).linter.collection.documents = op.arrange s.linter collection.documents ∧
      ∀ document other, op.document? = some document → document ≠ other →
        (s.perform op).linter.published? other = s.linter.published? other ∧
        (s.perform op).linter.version? other = s.linter.version? other ∧
        (s.perform op).linter.generation other = s.linter.generation other) ∧
    ∀ document text version language,
      (s.linter.update document text version language).result = none →
        s.perform (.update document text version language) = s := by
  intro s collection
  have valid : s.Valid := Watched.valid_after runner name operations
  refine ⟨fun document => ⟨?_, ?_⟩, valid.distinct, fun op => ⟨?_, ?_⟩, ?_⟩
  · intro findings told
    rcases valid.mirrors document with same | ⟨silent, -⟩
    · exact Option.some.inj (same.symm.trans told)
    · rw [silent] at told
      cases told
  · intro never
    have silent := lastTold_eq_none_iff.mpr never
    rcases valid.mirrors document with told | ⟨-, absent⟩
    · rw [silent] at told
      cases told
    · rw [Collection.get_eq_lookup, Collection.contains_eq_lookup, absent]
      exact ⟨rfl, rfl⟩
  · exact op.documents_apply s.linter
  · intro document other about apart
    exact Operation.apply_other about apart s.linter
  · intro document text version language dropped
    exact Watched.perform_update_of_dropped dropped

end Listening

end LexLint
