import LexLint.Proofs.Json.RoundTrip
import LexLint.Proofs.Report.Findings
import LexLint.Proofs.View.Column

/-!
# Sound documents of the interchange format

What is written can be read again by the names of its fields (`readSarif?_text`). Whatever is
added, the results and the rules of a log refer to each other (`SarifLog.Sound.add`), and the
region of a finding that lies in its text tells the same place twice, by offsets and by lines and
columns (`SarifRegion.ofFinding_locates`).
-/

namespace LexLint

/-! ### Reading a document by its fields -/

namespace Json

/-- The value at the end of a path of keys. -/
def at? (path : List String) (v : Json) : Option Json := path.foldlM (fun v key => v.field? key) v

def asText? : Json → Option String
  | .str s => some s
  | _ => none

def asInt? : Json → Option Int
  | .int n => some n
  | _ => none

def asNat? (v : Json) : Option Nat := v.asInt?.bind Int.toNat?

def asItems? : Json → Option (List Json)
  | .arr items => some items
  | _ => none

def textAt? (path : List String) (v : Json) : Option String := (v.at? path).bind asText?

def intAt? (path : List String) (v : Json) : Option Int := (v.at? path).bind asInt?

def natAt? (path : List String) (v : Json) : Option Nat := (v.at? path).bind asNat?

def itemsAt? (path : List String) (v : Json) : Option (List Json) := (v.at? path).bind asItems?

/-- The only item of an array. -/
def onlyAt? (path : List String) (v : Json) : Option Json :=
  match v.itemsAt? path with
  | some [item] => some item
  | _ => none

end Json

def SarifRule.ofJson? (v : Json) : Option SarifRule := do
  let id ← v.textAt? ["id"]
  let description ← v.textAt? ["shortDescription", "text"]
  let checker ← v.textAt? ["properties", "checker"]
  return ⟨id, description, checker⟩

def SarifRegion.ofJson? (v : Json) : Option SarifRegion := do
  let startLine ← v.natAt? ["startLine"]
  let startColumn ← v.natAt? ["startColumn"]
  let endLine ← v.natAt? ["endLine"]
  let endColumn ← v.natAt? ["endColumn"]
  let charOffset ← v.intAt? ["charOffset"]
  let charLength ← v.intAt? ["charLength"]
  return ⟨startLine, startColumn, endLine, endColumn, charOffset, charLength⟩

def SarifResult.ofJson? (v : Json) : Option SarifResult := do
  let ruleId ← v.textAt? ["ruleId"]
  let level ← v.textAt? ["level"]
  let message ← v.textAt? ["message", "text"]
  let location ← v.onlyAt? ["locations"]
  let uri ← location.textAt? ["physicalLocation", "artifactLocation", "uri"]
  let region ← location.at? ["physicalLocation", "region"]
  return ⟨ruleId, level, message, uri, ← SarifRegion.ofJson? region⟩

def SarifLog.ofJson? (v : Json) : Option SarifLog := do
  let run ← v.onlyAt? ["runs"]
  let rules ← run.itemsAt? ["tool", "driver", "rules"]
  let results ← run.itemsAt? ["results"]
  return ⟨← rules.mapM SarifRule.ofJson?, ← results.mapM SarifResult.ofJson?⟩

/-- The rules and results of a document. -/
def readSarif? (text : String) : Option SarifLog := (Json.parse? text).bind SarifLog.ofJson?

theorem SarifRule.ofJson?_toJson (r : SarifRule) : ofJson? r.toJson = some r := rfl

theorem SarifResult.ofJson?_toJson (r : SarifResult) : ofJson? r.toJson = some r := rfl

theorem mapM_map_of_read {α : Type} {write : α → Json} {read : Json → Option α}
    (h : ∀ a, read (write a) = some a) (items : List α) :
    (items.map write).mapM read = some items := by
  induction items with
  | nil => rfl
  | cons item items ih =>
    rw [List.map_cons, List.mapM_cons, h, ih]
    rfl

theorem SarifLog.ofJson?_toJson (log : SarifLog) (toolName toolVersion : String) :
    ofJson? (log.toJson toolName toolVersion) = some log := by
  have rules := mapM_map_of_read SarifRule.ofJson?_toJson log.rules
  have results := mapM_map_of_read SarifResult.ofJson?_toJson log.results
  show (do
    let rules ← (log.rules.map SarifRule.toJson).mapM SarifRule.ofJson?
    let results ← (log.results.map SarifResult.toJson).mapM SarifResult.ofJson?
    return SarifLog.mk rules results) = some log
  rw [rules, results]
  rfl

theorem Json.plainItems_map {α : Type} {write : α → Json} (plain : ∀ a, (write a).Plain)
    (items : List α) : PlainItems (items.map write) := by
  induction items with
  | nil => trivial
  | cons item items ih => exact ⟨plain item, ih⟩

theorem SarifRule.plain_toJson (r : SarifRule) : r.toJson.Plain := by
  simp [toJson, Json.Plain, Json.PlainFields]

theorem SarifResult.plain_toJson (r : SarifResult) : r.toJson.Plain := by
  simp [toJson, SarifRegion.toJson, Json.nat, Json.Plain, Json.PlainFields, Json.PlainItems]

theorem SarifLog.plain_toJson (log : SarifLog) (toolName toolVersion : String) :
    (log.toJson toolName toolVersion).Plain := by
  have rules := Json.plainItems_map SarifRule.plain_toJson log.rules
  have results := Json.plainItems_map SarifResult.plain_toJson log.results
  simp [toJson, Json.Plain, Json.PlainFields, Json.PlainItems, rules, results]

/-- The text of a log says all of its rules and results. -/
theorem readSarif?_text (log : SarifLog) (toolName toolVersion : String) :
    readSarif? (log.text toolName toolVersion) = some log := by
  rw [readSarif?, SarifLog.text, Json.parse?_document (log.plain_toJson _ _)]
  exact log.ofJson?_toJson _ _

/-! ### Rules and results -/

namespace SarifLog

/-- The ids by which the results refer to rules. -/
def references (log : SarifLog) : List String := log.results.map (·.ruleId)

/-- A log has the results of findings, and rules for just what its results refer to. -/
structure Sound (log : SarifLog) (findings : List (Source × Finding)) : Prop where
  results : log.results = findings.map fun p => .ofFinding p.1 p.1.index p.2
  distinct : (log.rules.map (·.id)).Nodup
  closed : ∀ id, id ∈ log.rules.map (·.id) ↔ id ∈ log.references
  /-- Rules stand in the order in which they are first referred to. -/
  ordered : log.rules.Pairwise fun a b => log.references.idxOf a.id < log.references.idxOf b.id
  /-- A rule is described by the first finding with its code. -/
  described : ∀ rule ∈ log.rules, ∃ p, findings.find? (·.2.code == rule.id) = some p ∧
    rule.description = p.2.message ∧ rule.checker = p.2.checker

variable {log : SarifLog} {findings : List (Source × Finding)}

theorem references_add (log : SarifLog) (source : Source) (index : LineIndex) (f : Finding) :
    (log.add source index f).references = log.references ++ [f.code] := by
  simp [references, add, SarifResult.ofFinding]

theorem addRule_of_mem {rules : List SarifRule} {f : Finding}
    (known : f.code ∈ rules.map (·.id)) : addRule rules f = rules := by
  obtain ⟨rule, member, same⟩ := List.mem_map.mp known
  apply if_pos
  rw [List.any_eq_true]
  exact ⟨rule, member, beq_iff_eq.mpr same⟩

theorem addRule_of_notMem {rules : List SarifRule} {f : Finding}
    (new : f.code ∉ rules.map (·.id)) :
    addRule rules f = rules ++ [⟨f.code, f.message, f.checker⟩] := by
  apply if_neg
  intro known
  obtain ⟨rule, member, same⟩ := List.any_eq_true.mp known
  exact new (List.mem_map.mpr ⟨rule, member, beq_iff_eq.mp same⟩)

theorem Sound.references_eq (h : log.Sound findings) :
    log.references = findings.map (·.2.code) := by
  rw [references, h.results, List.map_map]
  rfl

/-- A rule was first referred to before whatever is added. -/
theorem Sound.idxOf_append (h : log.Sound findings) {rule : SarifRule} (member : rule ∈ log.rules)
    (code : String) :
    (log.references ++ [code]).idxOf rule.id = log.references.idxOf rule.id :=
  List.idxOf_append_of_mem ((h.closed rule.id).mp (List.mem_map_of_mem member))

theorem Sound.ordered_append (h : log.Sound findings) (code : String) :
    log.rules.Pairwise fun a b =>
      (log.references ++ [code]).idxOf a.id < (log.references ++ [code]).idxOf b.id := by
  apply h.ordered.imp_of_mem
  intro a b first second before
  rwa [h.idxOf_append first, h.idxOf_append second]

/-- What is added does not change which finding is the first with a rule's code. -/
theorem Sound.described_append (h : log.Sound findings) (added : Source × Finding)
    {rule : SarifRule} (member : rule ∈ log.rules) :
    ∃ p, (findings ++ [added]).find? (·.2.code == rule.id) = some p ∧
      rule.description = p.2.message ∧ rule.checker = p.2.checker := by
  obtain ⟨p, found, fields⟩ := h.described rule member
  refine ⟨p, ?_, fields⟩
  rw [List.find?_append, found, Option.some_or]

theorem Sound.results_add (h : log.Sound findings) (source : Source) (f : Finding) :
    (log.add source source.index f).results =
      (findings ++ [(source, f)]).map fun p => .ofFinding p.1 p.1.index p.2 := by
  rw [List.map_append, ← h.results]
  rfl

theorem Sound.add_of_mem (h : log.Sound findings) (source : Source) {f : Finding}
    (known : f.code ∈ log.rules.map (·.id)) :
    (log.add source source.index f).Sound (findings ++ [(source, f)]) := by
  have rules : (log.add source source.index f).rules = log.rules := addRule_of_mem known
  have referred := (h.closed f.code).mp known
  constructor
  case results => exact h.results_add source f
  case distinct =>
    rw [rules]
    exact h.distinct
  case closed =>
    intro id
    rw [rules, references_add, h.closed, List.mem_append, List.mem_singleton]
    constructor
    · exact .inl
    · rintro (old | rfl)
      · exact old
      · exact referred
  case ordered =>
    rw [rules, references_add]
    exact h.ordered_append f.code
  case described =>
    intro rule member
    rw [rules] at member
    exact h.described_append (source, f) member

theorem Sound.add_of_notMem (h : log.Sound findings) (source : Source) {f : Finding}
    (new : f.code ∉ log.rules.map (·.id)) :
    (log.add source source.index f).Sound (findings ++ [(source, f)]) := by
  have rules : (log.add source source.index f).rules =
      log.rules ++ [⟨f.code, f.message, f.checker⟩] := addRule_of_notMem new
  have unreferred : f.code ∉ log.references := fun old => new ((h.closed f.code).mpr old)
  constructor
  case results => exact h.results_add source f
  case distinct =>
    rw [rules, List.map_append]
    exact h.distinct.append (List.nodup_singleton _) (List.disjoint_singleton.mpr new)
  case closed =>
    intro id
    rw [rules, references_add, List.map_append, List.mem_append, List.mem_append, h.closed]
    rfl
  case ordered =>
    rw [rules, references_add, List.pairwise_append]
    refine ⟨h.ordered_append f.code, List.pairwise_singleton _ _, ?_⟩
    intro a old b last
    obtain rfl := List.mem_singleton.mp last
    rw [h.idxOf_append old, List.idxOf_append_of_notMem unreferred]
    have before := List.idxOf_lt_length_iff.mpr ((h.closed a.id).mp (List.mem_map_of_mem old))
    omega
  case described =>
    intro rule member
    rw [rules, List.mem_append] at member
    rcases member with old | last
    · exact h.described_append (source, f) old
    · obtain rfl := List.mem_singleton.mp last
      have unseen : findings.find? (·.2.code == f.code) = none := by
        rw [List.find?_eq_none]
        intro p seen same
        apply unreferred
        rw [h.references_eq]
        exact List.mem_map.mpr ⟨p, seen, beq_iff_eq.mp same⟩
      refine ⟨(source, f), ?_, rfl, rfl⟩
      rw [List.find?_append, unseen, Option.none_or]
      exact List.find?_cons_of_pos (beq_self_eq_true f.code)

/-- Soundness is kept by every finding that is added. -/
theorem Sound.add (h : log.Sound findings) (source : Source) (f : Finding) :
    (log.add source source.index f).Sound (findings ++ [(source, f)]) := by
  by_cases known : f.code ∈ log.rules.map (·.id)
  · exact h.add_of_mem source known
  · exact h.add_of_notMem source known

theorem Sound.foldl_add (h : log.Sound findings) (added : List (Source × Finding)) :
    (added.foldl (fun log p => log.add p.1 p.1.index p.2) log).Sound (findings ++ added) := by
  induction added generalizing log findings with
  | nil => rwa [List.append_nil]
  | cons p added ih =>
    rw [List.append_cons]
    exact ih (h.add p.1 p.2)

theorem sound_empty : ({} : SarifLog).Sound [] := by
  constructor
  case results => rfl
  case distinct => exact List.nodup_nil
  case closed => exact fun id => Iff.rfl
  case ordered => exact List.Pairwise.nil
  case described => exact fun rule none => absurd none List.not_mem_nil

end SarifLog

/-! ### Regions -/

/-- The position in lines and columns that are counted from one. -/
def Position.fromOne (p : Position) : Position := ⟨p.line + 1, p.column + 1⟩

theorem Position.NotAfter.fromOne {p q : Position} (h : p.NotAfter q) :
    p.fromOne.NotAfter q.fromOne := by
  simp only [NotAfter, Position.fromOne] at h ⊢
  omega

namespace SarifRegion

def first (region : SarifRegion) : Position := ⟨region.startLine, region.startColumn⟩

def last (region : SarifRegion) : Position := ⟨region.endLine, region.endColumn⟩

def stop (region : SarifRegion) : Int := region.charOffset + region.charLength

/-- A region is a range of a text, and its lines and columns are those of its two ends. -/
structure Locates (region : SarifRegion) (text : List Char) : Prop where
  nonneg : 0 ≤ region.charOffset
  ordered : region.charOffset ≤ region.stop
  inside : region.stop ≤ text.length
  first_eq : region.first = (Position.at text region.charOffset.toNat).fromOne
  last_eq : region.last = (Position.at text region.stop.toNat).fromOne
  notAfter : region.first.NotAfter region.last

/-- The region of a finding that lies in the text is where the finding is. -/
theorem ofFinding_locates {source : Source} {f : Finding} (h : f.LiesIn source.text) :
    (ofFinding source.index f).Locates source.text := by
  obtain ⟨start, stop⟩ := f
  obtain ⟨nonneg, ordered, inside⟩ := h
  lift start to Nat using nonneg
  lift stop to Nat using Int.le_trans (Int.natCast_nonneg start) ordered
  have le : start ≤ stop := Int.ofNat_le.mp ordered
  have within : stop ≤ source.length := Int.ofNat_le.mp inside
  generalize made : ofFinding source.index _ = region
  have stop_eq : region.stop = stop := by
    rw [← made]
    show (start : Int) + (stop - start) = stop
    omega
  have first_eq : region.first = (Position.at source.text start).fromOne := by
    rw [← position_eq_at source (Nat.le_trans le within), ← made]
    rfl
  have last_eq : region.last = (Position.at source.text stop).fromOne := by
    rw [← position_eq_at source within, ← made]
    rfl
  have offset : region.charOffset = start := by
    rw [← made]
    rfl
  constructor
  case nonneg => omega
  case ordered => omega
  case inside =>
    rw [stop_eq]
    exact inside
  case first_eq => rw [offset, first_eq, Int.toNat_natCast]
  case last_eq => rw [stop_eq, last_eq, Int.toNat_natCast]
  case notAfter =>
    rw [first_eq, last_eq]
    exact (Position.at_notAfter le within).fromOne

end SarifRegion

/-- All findings in the interchange format make a sound document, whatever they are; and where
they come from runs, their regions lie in the texts that were run on. -/
theorem sarif_documents_are_sound (reports : List Report) (toolName : String) :
    ∃ log : SarifLog, readSarif? (sarifReport reports toolName) = some log ∧
      log.Sound (reportedFindings reports) ∧
      ((∀ report ∈ reports, report.FromRun) →
        List.Forall₂ (fun result p => result.region.Locates p.1.text)
          log.results (reportedFindings reports)) := by
  have sound : (reports.foldl (fun log r => log.addAll r.source r.findings)
      ({} : SarifLog)).Sound (reportedFindings reports) := by
    have added := SarifLog.sound_empty.foldl_add (reportedFindings reports)
    rw [← foldl_reports SarifLog.add {} reports] at added
    exact added
  refine ⟨_, readSarif?_text _ toolName toolVersion, sound, ?_⟩
  intro fromRuns
  rw [sound.results, List.forall₂_map_left_iff, List.forall₂_same]
  intro p member
  obtain ⟨report, inReports, inFindings⟩ := List.mem_flatMap.mp member
  obtain ⟨f, found, rfl⟩ := List.mem_map.mp inFindings
  exact SarifRegion.ofFinding_locates ((fromRuns report inReports).liesIn found)

/-- The findings of a run: a string on the second line is not closed. -/
theorem sarif_documents_are_sound_unclosed_string :
    let source : Source := .ofString "a" "x\n\"z"
    let report : Report := ⟨source, (({} : Runner).runCheckers source [Strings.checker]).findings⟩
    (∀ r ∈ [report], r.FromRun) ∧
      ∃ log, readSarif? (sarifReport [report] "lint") = some log ∧
        log.results.map (·.region) = [⟨2, 1, 2, 3, 2, 2⟩] ∧
        List.Forall₂ (fun result p => result.region.Locates p.1.text) log.results
          (reportedFindings [report]) := by
  intro source report
  have fromRuns : ∀ r ∈ [report], r.FromRun := by
    intro r member
    obtain rfl := List.mem_singleton.mp member
    exact ⟨{}, some ["strings"], _, rfl, List.Subset.refl _⟩
  obtain ⟨log, read, sound, located⟩ := sarif_documents_are_sound [report] "lint"
  refine ⟨fromRuns, log, read, ?_, located fromRuns⟩
  rw [sound.results]
  decide

end LexLint
