import LexLint.CommandLine.Session
import LexLint.Proofs.Json.RoundTrip
import LexLint.Proofs.Text.Split

/-!
# Findings as JSON lines

A text of JSON lines holds one record a finding, in order, and each record reads back as the object
it was made of (`jsonLines_frame_findings`): no message, name or code can break a line, since every
record is printable ASCII.
-/

namespace LexLint

/-- The records of a text: its lines, of which the empty text has none. -/
def recordsOf (text : String) : List (List Char) :=
  if text.isEmpty then [] else splitAtChar '\n' text.toList

/-- A text holds one record for each of the values, in their order. -/
structure FramesValues (text : String) (values : List Json) : Prop where
  decoded : (recordsOf text).map (fun record => Json.parse? (String.ofList record)) =
    values.map some
  ascii : ∀ record ∈ recordsOf text, ∀ c ∈ record, 0x20 ≤ c.toNat ∧ c.toNat ≤ 0x7F

theorem newline_notMem_compact {v : Json} (plain : v.Plain) : '\n' ∉ v.compact := by
  intro newline
  exact absurd (Json.isPrintable_compact v plain '\n' newline) (by decide)

/-- The lines of values are the records of the text that they make. -/
theorem recordsOf_joinStrings_line {values : List Json} (plain : ∀ v ∈ values, v.Plain) :
    recordsOf (joinStrings "\n" (values.map Json.line)) = values.map Json.compact := by
  have chars : (joinStrings "\n" (values.map Json.line)).toList =
      joinWithChar '\n' (values.map Json.compact) := by
    rw [toList_joinStrings_newline, List.map_map]
    congr 2
    funext v
    exact String.toList_ofList
  by_cases none : values = []
  · rw [none]
    rfl
  · have pieces : splitAtChar '\n' (joinWithChar '\n' (values.map Json.compact)) =
        values.map Json.compact := by
      apply splitAtChar_joinWithChar
      · rwa [ne_eq, List.map_eq_nil_iff]
      · intro piece hp
        obtain ⟨v, hv, rfl⟩ := List.mem_map.1 hp
        exact newline_notMem_compact (plain v hv)
    have nonempty : ¬ (joinStrings "\n" (values.map Json.line)).isEmpty := by
      rw [String.isEmpty_iff, ← String.toList_inj, chars]
      intro empty
      rw [empty] at pieces
      obtain ⟨v, hv⟩ := List.exists_mem_of_ne_nil values none
      have record : v.compact ∈ splitAtChar '\n' [] := pieces ▸ List.mem_map_of_mem hv
      have written := Json.length_compact_pos (plain v hv)
      rw [List.mem_singleton.1 record] at written
      exact absurd written (by decide)
    rw [recordsOf, if_neg nonempty, chars, pieces]

theorem framesValues_joinStrings_line {values : List Json} (plain : ∀ v ∈ values, v.Plain) :
    FramesValues (joinStrings "\n" (values.map Json.line)) values := by
  constructor
  · rw [recordsOf_joinStrings_line plain, List.map_map]
    exact List.map_congr_left fun v hv => Json.parse?_line (plain v hv)
  · rw [recordsOf_joinStrings_line plain]
    intro record hr c hc
    obtain ⟨v, hv, rfl⟩ := List.mem_map.1 hr
    have printable := Json.isPrintable_compact v (plain v hv) c hc
    exact ⟨printable.1, Nat.le_of_lt printable.2⟩

/-- No finding has a key twice, also under its document's name. -/
theorem Finding.nodup_keys (f : Finding) (index : LineIndex) :
    ("file" :: (f.fields ++ f.positionFields index).map (·.1)).Nodup := by
  show List.Nodup ["file", "startOffset", "endOffset", "message", "severity", "code", "checker",
    "line", "column", "endLine", "endColumn"]
  decide

theorem Finding.plainFields (f : Finding) (index : LineIndex) :
    Json.PlainFields (f.fields ++ f.positionFields index) := by
  simp [fields, positionFields, Json.PlainFields, Json.Plain, Json.nat]

/-- Every text of JSON lines frames its findings: those of a run, in the order of the turns, and
those of several runs under their documents' names, in the order of the documents. -/
theorem jsonLines_frame_findings :
    (∀ result : RunResult,
      FramesValues result.jsonLines
        (result.findings.map fun f => f.toJson (some result.source.index))) ∧
    (∀ results : List RunResult,
      FramesValues (CommandLine.jsonRecords results)
        (results.flatMap fun r => r.findings.map fun f =>
          .obj (("file", .str r.source.name) :: f.fields ++ f.positionFields r.source.index))) := by
  constructor
  · intro result
    have plain : ∀ v ∈ result.findings.map (·.toJson (some result.source.index)), v.Plain := by
      intro v hv
      obtain ⟨f, -, rfl⟩ := List.mem_map.1 hv
      exact ⟨(f.nodup_keys _).of_cons, f.plainFields _⟩
    have frames := framesValues_joinStrings_line plain
    rw [List.map_map] at frames
    exact frames
  · intro results
    have plain : ∀ v ∈ results.flatMap fun r => r.findings.map fun f =>
        Json.obj (("file", .str r.source.name) :: f.fields ++ f.positionFields r.source.index),
        v.Plain := by
      intro v hv
      obtain ⟨r, -, hr⟩ := List.mem_flatMap.1 hv
      obtain ⟨f, -, rfl⟩ := List.mem_map.1 hr
      exact ⟨f.nodup_keys _, trivial, f.plainFields _⟩
    have frames := framesValues_joinStrings_line plain
    rw [List.map_flatMap] at frames
    simp only [List.map_map] at frames
    exact frames

end LexLint
