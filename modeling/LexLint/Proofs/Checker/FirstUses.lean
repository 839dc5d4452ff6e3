import LexLint.Proofs.Checker.Declared
import LexLint.Proofs.Checker.Ranges
import LexLint.Proofs.Scan.WordRuns
import LexLint.Proofs.View.Returns

/-!
# Which names are reported as undeclared

A name is reported if it has a use and nothing declares it, and it is reported where it is used
first (`reports_first_uses`). While the lines are read, names are declared on the way, but none of
that matters: what a line declares was declared by the whole text before (`letNames_subset`), and a
reported name only silences its later uses.
-/

namespace LexLint

theorem spansFrom_separated (start : Nat) (pieces : List (List Char)) :
    (spansFrom start pieces).Pairwise fun a b => a.stop < b.start := by
  induction pieces generalizing start with
  | nil => exact List.Pairwise.nil
  | cons piece rest ih =>
    refine List.pairwise_cons.mpr ⟨fun span later => ?_, ih _⟩
    have follows := le_start_of_mem_spansFrom later
    have size := length_cutReturn_le piece
    change start + (cutReturn piece).length < span.start
    omega

/-- Lines come in text order, with something between each two. -/
theorem Source.lines_separated (source : Source) :
    source.lines.Pairwise fun a b => a.span.stop < b.span.start := by
  have spans := spansFrom_separated 0 (splitAtChar '\n' source.text)
  change source.index.spans.Pairwise _ at spans
  rwa [← source.map_span_lines, List.pairwise_map] at spans

namespace Undeclared

/-- A word of a line that is no comment, which is not reserved and which the line does not declare,
and which is no member, no built-in, no type and no key. -/
def IsUse (source : Source) (w : Word) : Prop :=
  ∃ line ∈ source.lines, line.isComment = false ∧ ∃ s ∈ scanSites line.code,
    w = shift line.span.start s.word ∧ s.word.text ∉ Vocabulary.reservedWords ∧
      (∀ m ∈ findAll true declarationSite line.code, m.value ≠ s.word.text) ∧
      isNoUse s.before s.after = false

/-- No use of the same name stands before. -/
def IsFirstUse (source : Source) (w : Word) : Prop :=
  IsUse source w ∧ ∀ v, IsUse source v → v.text = w.text → w.start ≤ v.start

/-- The names that count as declared when the lines are read: those that were declared before, the
variables, functions, parameters and classes that the text declares anywhere, and the implicit
names. -/
def InScope (context : Context) (declared : List String) (name : String) : Prop :=
  name ∈ declared ∨
  (∃ m ∈ findAll false letHeader context.source.text, m.value = name) ∨
  (∃ m ∈ findAll true funcHeader context.source.text, m.value.name = name ∨
    ∃ param ∈ splitAtChar ',' m.value.params, firstIdentifier? param = some name) ∨
  (∃ m ∈ findAll true classHeader context.source.text, m.value = name) ∨
  name ∈ context.options.implicitNames

theorem mem_declaredIn {text : List Char} {name : String} :
    name ∈ declaredIn text ↔
      (∃ m ∈ findAll false letHeader text, m.value = name) ∨
      (∃ m ∈ findAll true funcHeader text, m.value.name = name ∨
        ∃ param ∈ splitAtChar ',' m.value.params, firstIdentifier? param = some name) ∨
      ∃ m ∈ findAll true classHeader text, m.value = name := by
  simp only [declaredIn, letNames, funcNames, List.mem_append, List.mem_map, List.mem_flatMap,
    List.mem_cons, List.mem_filterMap, or_assoc, eq_comm (a := name)]

/-- The names in scope are those that the checker declares first. -/
theorem mem_seed_iff {context : Context} {declared : List String} {name : String} :
    name ∈ (seed context).foldl (fun ns n => insertNew n ns) declared ↔
      InScope context declared name := by
  rw [mem_foldl_insertNew, seed, List.mem_append, mem_declaredIn, InScope]
  grind

theorem mem_uses {code : List Char} {w : Word} :
    w ∈ uses code ↔ ∃ s ∈ scanSites code, w = s.word ∧
      s.word.text ∉ Vocabulary.reservedWords ∧
      (∀ m ∈ findAll true declarationSite code, m.value ≠ s.word.text) ∧
      isNoUse s.before s.after = false := by
  simp only [uses, List.mem_map, List.mem_filter, Bool.not_eq_true', Bool.or_eq_false_iff,
    List.contains_eq_mem, decide_eq_false_iff_not]
  grind

theorem mem_codeUses {source : Source} {w : Word} :
    w ∈ codeUses source.code ↔ IsUse source w := by
  rw [codeUses_eq, List.mem_flatMap, IsUse]
  refine exists_congr fun line => and_congr_right fun member => ?_
  by_cases comment : line.isComment = true
  · simp [rowUses_of_isComment member comment, comment]
  · rw [← map_shift_uses, List.mem_map]
    simp only [mem_uses, comment]
    grind

theorem start_of_mem_rowUses {source : Source} {line : Line} (member : line ∈ source.lines)
    {w : Word} (used : w ∈ rowUses line.row) :
    line.span.start ≤ w.start ∧ w.start < line.span.stop := by
  rw [← map_shift_uses] at used
  obtain ⟨u, found, rfl⟩ := List.mem_map.mp used
  obtain ⟨s, scanned, rfl, -⟩ := mem_uses.mp found
  have word := (fits_of_mem_scanSites scanned).wordAt
  have start := word.start_lt
  have stop := word.stop_le
  rw [(Source.stands_of_mem_lines member).length_code] at stop
  simp only [shift]
  omega

theorem rowUses_ordered (line : Line) :
    (rowUses line.row).Pairwise fun v w => v.start < w.start := by
  have words : (uses line.code).Pairwise fun v w => v.start < w.start := by
    refine List.pairwise_map.mpr (((scanSites_separated line.code).filter _).imp_of_mem ?_)
    intro s t hs _ separated
    have word := (fits_of_mem_scanSites (List.mem_of_mem_filter hs)).wordAt
    exact Nat.lt_trans word.start_lt separated
  rw [← map_shift_uses, List.pairwise_map]
  exact words.imp fun before => Nat.add_lt_add_left before _

theorem codeUses_ordered (source : Source) :
    (codeUses source.code).Pairwise fun v w => v.start < w.start := by
  rw [codeUses_eq]
  refine List.pairwise_flatMap.mpr ⟨fun line _ => rowUses_ordered line, ?_⟩
  refine source.lines_separated.imp_of_mem fun first second before v hv w hw => ?_
  have here := (start_of_mem_rowUses first hv).2
  have there := (start_of_mem_rowUses second hw).1
  omega

/-- What is reported of uses in text order: those whose names are not known, where no earlier use
has the name. -/
theorem mem_firstUses_iff {known : List String} {words : List Word}
    (ordered : words.Pairwise fun v w => v.start < w.start) {w : Word} :
    w ∈ (firstUses known words).1 ↔
      (w ∈ words ∧ ∀ v ∈ words, v.text = w.text → w.start ≤ v.start) ∧ w.text ∉ known := by
  induction words generalizing known with
  | nil => simp [firstUses]
  | cons u rest ih =>
    obtain ⟨before, ordered⟩ := List.pairwise_cons.mp ordered
    simp only [firstUses, List.contains_iff_mem, List.mem_cons, forall_eq_or_imp]
    by_cases declared : u.text ∈ known
    · rw [if_pos declared, ih ordered]
      constructor
      · rintro ⟨⟨member, first⟩, unknown⟩
        exact ⟨⟨.inr member, fun same => absurd (same ▸ declared) unknown, first⟩, unknown⟩
      · rintro ⟨⟨rfl | member, -, first⟩, unknown⟩
        · exact absurd declared unknown
        · exact ⟨⟨member, first⟩, unknown⟩
    · rw [if_neg declared, List.mem_cons, ih ordered, List.mem_append, List.mem_singleton]
      constructor
      · rintro (rfl | ⟨⟨member, first⟩, unknown⟩)
        · exact ⟨⟨.inl rfl, fun _ => Nat.le_refl _, fun v hv _ => Nat.le_of_lt (before v hv)⟩,
            declared⟩
        · rw [not_or] at unknown
          exact ⟨⟨.inr member, fun same => absurd same.symm unknown.2, first⟩, unknown.1⟩
      · rintro ⟨⟨rfl | member, here, first⟩, unknown⟩
        · exact .inl rfl
        · refine .inr ⟨⟨member, first⟩, ?_⟩
          rintro (old | same)
          · exact unknown old
          · exact absurd (here same.symm) (Nat.not_le_of_lt (before w member))

/-- What is declared afterwards: the names known before, and those reported. -/
theorem firstUses_snd (known : List String) (words : List Word) :
    (firstUses known words).2 = known ++ (firstUses known words).1.map (·.text) := by
  induction words generalizing known with
  | nil => simp [firstUses]
  | cons w rest ih =>
    unfold firstUses
    split
    · exact ih known
    · simp only [ih, List.map_cons, List.append_assoc, List.singleton_append]

/-- A name that is not known is found at one of its uses. -/
theorem exists_mem_firstUses {known : List String} {words : List Word} {w : Word}
    (member : w ∈ words) (unknown : w.text ∉ known) :
    ∃ v ∈ (firstUses known words).1, v.text = w.text := by
  induction words generalizing known with
  | nil => cases member
  | cons u rest ih =>
    simp only [firstUses, List.contains_iff_mem]
    by_cases declared : u.text ∈ known
    · rw [if_pos declared]
      rcases List.mem_cons.mp member with rfl | later
      · exact absurd declared unknown
      · exact ih later unknown
    · rw [if_neg declared]
      by_cases same : u.text = w.text
      · exact ⟨u, List.mem_cons_self, same⟩
      · rcases List.mem_cons.mp member with rfl | later
        · exact absurd rfl same
        · have fresh : w.text ∉ known ++ [u.text] := by grind
          obtain ⟨v, found, text⟩ := ih later fresh
          exact ⟨v, List.mem_cons_of_mem u found, text⟩

/-- The finding for the first use of an undeclared name. -/
def undefinedVariable (w : Word) : Finding :=
  { start := w.start
    stop := w.stop
    message := s!"Variable '{w.text}' is used but not defined"
    severity := .warning
    code := "undefinedVariable"
    checker := "undeclared" }

/-- What the checker finds and declares, by the uses in the code view. -/
theorem outcome_emit_firstUses (context : Context) (declared : List String) :
    let known := (seed context).foldl (fun ns n => insertNew n ns) declared
    let found := firstUses known (codeUses context.source.code)
    (checker.emit context).outcome declared = (.ok (found.1.map undefinedVariable), found.2) := by
  intro known found
  have surveyed : survey known context.source.lines = found := survey_seed context declared
  have apt := apt_sites context.source known
  rw [surveyed] at apt
  rw [Checker.outcome_emit, outcome_diagnosis]
  simp only [known] at surveyed
  simp only [surveyed, List.map_map]
  congr 2
  refine List.map_congr_left fun w hw => ?_
  exact (apt (site w) (List.mem_map_of_mem hw)).finding_eq_placed checker

/-- **Exactly the first uses of undeclared names are reported.** One finding stands for each name
that is used and not in scope, at its first use, and there is no other; the findings are in text
order and their names differ. Afterwards the names in scope and the reported ones count as
declared. No line declares a variable that was not in scope before. -/
theorem reports_first_uses (context : Context) (declared : List String) :
    ∃ (words : List Word) (after : List String),
      (checker.emit context).outcome declared = (.ok (words.map undefinedVariable), after) ∧
      (∀ w, w ∈ words ↔ IsFirstUse context.source w ∧ ¬ InScope context declared w.text) ∧
      (∀ w, IsUse context.source w → ¬ InScope context declared w.text →
        ∃ v ∈ words, v.text = w.text) ∧
      words.Pairwise (fun v w => v.start < w.start) ∧ (words.map (·.text)).Nodup ∧
      (∀ name, name ∈ after ↔ InScope context declared name ∨ ∃ w ∈ words, w.text = name) ∧
      ∀ line ∈ context.source.lines, ∀ m ∈ findAll false letHeader line.raw,
        InScope context declared m.value := by
  have ordered := codeUses_ordered context.source
  refine ⟨_, _, outcome_emit_firstUses context declared, fun w => ?_, ?_, ?_, ?_, ?_, ?_⟩
  · rw [mem_firstUses_iff ordered, mem_seed_iff, IsFirstUse, mem_codeUses]
    simp only [mem_codeUses]
  · intro w used unknown
    exact exists_mem_firstUses (mem_codeUses.mpr used) (mem_seed_iff.not.mpr unknown)
  · exact ordered.sublist (firstUses_sublist _ _)
  · refine List.pairwise_map.mpr ((ordered.sublist (firstUses_sublist _ _)).imp_of_mem ?_)
    intro v w hv hw before same
    have first := ((mem_firstUses_iff ordered).mp hw).1.2
    have used := ((mem_firstUses_iff ordered).mp hv).1.1
    exact absurd (first v used same) (Nat.not_le_of_lt before)
  · intro name
    rw [firstUses_snd, List.mem_append, mem_seed_iff, List.mem_map]
  · intro line member m found
    have declares := letNames_subset member (List.mem_map_of_mem found)
    exact mem_seed_iff.mp (mem_foldl_insertNew.mpr (.inl (List.mem_append_left _ declares)))

end Undeclared

end LexLint
