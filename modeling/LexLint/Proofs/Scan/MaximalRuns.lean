import LexLint.Proofs.Scan.Alignment
import LexLint.Proofs.View.Returns

/-!
# Words as maximal runs

Where the words of a text stand can be told from single characters (`WordRun`): a word is a run of
word characters that neither neighbour makes longer and that begins with no digit (`wordAt_iff`).
The scan finds all of them and nothing else (`mem_scanWords_iff_wordAt`). It starts afresh behind
each character that belongs to no word (`scanWords_append_cons`), and newlines and returns are such
characters, so that the words of a code view are those of its lines (`Source.flatMap_words_lines`).
A part of a text has the words that it has alone (`scanWordsBetween_eq`).
-/

namespace LexLint

/-- A run of word characters that is as long as it can be and begins with no digit. -/
structure WordRun (text : List Char) (i j : Nat) : Prop where
  lt : i < j
  word : ∀ k, i ≤ k → k < j → text[k]?.any isWordChar = true
  maximal : Isolated text ⟨i, j⟩
  noDigit : text[i]?.any Char.isDigit = false

theorem isWordStart_of_isDigit {c : Char} (h : c.isDigit = true) : isWordStart c = false := by
  apply Bool.eq_false_iff.mpr
  intro start
  change (decide (48 ≤ c.toNat) && decide (c.toNat ≤ 57)) = true at h
  change ((decide (65 ≤ c.toNat ∧ c.toNat ≤ 90) ||
    decide (97 ≤ c.toNat) && decide (c.toNat ≤ 122)) || c == '_') = true at start
  simp only [Bool.or_eq_true, Bool.and_eq_true, decide_eq_true_eq, beq_iff_eq] at h start
  rcases start with (upper | lower) | rfl
  · omega
  · omega
  · revert h
    decide

/-- A word character begins a word unless it is a digit. -/
theorem isWordStart_eq {c : Char} (h : isWordChar c = true) : isWordStart c = !c.isDigit := by
  cases digit : c.isDigit with
  | true => exact isWordStart_of_isDigit digit
  | false =>
    rw [isWordChar, digit, Bool.or_false] at h
    exact h

section
variable {text : List Char} {i j : Nat}

theorem WordRun.stop_le (h : WordRun text i j) : j ≤ text.length := by
  have lt := h.lt
  have last := h.word (j - 1) (by omega) (by omega)
  obtain ⟨c, found, -⟩ := (Option.any_eq_true ..).mp last
  have := (List.getElem?_eq_some_iff.mp found).1
  omega

/-- What stands in a run is an identifier. -/
theorem WordRun.isIdentifier_slice (h : WordRun text i j) :
    isIdentifier (slice text ⟨i, j⟩) = true := by
  have word : AllWord (slice text ⟨i, j⟩) := fun c hc => by
    obtain ⟨k, lo, hi, found⟩ := mem_slice hc
    have := h.word k lo hi
    rwa [found, Option.any_some] at this
  have head : (slice text ⟨i, j⟩).head? = text[i]? := head?_slice h.lt
  have inText := h.word i (Nat.le_refl i) h.lt
  -- The run is not empty, and what it begins with is a word character and no digit.
  cases cut : slice text ⟨i, j⟩ with
  | nil =>
    rw [← head, cut] at inText
    cases inText
  | cons c rest =>
    rw [cut] at word head
    obtain ⟨wordC, wordRest⟩ := List.forall_mem_cons.mp word
    have noDigit := h.noDigit
    rw [← head, List.head?_cons, Option.any_some] at noDigit
    rw [isIdentifier, isWordStart_eq wordC, noDigit, List.all_eq_true.mpr wordRest]
    rfl

theorem WordRun.wordAt (h : WordRun text i j) :
    WordAt text ⟨i, j, String.ofList (slice text ⟨i, j⟩)⟩ := by
  have size : (slice text ⟨i, j⟩).length = j - i := length_slice h.stop_le
  have stop : j = i + (j - i) := (Nat.add_sub_cancel' (Nat.le_of_lt h.lt)).symm
  refine ⟨?_, ?_, h.stop_le, ?_, h.maximal⟩
  · rw [String.toList_ofList]
    exact h.isIdentifier_slice
  · rw [String.toList_ofList, size]
    exact stop
  · rw [String.toList_ofList]

theorem WordAt.wordRun {w : Word} (h : WordAt text w) : WordRun text w.start w.stop := by
  refine ⟨h.start_lt, fun k lo hi => h.isWordChar_at lo hi, h.isolated, ?_⟩
  have head : (slice text ⟨w.start, w.stop⟩).head? = text[w.start]? := head?_slice h.start_lt
  rw [h.slice_eq] at head
  have identifier := h.identifier
  rw [← head]
  cases letters : w.text.toList with
  | nil => rfl
  | cons c rest =>
    rw [letters, isIdentifier, Bool.and_eq_true] at identifier
    have digit := isWordStart_eq (isWordChar_of_isWordStart identifier.1)
    rw [identifier.1] at digit
    simpa using digit

/-- A word is told by its run. -/
theorem wordAt_iff {w : Word} : WordAt text w ↔
    ∃ i j, WordRun text i j ∧ w = ⟨i, j, String.ofList (slice text ⟨i, j⟩)⟩ := by
  constructor
  · intro h
    exact ⟨w.start, w.stop, h.wordRun, by rw [h.slice_eq, String.ofList_toList]⟩
  · rintro ⟨i, j, run, rfl⟩
    exact run.wordAt

end

/-! ### The scan -/

/-- The whole word at the start of a text is found there. -/
theorem mem_scanWords_append {word after : List Char} (identifier : isIdentifier word = true)
    (ends : NoWordFirst after) :
    ⟨0, word.length, String.ofList word⟩ ∈ scanWords (word ++ after) := by
  have all : AllWord word := fun _ hc => isWordChar_of_isIdentifier identifier hc
  rw [scanWords, scanSites, scanSitesFrom_word all ends, runSite_reverse all, if_pos identifier]
  simp

/-- A character that belongs to no word parts the words before it from those behind it. -/
theorem scanWords_append_cons {c : Char} (h : isWordChar c = false) (a b : List Char) :
    scanWords (a ++ c :: b) =
      scanWords a ++ (scanWords b).map (Undeclared.shift (a.length + 1)) := by
  simp only [scanWords, scanSites_append_cons h, List.map_append, List.map_map]
  congr 1
  refine List.map_congr_left fun s _ => ?_
  simp only [Function.comp_apply, WordSite.behind, List.length_append, List.length_singleton]

/-- A word is found behind whatever does not make it longer. -/
theorem mem_scanWords_of_split {before word after : List Char}
    (left : before.getLast?.any isWordChar = false) (identifier : isIdentifier word = true)
    (ends : NoWordFirst after) :
    ⟨before.length, before.length + word.length, String.ofList word⟩ ∈
      scanWords (before ++ (word ++ after)) := by
  have found := mem_scanWords_append identifier ends
  rcases List.eq_nil_or_concat' before with rfl | ⟨front, c, rfl⟩
  · simpa using found
  · have apart : isWordChar c = false := by simpa using left
    have behind := List.mem_map_of_mem (f := Undeclared.shift (front.length + 1)) found
    rw [List.append_assoc, List.singleton_append, scanWords_append_cons apart, List.mem_append]
    right
    simpa [Undeclared.shift] using behind

section
variable {text : List Char} {w : Word}

/-- A word with what stands around it. -/
theorem WordAt.split (h : WordAt text w) :
    text = text.take w.start ++ (w.text.toList ++ text.drop w.stop) := by
  have middle := List.take_append_drop (w.stop - w.start) (text.drop w.start)
  have slice : (text.drop w.start).take (w.stop - w.start) = w.text.toList := h.slice_eq
  rw [slice, List.drop_drop, Nat.add_sub_cancel' (Nat.le_of_lt h.start_lt)] at middle
  rw [middle, List.take_append_drop]

theorem WordAt.getLast?_take (h : WordAt text w) :
    (text.take w.start).getLast?.any isWordChar = false := by
  rw [List.getLast?_take]
  split
  · rfl
  · rename_i inside
    have before : w.start - 1 < text.length := by
      have := h.start_lt
      have := h.stop_le
      omega
    rw [List.getElem?_eq_getElem before, Option.some_or, ← List.getElem?_eq_getElem before]
    exact h.isolated.1.resolve_left inside

theorem WordAt.noWordFirst_drop (h : WordAt text w) : NoWordFirst (text.drop w.stop) := by
  rw [NoWordFirst, List.head?_drop]
  exact h.isolated.2

/-- The scan finds the words that stand in a text, and nothing else. -/
theorem mem_scanWords_iff_wordAt : w ∈ scanWords text ↔ WordAt text w := by
  constructor
  · intro h
    obtain ⟨s, scanned, rfl⟩ := List.mem_map.mp h
    exact (fits_of_mem_scanSites scanned).wordAt
  · intro h
    have start : (text.take w.start).length = w.start :=
      List.length_take_of_le (Nat.le_trans (Nat.le_of_lt h.start_lt) h.stop_le)
    have found := mem_scanWords_of_split h.getLast?_take h.identifier h.noWordFirst_drop
    rwa [← h.split, start, ← h.stop_eq, String.ofList_toList] at found

end

theorem scanWords_separated (text : List Char) :
    (scanWords text).Pairwise fun v w => v.stop < w.start :=
  List.pairwise_map.mpr (scanSites_separated text)

/-! ### Parts of a text -/

/-- What stands before a scan and how far on it begins makes no other words. -/
theorem map_word_scanSitesFrom (offset : Nat) (text : List Char) :
    (scanSitesFrom offset [] [] text).map (·.word) =
      (scanWords text).map (Undeclared.shift offset) := by
  have sites := (Aligned.shift offset 0 text).scanSitesFrom 0 [] rfl rfl [] []
  have words := filterMap_of_forall₂ (f := fun s => some s.word) (g := Undeclared.shift offset)
    (fun s s' alike => congrArg some alike.word) sites
  simp only [List.filterMap_eq_map'] at words
  exact words

/-- A part of a text has the words that it has alone. -/
theorem scanWordsBetween_eq (text : List Char) (start : Int) (stop : Option Int) :
    scanWordsBetween text start stop =
      (scanWords (slice text ⟨start.toNat, (stop.map Int.toNat).getD text.length⟩)).map
        (Undeclared.shift start.toNat) := by
  unfold scanWordsBetween
  rw [map_word_scanSitesFrom]
  cases stop with
  | none => rfl
  | some stop =>
    have same : (text.drop start.toNat).take (min stop.toNat text.length - start.toNat) =
        (text.drop start.toNat).take (stop.toNat - start.toNat) := by
      rw [List.take_eq_take_iff, List.length_drop]
      omega
    simp only [same]
    rfl

theorem scanWordsBetween_whole (text : List Char) :
    scanWordsBetween text 0 none = scanWords text := by
  have whole : slice text ⟨0, text.length⟩ = text := by
    rw [slice, List.drop_zero, Nat.sub_zero, List.take_length]
  rw [scanWordsBetween_eq, Option.map_none, Option.getD_none, Int.toNat_zero, whole]
  exact (List.map_congr_left fun w _ => Undeclared.shift_zero w).trans (List.map_id' _)

/-! ### Lines -/

theorem scanWords_trimEnd (s : List Char) : scanWords (trimEnd s) = scanWords s := by
  obtain ⟨blanks, blank, split⟩ := exists_trimEnd_append s
  have sites := scanSites_append_blank blank (trimEnd s)
  rw [split] at sites
  rw [scanWords, scanWords, sites, List.map_map]
  rfl

/-- The words of a row, placed in the text. -/
def scanRow (row : Nat × List Char) : List Word :=
  (scanWords row.2).map (Undeclared.shift row.1)

/-- The words of a code view are those of its lines. -/
theorem Source.flatMap_words_lines (source : Source) :
    (source.lines.flatMap fun line =>
      (scanWords line.code).map (Undeclared.shift line.span.start)) = scanWords source.code := by
  have rows : (source.lines.map Line.row).flatMap scanRow = scanWords source.code := by
    refine Source.flatMap_row_lines Undeclared.shift_shift (scanWords_append_cons (by decide)) ?_
      Undeclared.shift_zero source
    intro start piece _
    rw [scanRow, scanWords_trimEnd]
  rw [← rows, List.flatMap_map]
  refine List.flatMap_congr fun line _ => ?_
  rw [scanRow, Line.row, scanWords_trimEnd]

/-- The spans of lines, looked up by the numbers of the lines. -/
theorem LineIndex.map_lineSpan_range (index : LineIndex) :
    ((List.range index.lineCount).map fun n : Nat => index.lineSpan n) = index.spans := by
  refine List.ext_getElem (by simp [lineCount]) fun n _ inSpans => ?_
  have nearest : index.clampLine n = n := by
    rw [clampLine, lineCount]
    omega
  rw [List.getElem_map, List.getElem_range, lineSpan, nearest, List.getElem?_eq_getElem inSpans,
    Option.getD_some]

/-- The words of a code view, looked up line by line. -/
theorem Source.scanWords_code_eq (source : Source) :
    scanWords source.code = (List.range source.index.lineCount).flatMap fun n : Nat =>
      (scanWords (slice source.code (source.index.lineSpan n))).map
        (Undeclared.shift (source.index.lineStart n)) := by
  let placed (span : Span) : List Word :=
    (scanWords (slice source.code span)).map (Undeclared.shift span.start)
  calc scanWords source.code
      = source.lines.flatMap fun line =>
          (scanWords line.code).map (Undeclared.shift line.span.start) :=
        source.flatMap_words_lines.symm
    _ = source.lines.flatMap fun line => placed line.span :=
        List.flatMap_congr fun line h => by rw [(Source.stands_of_mem_lines h).code]
    _ = source.index.spans.flatMap placed := by
        rw [← source.map_span_lines, List.flatMap_map]
    _ = (List.range source.index.lineCount).flatMap fun n : Nat =>
          placed (source.index.lineSpan n) := by
        rw [← source.index.map_lineSpan_range, List.flatMap_map]

/-- **Words are the maximal runs.** The scan finds, in text order, the runs of word characters that
neither neighbour makes longer and that begin with no digit, and nothing else. Without bounds it
looks at the whole text, and between two bounds it finds what it finds in that part alone, moved to
where the part begins. So the words of a code view are those of its lines, each moved to where its
line begins. -/
theorem words_are_maximal_runs (text : List Char) :
    (∀ w, w ∈ scanWords text ↔
      ∃ i j, WordRun text i j ∧ w = ⟨i, j, String.ofList (slice text ⟨i, j⟩)⟩) ∧
    ((scanWords text).Pairwise fun v w => v.stop < w.start) ∧
    scanWordsBetween text 0 none = scanWords text ∧
    (∀ start stop : Nat, scanWordsBetween text start (some (stop : Int)) =
      (scanWords (slice text ⟨start, stop⟩)).map (Undeclared.shift start)) ∧
    ∀ source : Source, scanWords source.code =
      (List.range source.index.lineCount).flatMap fun n : Nat =>
        (scanWords (slice source.code (source.index.lineSpan n))).map
          (Undeclared.shift (source.index.lineStart n)) := by
  refine ⟨fun w => ?_, scanWords_separated text, scanWordsBetween_whole text, fun start stop => ?_,
    Source.scanWords_code_eq⟩
  · rw [mem_scanWords_iff_wordAt, wordAt_iff]
  · rw [scanWordsBetween_eq, Option.map_some, Option.getD_some, Int.toNat_natCast,
      Int.toNat_natCast]

/-- What follows a digit in a run is no word, unless the part begins behind the digit. -/
example : scanWords "2x a1".toList = [⟨3, 5, "a1"⟩] ∧
    scanWordsBetween "2x a1".toList 1 (some 4) = [⟨1, 2, "x"⟩, ⟨3, 4, "a"⟩] := by
  decide

end LexLint
