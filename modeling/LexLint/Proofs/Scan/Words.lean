import LexLint.Checker.Undeclared
import LexLint.Proofs.View.Offsets
import LexLint.Proofs.View.Position

/-!
# Words where they stand

The words that a scan finds stand where it says, and no word character is next to them
(`WordSite.Fits`, `WordAt`). A word of a line is a word of the document (`WordAt.of_line`), and a
word of the code view is a word of the text (`WordAt.of_codeView`).
-/

namespace LexLint

/-- A word stands at its place, whole. -/
structure WordAt (text : List Char) (w : Word) : Prop where
  identifier : isIdentifier w.text.toList = true
  stop_eq : w.stop = w.start + w.text.toList.length
  stop_le : w.stop ≤ text.length
  slice_eq : slice text ⟨w.start, w.stop⟩ = w.text.toList
  isolated : Isolated text ⟨w.start, w.stop⟩

theorem isWordChar_of_isIdentifier {word : List Char} (h : isIdentifier word = true) {c : Char}
    (hc : c ∈ word) : isWordChar c = true := by
  cases word with
  | nil => cases hc
  | cons first rest =>
    simp only [isIdentifier, Bool.and_eq_true, List.all_eq_true] at h
    rcases List.mem_cons.mp hc with rfl | later
    · exact isWordChar_of_isWordStart h.1
    · exact h.2 c later

theorem not_mem_of_isIdentifier {word : List Char} (h : isIdentifier word = true) {c : Char}
    (other : isWordChar c = false) : c ∉ word :=
  fun hc => isWordChar_ne (isWordChar_of_isIdentifier h hc) other rfl

theorem isIdentifier_ne_nil {word : List Char} (h : isIdentifier word = true) : word ≠ [] := by
  rintro rfl
  cases h

/-- A word between two parts that do not make it longer. -/
theorem WordAt.of_split (before after : List Char) {word : List Char}
    (identifier : isIdentifier word = true) (left : before.getLast?.any isWordChar = false)
    (right : after.head?.any isWordChar = false) :
    WordAt (before ++ (word ++ after))
      ⟨before.length, before.length + word.length, String.ofList word⟩ := by
  refine ⟨by simpa using identifier, by simp, by simp, by simp [slice_middle], ?_, ?_⟩
  · rcases List.eq_nil_or_concat before with rfl | ⟨front, c, rfl⟩
    · exact .inl rfl
    · exact .inr (by simpa using left)
  · rw [← List.length_append, ← List.append_assoc, List.getElem?_append_right (Nat.le_refl _),
      Nat.sub_self, ← List.head?_eq_getElem?]
    exact right

namespace WordAt

variable {text : List Char} {w : Word}

theorem start_lt (h : WordAt text w) : w.start < w.stop := by
  have := List.length_pos_iff.mpr (isIdentifier_ne_nil h.identifier)
  have := h.stop_eq
  omega

theorem isWordChar_at (h : WordAt text w) {i : Nat} (lo : w.start ≤ i) (hi : i < w.stop) :
    text[i]?.any isWordChar = true := by
  have inSlice := getElem?_slice text ⟨w.start, w.stop⟩ (i - w.start)
  rw [if_pos (by simp only; omega), h.slice_eq, Nat.add_sub_cancel' lo] at inSlice
  have bound : i - w.start < w.text.toList.length := by
    have := h.stop_eq
    omega
  rw [← inSlice, List.getElem?_eq_getElem bound, Option.any_some]
  exact isWordChar_of_isIdentifier h.identifier (List.getElem_mem bound)

/-- Of two words that meet, neither begins before the other, and neither ends behind it. -/
theorem within_of_meets {v : Word} (hv : WordAt text v) (hw : WordAt text w) {i : Nat}
    (inV : v.start ≤ i ∧ i < v.stop) (inW : w.start ≤ i ∧ i < w.stop) :
    w.start ≤ v.start ∧ v.stop ≤ w.stop := by
  constructor
  · apply Nat.le_of_not_lt
    intro later
    have inside := hv.isWordChar_at (i := w.start - 1) (by omega) (by omega)
    rcases hw.isolated.1 with zero | other
    · simp only at zero
      omega
    · rw [inside] at other
      cases other
  · apply Nat.le_of_not_lt
    intro longer
    have inside := hv.isWordChar_at (i := w.stop) (by omega) longer
    rw [hw.isolated.2] at inside
    cases inside

/-- Two words that meet are one. -/
theorem eq_of_meets {v : Word} (hv : WordAt text v) (hw : WordAt text w) {i : Nat}
    (inV : v.start ≤ i ∧ i < v.stop) (inW : w.start ≤ i ∧ i < w.stop) : v = w := by
  obtain ⟨start, stop⟩ := hv.within_of_meets hw inV inW
  obtain ⟨start', stop'⟩ := hw.within_of_meets hv inW inV
  have sameStart : v.start = w.start := Nat.le_antisymm start' start
  have sameStop : v.stop = w.stop := Nat.le_antisymm stop stop'
  have sameText : v.text = w.text := by
    apply String.toList_injective
    rw [← hv.slice_eq, ← hw.slice_eq, sameStart, sameStop]
  cases v
  cases w
  simp only at sameStart sameStop sameText
  subst sameStart sameStop sameText
  rfl

/-- A word of the code view is a word of the text. -/
theorem of_codeView (h : WordAt (codeView text) w) : WordAt text w := by
  have visible : ' ' ∉ slice (codeView text) ⟨w.start, w.stop⟩ := by
    rw [h.slice_eq]
    exact not_mem_of_isIdentifier h.identifier (by decide)
  have lt := h.start_lt
  refine ⟨h.identifier, h.stop_eq, length_codeView text ▸ h.stop_le, ?_, ?_⟩
  · rw [slice_text_of_codeView visible, h.slice_eq]
  · exact h.isolated.of_codeView lt (h.isWordChar_at (Nat.le_refl _) lt)
      (h.isWordChar_at (by simp only; omega) (by simp only; omega))

end WordAt

/-- Behind a line stands nothing, a newline or a return. -/
theorem EndsLine.getElem?_cases {text : List Char} {offset : Nat} (h : EndsLine text offset) :
    text[offset]? = none ∨ text[offset]? = some '\n' ∨ text[offset]? = some '\r' := by
  obtain ⟨rest, last, dropped⟩ := h
  rw [← List.head?_drop]
  rcases dropped with same | returned
  · rw [same]
    rcases last with rfl | newline
    · exact .inl rfl
    · exact .inr (.inl newline)
  · rw [returned]
    exact .inr (.inr rfl)

theorem EndsLine.any_isWordChar {text : List Char} {offset : Nat} (h : EndsLine text offset) :
    text[offset]?.any isWordChar = false := by
  rcases h.getElem?_cases with stands | stands | stands <;> rw [stands] <;> decide

theorem any_isWordChar_codeView_of_text {text : List Char} {i : Nat}
    (h : text[i]?.any isWordChar = false) : (codeView text)[i]?.any isWordChar = false := by
  refine Bool.eq_false_iff.mpr fun word => ?_
  obtain ⟨c, hc, wordC⟩ := any_isWordChar_codeView word
  rw [hc, Option.any_some, wordC] at h
  cases h

namespace Line.Stands

variable {source : Source} {line : Line}

theorem length_code (stands : line.Stands source) :
    line.code.length = line.span.stop - line.span.start := by
  rw [stands.code, length_slice (by rw [Source.code, length_codeView]; exact stands.stop_le)]

/-- A line shows what the code view shows at its place. -/
theorem getElem?_code (stands : line.Stands source) {i : Nat} (inside : i < line.code.length) :
    source.code[line.span.start + i]? = line.code[i]? := by
  rw [stands.code, getElem?_slice, if_pos (stands.length_code ▸ inside)]

end Line.Stands

/-- What stands around a line makes no word of it longer. -/
theorem WordAt.of_line {source : Source} {line : Line} (stands : line.Stands source) {w : Word}
    (h : WordAt line.code w) : WordAt source.code (Undeclared.shift line.span.start w) := by
  have length := stands.length_code
  have lineLe := stands.start_le
  have lineStop := stands.stop_le
  have wordStop := h.stop_le
  have wordLt := h.start_lt
  refine ⟨h.identifier, ?_, ?_, ?_, ?_, ?_⟩
  · rw [Undeclared.shift, h.stop_eq, Nat.add_assoc]
  · rw [Undeclared.shift, Source.code, length_codeView]
    change line.span.start + w.stop ≤ source.length
    omega
  · rw [Undeclared.shift, ← slice_slice (by omega), ← stands.code]
    exact h.slice_eq
  · change line.span.start + w.start = 0 ∨
      source.code[line.span.start + w.start - 1]?.any isWordChar = false
    by_cases atStart : w.start = 0
    · -- The word begins its line, so that a newline stands before it, or nothing.
      rw [atStart, Nat.add_zero]
      refine stands.begins.imp_right fun newline => any_isWordChar_codeView_of_text ?_
      rw [newline]
      decide
    · right
      rw [Nat.add_sub_assoc (by omega), stands.getElem?_code (by omega)]
      exact h.isolated.1.resolve_left atStart
  · change source.code[line.span.start + w.stop]?.any isWordChar = false
    by_cases atEnd : w.stop = line.code.length
    · have lineEnd : line.span.start + w.stop = line.span.stop := by omega
      rw [lineEnd]
      exact any_isWordChar_codeView_of_text stands.ends.any_isWordChar
    · rw [stands.getElem?_code (by omega)]
      exact h.isolated.2

/-- A word with the text around it, as a scan of the text finds it. -/
structure WordSite.Fits (text : List Char) (s : WordSite) : Prop where
  split : text = s.before.reverse ++ (s.word.text.toList ++ s.after)
  start : s.word.start = s.before.length
  stop : s.word.stop = s.before.length + s.word.text.toList.length
  identifier : isIdentifier s.word.text.toList = true
  before : s.before.head?.any isWordChar = false
  after : s.after.head?.any isWordChar = false

theorem WordSite.Fits.wordAt {text : List Char} {s : WordSite} (h : s.Fits text) :
    WordAt text s.word := by
  have placed := WordAt.of_split s.before.reverse s.after h.identifier
    (by rw [List.getLast?_reverse]; exact h.before) h.after
  rw [← h.split, List.length_reverse, ← h.start, String.ofList_toList] at placed
  have stop : s.word.start + s.word.text.toList.length = s.word.stop := by
    rw [h.stop, h.start]
  rw [stop] at placed
  exact placed

/-- The character before a word. -/
theorem WordSite.Fits.head?_before {text : List Char} {s : WordSite} (h : s.Fits text)
    (inside : 0 < s.word.start) : text[s.word.start - 1]? = s.before.head? := by
  have place := h.start
  rw [h.split, List.getElem?_append_left (by rw [List.length_reverse]; omega), place,
    ← List.length_reverse, ← List.getLast?_eq_getElem?, List.getLast?_reverse]

/-- The character behind a word. -/
theorem WordSite.Fits.head?_after {text : List Char} {s : WordSite} (h : s.Fits text) :
    text[s.word.stop]? = s.after.head? := by
  have size : s.word.stop = (s.before.reverse ++ s.word.text.toList).length := by
    rw [h.stop, List.length_append, List.length_reverse]
  rw [h.split, ← List.append_assoc, size, List.getElem?_append_right (Nat.le_refl _), Nat.sub_self,
    List.head?_eq_getElem?]

/-- The word that a run is, if there is one. -/
theorem mem_runSite {stop : Nat} {before run after : List Char} {s : WordSite}
    (h : s ∈ runSite stop before run after) :
    ∃ c rest, run.reverse = c :: rest ∧ isWordStart c = true ∧
      s = ⟨⟨stop - run.length, stop, String.ofList (c :: rest)⟩, before, after⟩ := by
  unfold runSite at h
  split at h
  · cases h
  · rename_i c rest reversed
    split at h
    · rename_i start
      exact ⟨c, rest, reversed, start, List.mem_singleton.mp h⟩
    · cases h

theorem fits_of_mem_runSite {stop : Nat} {before run after : List Char} {s : WordSite}
    (h : s ∈ runSite stop before run after) (place : stop = before.length + run.length)
    (word : ∀ c ∈ run, isWordChar c = true) (left : before.head?.any isWordChar = false)
    (right : after.head?.any isWordChar = false) :
    s.Fits (before.reverse ++ (run.reverse ++ after)) := by
  obtain ⟨c, rest, reversed, start, rfl⟩ := mem_runSite h
  have identifier : isIdentifier (c :: rest) = true := by
    simp only [isIdentifier, start, Bool.true_and, List.all_eq_true]
    intro d hd
    apply word d
    rw [← List.mem_reverse, reversed]
    exact List.mem_cons_of_mem c hd
  have size : run.length = (c :: rest).length := by rw [← reversed, List.length_reverse]
  refine ⟨?_, ?_, ?_, ?_, left, right⟩
  · simp only [reversed, String.toList_ofList]
  · simp only
    omega
  · simp only [String.toList_ofList]
    omega
  · simpa using identifier

theorem fits_of_mem_scanSitesFrom {offset : Nat} {before run rest : List Char} {s : WordSite}
    (h : s ∈ scanSitesFrom offset before run rest) (place : offset = before.length + run.length)
    (word : ∀ c ∈ run, isWordChar c = true) (left : before.head?.any isWordChar = false) :
    s.Fits (before.reverse ++ (run.reverse ++ rest)) := by
  induction rest generalizing offset before run with
  | nil => exact fits_of_mem_runSite h place word left rfl
  | cons c rest ih =>
    unfold scanSitesFrom at h
    by_cases wordC : isWordChar c = true
    · rw [if_pos wordC] at h
      have later := ih h (by simp only [List.length_cons]; omega)
        (List.forall_mem_cons.mpr ⟨wordC, word⟩) left
      simpa using later
    · rw [if_neg wordC] at h
      rcases List.mem_append.mp h with here | later
      · exact fits_of_mem_runSite here place word left (by simpa using wordC)
      · have fits := ih later (by simp; omega)
          (by simp) (by simpa using wordC)
        simpa using fits

/-- The words of a text stand where a scan says, with what it says around them. -/
theorem fits_of_mem_scanSites {text : List Char} {s : WordSite} (h : s ∈ scanSites text) :
    s.Fits text :=
  fits_of_mem_scanSitesFrom h rfl (by simp) rfl

end LexLint
