import LexLint.Proofs.Text.Trim
import LexLint.Proofs.View.Lexer
import LexLint.Source.LineIndex

/-!
# What the code view shows, the text holds

An offset into the code view is an offset into the text. A character of the view that is not a
blank stands in the text at the same place (`getElem?_text_of_codeView`), so that a slice of the
view without blanks is the slice of the text (`slice_text_of_codeView`), and such a part of a slice
is a part of it (`exists_slice_text_of_split`). A word of the view has no other neighbours in the
text that would make it longer (`Isolated.of_codeView`).
-/

namespace LexLint

open LexState (before)

theorem getElem?_slice (text : List Char) (span : Span) (i : Nat) :
    (slice text span)[i]? = if i < span.stop - span.start then text[span.start + i]? else none := by
  rw [slice, List.getElem?_take, List.getElem?_drop]

theorem length_slice {text : List Char} {span : Span} (h : span.stop ≤ text.length) :
    (slice text span).length = span.stop - span.start := by
  rw [slice, List.length_take, List.length_drop]
  omega

theorem head?_slice {text : List Char} {span : Span} (h : span.start < span.stop) :
    (slice text span).head? = text[span.start]? := by
  rw [List.head?_eq_getElem?, getElem?_slice, if_pos (by omega), Nat.add_zero]

theorem mem_slice {text : List Char} {span : Span} {c : Char} (h : c ∈ slice text span) :
    ∃ i, span.start ≤ i ∧ i < span.stop ∧ text[i]? = some c := by
  obtain ⟨k, hk⟩ := List.getElem?_of_mem h
  rw [getElem?_slice] at hk
  split at hk
  · exact ⟨span.start + k, by omega, by omega, hk⟩
  · cases hk

theorem slice_slice {text : List Char} {span : Span} {a b : Nat}
    (h : b ≤ span.stop - span.start) :
    slice (slice text span) ⟨a, b⟩ = slice text ⟨span.start + a, span.start + b⟩ := by
  simp only [slice, List.drop_take, List.take_take, List.drop_drop]
  congr 1
  omega

theorem slice_one {text : List Char} {i : Nat} {c : Char} (h : text[i]? = some c) :
    slice text ⟨i, i + 1⟩ = [c] := by
  obtain ⟨bound, rfl⟩ := List.getElem?_eq_some_iff.mp h
  rw [slice, Nat.add_sub_cancel_left, List.drop_eq_getElem_cons bound]
  rfl

/-- The middle of three parts. -/
theorem slice_middle (pre mid post : List Char) :
    slice (pre ++ (mid ++ post)) ⟨pre.length, pre.length + mid.length⟩ = mid := by
  rw [slice, List.drop_left, Nat.add_sub_cancel_left, List.take_left]

/-- The view shows each character by the state in which the lexer reads it. -/
theorem getElem?_codeView (text : List Char) (i : Nat) :
    (codeView text)[i]? = (text[i]?).map (before text i).shown := by
  rw [codeView_eq_view, LexState.getElem?_view]
  rfl

theorem LexState.shown_eq_of_ne_space {s : LexState} {c : Char} (h : s.shown c ≠ ' ') :
    s.shown c = c := by
  unfold shown at h ⊢
  split at h
  · rename_i shows
    rw [if_pos shows]
  · exact absurd rfl h

/-- A character that the view shows stands in the text. -/
theorem getElem?_text_of_codeView {text : List Char} {i : Nat} {c : Char}
    (h : (codeView text)[i]? = some c) (visible : c ≠ ' ') : text[i]? = some c := by
  rw [getElem?_codeView, Option.map_eq_some_iff] at h
  obtain ⟨d, hd, rfl⟩ := h
  rw [hd, LexState.shown_eq_of_ne_space visible]

theorem getElem?_codeView_eq_newline {text : List Char} {i : Nat} :
    (codeView text)[i]? = some '\n' ↔ text[i]? = some '\n' := by
  rw [getElem?_codeView, Option.map_eq_some_iff]
  constructor
  · rintro ⟨d, hd, newline⟩
    rw [hd, LexState.shown_eq_newline.mp newline]
  · intro h
    exact ⟨'\n', h, LexState.shown_eq_newline.mpr rfl⟩

/-- Where the view shows no blank, it is the text. -/
theorem slice_text_of_codeView {text : List Char} {span : Span}
    (visible : ' ' ∉ slice (codeView text) span) :
    slice text span = slice (codeView text) span := by
  refine List.ext_getElem? fun i => ?_
  have shown (c : Char) (h : (slice (codeView text) span)[i]? = some c) : c ≠ ' ' := by
    rintro rfl
    exact visible (List.mem_of_getElem? h)
  rw [getElem?_slice] at shown ⊢
  rw [getElem?_slice]
  by_cases inside : i < span.stop - span.start
  · rw [if_pos inside] at shown ⊢
    rw [if_pos inside]
    cases view : (codeView text)[span.start + i]? with
    | some c => exact getElem?_text_of_codeView view (shown c view)
    | none =>
      rw [List.getElem?_eq_none_iff, length_codeView] at view
      exact List.getElem?_eq_none view
  · rw [if_neg inside, if_neg inside]

/-- The middle of three parts of the view is cut out of it, and lies in the text. -/
theorem slice_codeView_of_split {text pre mid post : List Char} (span : Span)
    (view : codeView text = pre ++ (mid ++ post)) (first : span.start = pre.length)
    (last : span.stop = pre.length + mid.length) :
    span.start ≤ span.stop ∧ span.stop ≤ text.length ∧ slice (codeView text) span = mid := by
  have size : text.length = pre.length + mid.length + post.length := by
    rw [← length_codeView text, view]
    simp only [List.length_append, Nat.add_assoc]
  refine ⟨by omega, by omega, ?_⟩
  obtain ⟨start, stop⟩ := span
  simp only at first last
  rw [view, first, last, slice_middle]

/-- What the view shows without blanks in a range, between two parts, stands there in the text. -/
theorem exists_slice_text_of_split {text : List Char} {span : Span} {pre mid post : List Char}
    (view : slice (codeView text) span = pre ++ (mid ++ post)) (visible : ' ' ∉ mid) :
    ∃ front back, slice text span = front ++ (mid ++ back) ∧ front.length = pre.length ∧
      back.length = post.length := by
  have size : (slice text span).length = pre.length + mid.length + post.length := by
    have same : (slice text span).length = (slice (codeView text) span).length := by
      simp only [slice, List.length_take, List.length_drop, length_codeView]
    rw [same, view]
    simp only [List.length_append, Nat.add_assoc]
  have bound : pre.length + mid.length ≤ span.stop - span.start := by
    have : (slice text span).length ≤ span.stop - span.start := List.length_take_le ..
    omega
  have shown : slice (codeView text)
      ⟨span.start + pre.length, span.start + (pre.length + mid.length)⟩ = mid := by
    rw [← slice_slice bound, view, slice_middle]
  have inner : ((slice text span).drop pre.length).take mid.length = mid := by
    have cut := slice_text_of_codeView (by rw [shown]; exact visible)
    rw [shown, ← slice_slice bound] at cut
    rwa [slice, Nat.add_sub_cancel_left] at cut
  refine ⟨(slice text span).take pre.length, ((slice text span).drop pre.length).drop mid.length,
    ?_, ?_, ?_⟩
  · have tail := List.take_append_drop mid.length ((slice text span).drop pre.length)
    rw [inner] at tail
    rw [tail, List.take_append_drop]
  · rw [List.length_take]
    omega
  · rw [List.length_drop, List.length_drop]
    omega

/-- How the view begins in a range, without blanks, is how the text does. -/
theorem prefix_slice_text {text : List Char} {span : Span} {mid post : List Char}
    (view : slice (codeView text) span = mid ++ post) (visible : ' ' ∉ mid) :
    mid <+: slice text span := by
  have parts : slice (codeView text) span = [] ++ (mid ++ post) := view
  obtain ⟨front, back, split, size, -⟩ := exists_slice_text_of_split parts visible
  rw [List.length_eq_zero_iff.mp size] at split
  exact ⟨back, split.symm⟩

/-- How the view ends in a range, without blanks, is how the text does. -/
theorem suffix_slice_text {text : List Char} {span : Span} {pre mid : List Char}
    (view : slice (codeView text) span = pre ++ mid) (visible : ' ' ∉ mid) :
    mid <:+ slice text span := by
  have parts : slice (codeView text) span = pre ++ (mid ++ []) := by rw [view, List.append_nil]
  obtain ⟨front, back, split, -, size⟩ := exists_slice_text_of_split parts visible
  rw [List.length_eq_zero_iff.mp size, List.append_nil] at split
  exact ⟨front, split.symm⟩

theorem isWordChar_ne {c d : Char} (h : isWordChar c = true) (other : isWordChar d = false) :
    c ≠ d := by
  rintro rfl
  rw [h] at other
  cases other

/-- A word character leaves the reader in its mode. -/
theorem LexState.mode_read_of_isWordChar {c : Char} (h : isWordChar c = true) (s : LexState) :
    (s.read c).mode = s.mode := by
  have newline := isWordChar_ne h (d := '\n') (by decide)
  have hash := isWordChar_ne h (d := '#') (by decide)
  have slash := isWordChar_ne h (d := '\\') (by decide)
  have quote := isWordChar_ne h (d := '"') (by decide)
  simp only [read, newline, hash, slash, quote, and_false, false_and, if_false]
  split <;> rfl

/-- A word character is shown in code only. -/
theorem LexState.shown_of_isWordChar {c : Char} (h : isWordChar c = true) (s : LexState) :
    isWordChar (s.shown c) = true ↔ s.mode = .code := by
  have newline := isWordChar_ne h (d := '\n') (by decide)
  have hash := isWordChar_ne h (d := '#') (by decide)
  have quote := isWordChar_ne h (d := '"') (by decide)
  have blank : isWordChar ' ' = false := by decide
  obtain ⟨mode, escaped⟩ := s
  cases mode <;> simp [shown, shows, newline, hash, quote, h, blank]

/-- Of two word characters side by side the view shows both or neither. -/
theorem isWordChar_codeView_succ {text : List Char} {i : Nat} {c d : Char}
    (hc : text[i]? = some c) (hd : text[i + 1]? = some d) (wordC : isWordChar c = true)
    (wordD : isWordChar d = true) :
    (codeView text)[i]?.any isWordChar = (codeView text)[i + 1]?.any isWordChar := by
  rw [getElem?_codeView, getElem?_codeView, hc, hd, LexState.before_succ hc]
  simp only [Option.map_some, Option.any_some]
  rw [Bool.eq_iff_iff, LexState.shown_of_isWordChar wordC, LexState.shown_of_isWordChar wordD,
    LexState.mode_read_of_isWordChar wordC]

/-- No word character stands directly before or after a range. -/
def Isolated (text : List Char) (span : Span) : Prop :=
  (span.start = 0 ∨ text[span.start - 1]?.any isWordChar = false) ∧
    text[span.stop]?.any isWordChar = false

theorem any_isWordChar_codeView {text : List Char} {i : Nat}
    (h : (codeView text)[i]?.any isWordChar = true) :
    ∃ c, text[i]? = some c ∧ isWordChar c = true := by
  rw [Option.any_eq_true] at h
  obtain ⟨c, hc, word⟩ := h
  refine ⟨c, getElem?_text_of_codeView hc ?_, word⟩
  exact isWordChar_ne word (by decide)

/-- What isolates a word in the view isolates it in the text. -/
theorem Isolated.of_codeView {text : List Char} {span : Span} (h : Isolated (codeView text) span)
    (nonempty : span.start < span.stop)
    (first : (codeView text)[span.start]?.any isWordChar = true)
    (last : (codeView text)[span.stop - 1]?.any isWordChar = true) : Isolated text span := by
  obtain ⟨c, hc, wordC⟩ := any_isWordChar_codeView first
  obtain ⟨d, hd, wordD⟩ := any_isWordChar_codeView last
  constructor
  · rcases h.1 with zero | apart
    · exact .inl zero
    by_cases zero : span.start = 0
    · exact .inl zero
    refine .inr (Bool.eq_false_iff.mpr fun word => ?_)
    obtain ⟨e, he, wordE⟩ := (Option.any_eq_true ..).mp word
    have next : span.start - 1 + 1 = span.start := by omega
    have both := isWordChar_codeView_succ he (next ▸ hc) wordE wordC
    rw [next, first, apart] at both
    cases both
  · refine Bool.eq_false_iff.mpr fun word => ?_
    obtain ⟨e, he, wordE⟩ := (Option.any_eq_true ..).mp word
    have next : span.stop - 1 + 1 = span.stop := by omega
    have both := isWordChar_codeView_succ hd (next ▸ he) wordD wordE
    rw [next, last, h.2] at both
    cases both

end LexLint
