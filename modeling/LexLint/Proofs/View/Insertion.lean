import LexLint.Proofs.View.Lines
import LexLint.Proofs.View.Offsets

/-!
# Marks put into a text

A mark put at some places of a text (`insertAt`) shows in the code view at the same places, if
everything else is read as it was: if the lexer shows the mark where it stands, and what follows
it is read as if it were not there (`codeView_insertAt`).
-/

namespace LexLint

/-- The text from an offset on, with a mark at each of the given places. -/
def insertFrom (mark : List Char) (places : List Nat) (offset : Nat) : List Char → List Char
  | [] => if offset ∈ places then mark else []
  | c :: rest =>
    (if offset ∈ places then mark else []) ++ c :: insertFrom mark places (offset + 1) rest

/-- The text with a mark before the character at each of the given offsets, or at its end. -/
def insertAt (mark : List Char) (places : List Nat) (text : List Char) : List Char :=
  insertFrom mark places 0 text

example : insertAt ['$'] [2, 8] "if x; if".toList = "if$ x; if$".toList := by decide

namespace LexState

/-- A mark read in this state is shown, and a character after it is read and shown as without
it. -/
structure Passes (s : LexState) (mark : List Char) (next : Option Char) : Prop where
  view : s.view mark = mark
  shown : ∀ c, next = some c → (mark.foldl read s).shown c = s.shown c
  read : ∀ c, next = some c → (mark.foldl read s).read c = s.read c

theorem view_insertFrom {mark : List Char} {places : List Nat} {s : LexState} {offset : Nat}
    {text : List Char} (passes : ∀ i ≤ text.length, offset + i ∈ places →
      ((text.take i).foldl read s).Passes mark text[i]?) :
    s.view (insertFrom mark places offset text) =
      insertFrom mark places offset (s.view text) := by
  induction text generalizing s offset with
  | nil =>
    simp only [insertFrom, view]
    split
    · rename_i here
      exact (passes 0 (Nat.le_refl 0) here).view
    · rfl
  | cons c rest ih =>
    have later : (s.read c).view (insertFrom mark places (offset + 1) rest) =
        insertFrom mark places (offset + 1) ((s.read c).view rest) := by
      refine ih fun i hi member => ?_
      have place : offset + (i + 1) ∈ places := by
        rwa [show offset + (i + 1) = offset + 1 + i by omega]
      have there := passes (i + 1) (Nat.succ_le_succ hi) place
      rwa [List.take_succ_cons, List.foldl_cons, List.getElem?_cons_succ] at there
    simp only [insertFrom, view]
    split
    · rename_i here
      have this : s.Passes mark (some c) := passes 0 (Nat.zero_le _) here
      rw [view_append, this.view, view, this.shown c rfl, this.read c rfl, later]
    · rw [List.nil_append, List.nil_append, view, later]

/-- In code, a word character is read the same with a backslash before it and without. -/
theorem read_word {s : LexState} (code : s.mode = .code) {c : Char} (word : isWordChar c = true) :
    s.read c = ⟨.code, false⟩ := by
  obtain ⟨mode, escaped⟩ := s
  obtain rfl : mode = .code := code
  have newline : c ≠ '\n' := isWordChar_ne word (by decide)
  have hash : c ≠ '#' := isWordChar_ne word (by decide)
  have slash : c ≠ '\\' := isWordChar_ne word (by decide)
  have quote : c ≠ '"' := isWordChar_ne word (by decide)
  simp [read, newline, hash, slash, quote]

end LexState

/-- Marks show in the code view where they are put. -/
theorem codeView_insertAt {mark : List Char} {places : List Nat} {text : List Char}
    (passes : ∀ p ∈ places, (LexState.before text p).Passes mark text[p]?) :
    codeView (insertAt mark places text) = insertAt mark places (codeView text) := by
  rw [codeView_eq_view, codeView_eq_view]
  refine LexState.view_insertFrom fun i _ member => ?_
  rw [Nat.zero_add] at member
  exact passes i member

/-- A word character that the code view shows is read in code. -/
theorem before_of_isWordChar_codeView {text : List Char} {i : Nat} {c : Char}
    (h : (codeView text)[i]? = some c) (word : isWordChar c = true) :
    text[i]? = some c ∧ (LexState.before text i).mode = .code := by
  have newline : c ≠ '\n' := isWordChar_ne word (by decide)
  have quote : c ≠ '"' := isWordChar_ne word (by decide)
  have space : c ≠ ' ' := isWordChar_ne word (by decide)
  have stands := getElem?_text_of_codeView h space
  refine ⟨stands, ?_⟩
  rw [getElem?_codeView, stands, Option.map_some, Option.some.injEq] at h
  have shows : (LexState.before text i).shows c = true := by
    refine Decidable.byContradiction fun hidden => ?_
    rw [LexState.shown, if_neg hidden] at h
    exact space h.symm
  simp only [LexState.shows, beq_false_of_ne newline, beq_false_of_ne quote, Bool.and_false,
    Bool.false_and, Bool.or_false, Bool.false_or, Bool.and_eq_true, beq_iff_eq] at shows
  exact shows.1

/-- Behind a word character that the code view shows, the lexer is in code. -/
theorem before_succ_of_isWordChar_codeView {text : List Char} {i : Nat} {c : Char}
    (h : (codeView text)[i]? = some c) (word : isWordChar c = true) :
    LexState.before text (i + 1) = ⟨.code, false⟩ := by
  obtain ⟨stands, code⟩ := before_of_isWordChar_codeView h word
  rw [LexState.before_succ stands, LexState.read_word code word]

end LexLint
