import LexLint.Text.Split
import LexLint.Text.WordChar
import Mathlib.Data.List.TakeWhile

/-!
# Blanks at the ends of a text

Blanks that follow a text change neither its trimmed forms nor where it begins.
-/

namespace LexLint

/-- Nothing but blanks. -/
def AllBlank (s : List Char) : Prop := ∀ c ∈ s, isBlank c = true

theorem trimEnd_append_blank {blanks : List Char} (h : AllBlank blanks) (s : List Char) :
    trimEnd (s ++ blanks) = trimEnd s := by
  unfold trimEnd
  rw [List.reverse_append, List.dropWhile_append_of_pos]
  intro c hc
  exact h c (List.mem_reverse.mp hc)

theorem trimEnd_of_allBlank {s : List Char} (h : AllBlank s) : trimEnd s = [] :=
  trimEnd_append_blank h []

theorem trimEnd_concat {c : Char} (visible : isBlank c = false) (s : List Char) :
    trimEnd (s ++ [c]) = s ++ [c] := by
  rw [trimEnd, List.reverse_append, List.reverse_singleton, List.singleton_append,
    List.dropWhile_cons_of_neg (by simp [visible]), List.reverse_cons, List.reverse_reverse]

/-- A text is its trimmed form and some blanks. -/
theorem exists_trimEnd_append (s : List Char) :
    ∃ blanks, AllBlank blanks ∧ trimEnd s ++ blanks = s := by
  refine ⟨(s.reverse.takeWhile isBlank).reverse, fun c hc => ?_, ?_⟩
  · exact List.mem_takeWhile_imp (List.mem_reverse.mp hc)
  · rw [trimEnd, ← List.reverse_append, List.takeWhile_append_dropWhile, List.reverse_reverse]

theorem trimStart_of_allBlank {s : List Char} (h : AllBlank s) : trimStart s = [] :=
  List.dropWhile_eq_nil_iff.mpr h

/-- Blanks at the end stay where they are, unless there is nothing else. -/
theorem trimStart_append_blank {blanks : List Char} (h : AllBlank blanks) (s : List Char) :
    trimStart (s ++ blanks) = if trimStart s = [] then [] else trimStart s ++ blanks := by
  induction s with
  | nil => exact trimStart_of_allBlank h
  | cons c rest ih =>
    by_cases hc : isBlank c = true
    · simpa [trimStart, List.dropWhile_cons, hc] using ih
    · simp [trimStart, hc]

theorem trim_append_blank {blanks : List Char} (h : AllBlank blanks) (s : List Char) :
    trim (s ++ blanks) = trim s := by
  rw [trim, trimStart_append_blank h, trim]
  split
  · rename_i empty
    rw [empty]
  · rw [trimEnd_append_blank h]

theorem trim_trimEnd (s : List Char) : trim (trimEnd s) = trim s := by
  obtain ⟨blanks, blank, split⟩ := exists_trimEnd_append s
  rw [← trim_append_blank blank (trimEnd s), split]

theorem head?_trimStart_append_blank {blanks : List Char} (h : AllBlank blanks) (s : List Char) :
    (trimStart (s ++ blanks)).head? = (trimStart s).head? := by
  rw [trimStart_append_blank h]
  cases trimStart s <;> simp

theorem isBlank_of_head?_trimStart {s : List Char} {c : Char} (h : (trimStart s).head? = some c) :
    isBlank c = false := by
  have head := List.head?_dropWhile_not isBlank s
  rw [← trimStart, h] at head
  exact head

theorem isBlank_of_getLast?_trimEnd {s : List Char} {c : Char}
    (h : (trimEnd s).getLast? = some c) : isBlank c = false := by
  rw [trimEnd, List.getLast?_reverse] at h
  exact isBlank_of_head?_trimStart h

theorem exists_trimStart_append (s : List Char) :
    ∃ blanks, AllBlank blanks ∧ s = blanks ++ trimStart s :=
  ⟨s.takeWhile isBlank, fun _ hc => List.mem_takeWhile_imp hc,
    (List.takeWhile_append_dropWhile).symm⟩

/-- A text is its trimmed form between blanks. -/
theorem exists_trim_append (s : List Char) :
    ∃ left right, AllBlank left ∧ AllBlank right ∧ s = left ++ (trim s ++ right) := by
  obtain ⟨left, blankLeft, splitLeft⟩ := exists_trimStart_append s
  obtain ⟨right, blankRight, splitRight⟩ := exists_trimEnd_append (trimStart s)
  refine ⟨left, right, blankLeft, blankRight, ?_⟩
  rw [trim, splitRight, ← splitLeft]

theorem getLast?_trim (s : List Char) : (trim s).getLast? = (trimEnd s).getLast? := by
  obtain ⟨left, right, blankLeft, blankRight, split⟩ := exists_trim_append s
  have ends : trimEnd s = trimEnd (left ++ trim s) := by
    calc trimEnd s = trimEnd (left ++ trim s ++ right) := by rw [List.append_assoc, ← split]
      _ = trimEnd (left ++ trim s) := trimEnd_append_blank blankRight _
  rw [ends]
  rcases List.eq_nil_or_concat (trim s) with empty | ⟨front, c, last⟩
  · rw [empty, List.append_nil, trimEnd_of_allBlank blankLeft]
  · rw [List.concat_eq_append] at last
    have visible : isBlank c = false :=
      isBlank_of_getLast?_trimEnd (s := trimStart s) (by rw [← trim, last, List.getLast?_concat])
    rw [last, ← List.append_assoc, trimEnd_concat visible, List.getLast?_concat,
      List.getLast?_concat]

/-- A text whose trimmed form begins with some character begins so itself, after blanks. -/
theorem exists_blanks_of_head?_trim {s : List Char} {c : Char} (h : (trim s).head? = some c) :
    ∃ blanks rest, AllBlank blanks ∧ s = blanks ++ c :: rest := by
  obtain ⟨tail, hs⟩ := List.head?_eq_some_iff.mp h
  obtain ⟨blanks, _, split⟩ := exists_trimEnd_append (trimStart s)
  change trimEnd (trimStart s) = c :: tail at hs
  rw [hs, List.cons_append] at split
  refine ⟨s.takeWhile isBlank, tail ++ blanks, fun d hd => List.mem_takeWhile_imp hd, ?_⟩
  rw [split, trimStart, List.takeWhile_append_dropWhile]

theorem toNat_of_isBlank {c : Char} (h : isBlank c = true) : c.toNat ≤ 32 ∨ 133 ≤ c.toNat := by
  obtain ⟨r, hr, low, high⟩ := (CharRanges.contains_iff blankRanges c).mp h
  have gap : ∀ r ∈ blankRanges, r.2 ≤ 32 ∨ 133 ≤ r.1 := by decide
  have := gap r hr
  omega

theorem toNat_of_isWordChar {c : Char} (h : isWordChar c = true) :
    48 ≤ c.toNat ∧ c.toNat ≤ 122 := by
  change (((decide (65 ≤ c.toNat ∧ c.toNat ≤ 90) ||
    decide (97 ≤ c.toNat) && decide (c.toNat ≤ 122)) || c == '_') ||
    decide (48 ≤ c.toNat) && decide (c.toNat ≤ 57)) = true at h
  simp only [Bool.or_eq_true, Bool.and_eq_true, decide_eq_true_eq, beq_iff_eq] at h
  rcases h with ((upper | lower) | rfl) | digit
  · omega
  · omega
  · decide
  · omega

theorem isWordChar_of_isBlank {c : Char} (h : isBlank c = true) : isWordChar c = false := by
  apply Bool.eq_false_iff.mpr
  intro word
  have := toNat_of_isBlank h
  have := toNat_of_isWordChar word
  omega

theorem isBlank_of_isWordChar {c : Char} (h : isWordChar c = true) : isBlank c = false := by
  refine Bool.eq_false_iff.mpr fun blank => ?_
  rw [isWordChar_of_isBlank blank] at h
  cases h

end LexLint
