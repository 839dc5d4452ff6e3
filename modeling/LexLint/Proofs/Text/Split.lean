import LexLint.Text.Split

/-!
# Cutting and joining

Cutting undoes joining where no piece holds the separator (`splitAtChar_joinWithChar`), and it can
be done part by part (`splitAtChar_append_cons`). Parts are told apart by a separator that those on
one side of it do not hold (`append_cons_inj_of_notMem_left`).
-/

namespace LexLint

theorem not_mem_of_mem_splitAtChar {sep : Char} {s piece : List Char}
    (h : piece ∈ splitAtChar sep s) : sep ∉ piece := by
  induction s generalizing piece with
  | nil => simp_all [splitAtChar]
  | cons c rest ih =>
    by_cases hc : c = sep
    · simp only [splitAtChar, hc, if_true, List.mem_cons] at h
      rcases h with rfl | later
      · exact List.not_mem_nil
      · exact ih later
    · cases hs : splitAtChar sep rest with
      | nil => exact absurd hs (splitAtChar_ne_nil sep rest)
      | cons first more =>
        simp only [splitAtChar, hc, if_false, hs, List.mem_cons] at h
        rcases h with rfl | later
        · simp only [List.mem_cons, not_or]
          exact ⟨Ne.symm hc, ih (by simp [hs])⟩
        · exact ih (by simp [hs, later])

theorem splitAtChar_cons_self (sep : Char) (s : List Char) :
    splitAtChar sep (sep :: s) = [] :: splitAtChar sep s := by
  simp [splitAtChar]

theorem splitAtChar_cons_of_ne {sep c : Char} (h : c ≠ sep) {s first : List Char}
    {more : List (List Char)} (hs : splitAtChar sep s = first :: more) :
    splitAtChar sep (c :: s) = (c :: first) :: more := by
  simp [splitAtChar, h, hs]

/-- There is one more piece than separators. -/
theorem length_splitAtChar (sep : Char) (s : List Char) :
    (splitAtChar sep s).length = s.count sep + 1 := by
  induction s with
  | nil => rfl
  | cons c rest ih =>
    by_cases same : c = sep
    · rw [same, splitAtChar_cons_self, List.length_cons, ih, List.count_cons_self]
    · obtain ⟨first, more, pieces⟩ := List.exists_cons_of_ne_nil (splitAtChar_ne_nil sep rest)
      rw [splitAtChar_cons_of_ne same pieces, List.count_cons_of_ne same, ← ih, pieces]
      rfl

/-- A separator parts the pieces before it from those behind it. -/
theorem splitAtChar_append_cons (sep : Char) (s rest : List Char) :
    splitAtChar sep (s ++ sep :: rest) = splitAtChar sep s ++ splitAtChar sep rest := by
  induction s with
  | nil => exact splitAtChar_cons_self sep rest
  | cons c s ih =>
    by_cases here : c = sep
    · rw [here, List.cons_append, splitAtChar_cons_self, splitAtChar_cons_self, ih]
      rfl
    · obtain ⟨first, more, pieces⟩ := List.exists_cons_of_ne_nil (splitAtChar_ne_nil sep s)
      rw [pieces] at ih
      rw [splitAtChar_cons_of_ne here pieces]
      exact splitAtChar_cons_of_ne here ih

/-- What has no separator goes to the first piece. -/
theorem splitAtChar_append_of_notMem {sep : Char} {s rest first : List Char}
    {more : List (List Char)} (h : sep ∉ s) (cut : splitAtChar sep rest = first :: more) :
    splitAtChar sep (s ++ rest) = (s ++ first) :: more := by
  induction s with
  | nil => exact cut
  | cons c s ih =>
    rw [List.mem_cons, not_or] at h
    exact splitAtChar_cons_of_ne (Ne.symm h.1) (ih h.2)

theorem splitAtChar_of_notMem {sep : Char} {piece : List Char} (h : sep ∉ piece) :
    splitAtChar sep piece = [piece] := by
  have cut := splitAtChar_append_of_notMem h (show splitAtChar sep [] = [[]] from rfl)
  rwa [List.append_nil] at cut

/-- Pieces without the separator come out as they were joined. -/
theorem splitAtChar_joinWithChar {sep : Char} {pieces : List (List Char)} (some_piece : pieces ≠ [])
    (clean : ∀ piece ∈ pieces, sep ∉ piece) :
    splitAtChar sep (joinWithChar sep pieces) = pieces := by
  fun_induction joinWithChar sep pieces with
  | case1 => exact absurd rfl some_piece
  | case2 piece => exact splitAtChar_of_notMem (clean piece List.mem_cons_self)
  | case3 piece next more ih =>
    rw [List.forall_mem_cons] at clean
    rw [splitAtChar_append_cons, splitAtChar_of_notMem clean.1, ih (List.cons_ne_nil _ _) clean.2]
    rfl

/-- Texts are told apart by the first occurrence of a separator. -/
theorem append_cons_inj_of_notMem_left {sep : Char} {a b s t : List Char} (inA : sep ∉ a)
    (inB : sep ∉ b) (h : a ++ sep :: s = b ++ sep :: t) : a = b ∧ s = t := by
  have pieces := congrArg (splitAtChar sep) h
  rw [splitAtChar_append_cons, splitAtChar_append_cons, splitAtChar_of_notMem inA,
    splitAtChar_of_notMem inB] at pieces
  obtain rfl : a = b := (List.cons.inj pieces).1
  exact ⟨rfl, (List.cons.inj (List.append_cancel_left h)).2⟩

/-- Texts are told apart by the last occurrence of a separator. -/
theorem append_cons_inj_of_notMem_right {sep : Char} {a b s t : List Char} (inS : sep ∉ s)
    (inT : sep ∉ t) (h : a ++ sep :: s = b ++ sep :: t) : a = b ∧ s = t := by
  have reversed := congrArg List.reverse h
  simp only [List.reverse_append, List.reverse_cons, List.append_assoc, List.singleton_append]
    at reversed
  obtain ⟨same, rest⟩ := append_cons_inj_of_notMem_left (mt List.mem_reverse.mp inS)
    (mt List.mem_reverse.mp inT) reversed
  exact ⟨List.reverse_inj.mp rest, List.reverse_inj.mp same⟩

/-- Every piece but the first follows a separator. -/
theorem joinWithChar_cons (sep : Char) (piece : List Char) (pieces : List (List Char)) :
    joinWithChar sep (piece :: pieces) = piece ++ pieces.flatMap (sep :: ·) := by
  induction pieces generalizing piece with
  | nil => exact (List.append_nil piece).symm
  | cons next rest ih =>
    rw [joinWithChar, ih, List.flatMap_cons]
    rfl

theorem toList_joinStrings_newline (parts : List String) :
    (joinStrings "\n" parts).toList = joinWithChar '\n' (parts.map String.toList) := by
  rw [joinStrings, String.toList_intercalate]
  generalize parts.map String.toList = pieces
  fun_induction joinWithChar '\n' pieces with
  | case1 => rfl
  | case2 piece => exact List.intercalate_singleton
  | case3 piece next more ih => rw [List.intercalate_cons_cons, ih, List.append_assoc]; rfl

/-- Lines that are joined behind others each follow a newline. -/
theorem toList_joinStrings_newline_append {lines : List String} (h : lines ≠ [])
    (more : List String) :
    (joinStrings "\n" (lines ++ more)).toList =
      (joinStrings "\n" lines).toList ++ more.flatMap fun line => '\n' :: line.toList := by
  have behind (first : String) (rest : List String) : (joinStrings "\n" (first :: rest)).toList =
      first.toList ++ rest.flatMap fun line => '\n' :: line.toList := by
    rw [toList_joinStrings_newline, List.map_cons, joinWithChar_cons, List.flatMap_map]
  obtain ⟨first, rest, rfl⟩ := List.exists_cons_of_ne_nil h
  rw [List.cons_append, behind, behind, List.flatMap_append, List.append_assoc]

/-- Joined lines and a newline are the lines, each with a newline at its end. -/
theorem joinStrings_newline_append_newline {lines : List String} (h : lines ≠ []) :
    joinStrings "\n" lines ++ "\n" = String.join (lines.map (· ++ "\n")) := by
  induction lines with
  | nil => exact absurd rfl h
  | cons line rest ih =>
    rw [List.map_cons, String.join_cons]
    cases rest with
    | nil => rw [joinStrings, String.intercalate_singleton, List.map_nil, String.join_nil,
        String.append_empty]
    | cons next more =>
      rw [← ih (List.cons_ne_nil next more), joinStrings, String.intercalate_cons_cons,
        String.append_assoc, String.append_assoc, String.append_assoc]
      rfl

/-- Lines that are not empty make a text that is not. -/
theorem joinStrings_newline_eq_empty_iff {lines : List String} (visible : "" ∉ lines) :
    joinStrings "\n" lines = "" ↔ lines = [] := by
  constructor
  · intro empty
    cases lines with
    | nil => rfl
    | cons line rest =>
      exfalso
      rw [List.mem_cons, not_or] at visible
      apply visible.1
      cases rest with
      | nil => rwa [joinStrings, String.intercalate_singleton, eq_comm] at empty
      | cons next more =>
        rw [joinStrings, String.intercalate_cons_cons, String.append_assoc,
          String.append_eq_empty_iff] at empty
        exact empty.1.symm
  · rintro rfl
    rfl

/-- Lines that end in a newline come out as they were, with nothing behind the last. -/
theorem splitAtChar_join_newline {lines : List String}
    (whole : ∀ line ∈ lines, '\n' ∉ line.toList) :
    splitAtChar '\n' (String.join (lines.map (· ++ "\n"))).toList =
      lines.map String.toList ++ [[]] := by
  induction lines with
  | nil => rfl
  | cons line rest ih =>
    rw [List.forall_mem_cons] at whole
    have chars : (String.join ((line :: rest).map (· ++ "\n"))).toList =
        line.toList ++ '\n' :: (String.join (rest.map (· ++ "\n"))).toList := by
      rw [List.map_cons, String.join_cons, String.toList_append, String.toList_append,
        List.append_assoc]
      rfl
    rw [chars, splitAtChar_append_cons, splitAtChar_of_notMem whole.1, ih whole.2]
    rfl

end LexLint
