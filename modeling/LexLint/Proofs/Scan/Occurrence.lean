import LexLint.Proofs.Scan.Words
import LexLint.Scan.Declaration

/-!
# Headers of declarations where they stand

What a search finds stands where it says (`occurs_of_mem_findAll`), and what the patterns of
declarations recognise is written out in full: keyword, name, and for a function the parameter
list (`letHeader_eq_some`, `funcHeader_eq_some`, `classHeader_eq_some`). Declarations of variables
do not overlap, so that a search misses none of them (`exists_mem_findAll`, `apart_letHeader`).
-/

namespace LexLint

/-- The pattern is recognised at the place of an occurrence, and takes what it covers. -/
def Match.Occurs {α : Type} (recognise : Recogniser α) (text : List Char) (m : Match α) : Prop :=
  ∃ pre rest after, text = pre ++ rest ∧ recognise rest = some (m.value, after) ∧
    m.start = pre.length ∧ m.stop = pre.length + (rest.length - after.length)

theorem occurs_of_mem_findAllFrom {α : Type} {edge : Bool} {recognise : Recogniser α}
    {offset : Nat} {before : Option Char} {skip : Nat} (pre : List Char) {rest : List Char}
    {m : Match α} (h : m ∈ findAllFrom edge recognise offset before skip rest)
    (place : offset = pre.length) :
    m.Occurs recognise (pre ++ rest) := by
  induction rest generalizing offset before skip pre with
  | nil => cases h
  | cons c rest ih =>
    have next {b : Option Char} {n : Nat}
        (later : m ∈ findAllFrom edge recognise (offset + 1) b n rest) :
        m.Occurs recognise (pre ++ c :: rest) := by
      have found := ih (pre ++ [c]) later (by simp [place])
      simpa using found
    cases skip with
    | succ skip => exact next h
    | zero =>
      simp only [findAllFrom] at h
      split at h
      · exact next h
      · split at h
        · exact next h
        · rename_i value after recognised
          rcases List.mem_cons.mp h with rfl | later
          · exact ⟨pre, c :: rest, after, rfl, recognised, place, by rw [place]; rfl⟩
          · exact next later

/-- What a search finds stands where it says. -/
theorem occurs_of_mem_findAll {α : Type} {edge : Bool} {recognise : Recogniser α}
    {text : List Char} {m : Match α} (h : m ∈ findAll edge recognise text) :
    m.Occurs recognise text :=
  occurs_of_mem_findAllFrom [] h rfl

/-- A pattern that is not recognised again inside what it takes. -/
def Apart {α : Type} (recognise : Recogniser α) : Prop :=
  ∀ {s after : List Char} {value : α}, recognise s = some (value, after) →
    ∀ k, 0 < k → k < s.length - after.length → recognise (s.drop k) = none

theorem exists_mem_findAllFrom {α : Type} {recognise : Recogniser α} (apart : Apart recognise)
    (offset : Nat) (before : Option Char) (skip : Nat) {pre rest after : List Char} {value : α}
    (free : ∀ k < skip, recognise ((pre ++ rest).drop k) = none)
    (recognised : recognise rest = some (value, after)) (nonempty : rest ≠ []) :
    ∃ m ∈ findAllFrom false recognise offset before skip (pre ++ rest), m.value = value := by
  -- On the text before the occurrence: the characters passed over begin no other one.
  induction pre generalizing offset before skip with
  | nil =>
    obtain ⟨c, tail, rfl⟩ := List.exists_cons_of_ne_nil nonempty
    cases skip with
    | succ skip =>
      have none := free 0 (Nat.succ_pos skip)
      rw [List.nil_append, List.drop_zero, recognised] at none
      cases none
    | zero =>
      simp only [List.nil_append, findAllFrom, recognised]
      exact ⟨_, List.mem_cons_self, rfl⟩
  | cons c pre ih =>
    cases skip with
    | succ skip => exact ih _ _ _ fun k hk => free (k + 1) (Nat.succ_lt_succ hk)
    | zero =>
      simp only [List.cons_append, findAllFrom, Bool.false_and, Bool.false_eq_true, if_false]
      cases here : recognise (c :: (pre ++ rest)) with
      | none => exact ih _ _ _ fun k hk => absurd hk (Nat.not_lt_zero k)
      | some found =>
        obtain ⟨m, member, same⟩ := ih (offset + 1) (some c)
          ((pre ++ rest).length + 1 - found.2.length - 1) fun k hk =>
            apart here (k + 1) (Nat.succ_pos k) (by rw [List.length_cons]; omega)
        exact ⟨m, List.mem_cons_of_mem _ member, same⟩

/-- A search misses no occurrence, if occurrences do not overlap. -/
theorem exists_mem_findAll {α : Type} {recognise : Recogniser α} (apart : Apart recognise)
    (pre : List Char) {rest after : List Char} {value : α}
    (recognised : recognise rest = some (value, after)) (nonempty : rest ≠ []) :
    ∃ m ∈ findAll false recognise (pre ++ rest), m.value = value :=
  exists_mem_findAllFrom apart 0 none 0 (fun k hk => absurd hk (Nat.not_lt_zero k)) recognised
    nonempty

/-- A text after blanks, if it does not begin with one itself. -/
theorem trimStart_blank_append {blanks : List Char} (h : AllBlank blanks) {s : List Char}
    (first : s.head?.any isBlank = false) : trimStart (blanks ++ s) = s := by
  rw [trimStart, List.dropWhile_append_of_pos h]
  cases s with
  | nil => rfl
  | cons c rest => exact List.dropWhile_cons_of_neg (by simpa using first)

theorem afterBlanks?_eq_some {s rest : List Char} (h : afterBlanks? s = some rest) :
    ∃ blanks, AllBlank blanks ∧ s = blanks ++ rest := by
  cases s with
  | nil => cases h
  | cons c tail =>
    simp only [afterBlanks?, Option.ite_none_right_eq_some, Option.some.injEq] at h
    obtain ⟨blank, rfl⟩ := h
    obtain ⟨blanks, all, split⟩ := exists_trimStart_append tail
    exact ⟨c :: blanks, List.forall_mem_cons.mpr ⟨blank, all⟩, by rw [List.cons_append, ← split]⟩

theorem identifier?_append {word rest : List Char} (identifier : isIdentifier word = true)
    (ends : rest.head?.any isWordChar = false) :
    identifier? (word ++ rest) = some (word, rest) := by
  cases word with
  | nil => cases identifier
  | cons c tail =>
    simp only [isIdentifier, Bool.and_eq_true, List.all_eq_true] at identifier
    have stops : rest.takeWhile isWordChar = [] ∧ rest.dropWhile isWordChar = rest := by
      cases rest with
      | nil => exact ⟨rfl, rfl⟩
      | cons d more =>
        have other : isWordChar d = false := by simpa using ends
        simp [other]
    simp [identifier?, identifier.1, List.takeWhile_append_of_pos identifier.2,
      List.dropWhile_append_of_pos identifier.2, stops]

/-- The declaration of a variable as it is written: keyword, name and assignment, with blanks
between them. -/
def LetText (name : String) (covered : List Char) : Prop :=
  ∃ blanks gap assign, AllBlank blanks ∧ AllBlank gap ∧ isIdentifier name.toList = true ∧
    (assign = ['='] ∨ assign = [':', '=']) ∧
    covered = "let$".toList ++ (blanks ++ (name.toList ++ (gap ++ assign)))

/-- What the pattern of variables recognises, and nothing else. -/
theorem letHeader_eq_some {s after : List Char} {name : String} :
    letHeader s = some (name, after) ↔ ∃ covered, LetText name covered ∧ s = covered ++ after := by
  constructor
  · intro h
    simp only [letHeader, Option.bind_eq_bind, Option.bind_eq_some_iff] at h
    obtain ⟨afterLet, literal, ⟨word, afterName⟩, identified, h⟩ := h
    obtain rfl := afterLiteral?_eq_some.mp literal
    obtain ⟨blanks, allBlank, first⟩ := exists_trimStart_append afterLet
    obtain ⟨split, identifier⟩ := identifier?_eq_some identified
    obtain ⟨gap, allGap, second⟩ := exists_trimStart_append afterName
    rw [split, second] at first
    split at h
    · rename_i rest assigned
      obtain ⟨rfl, rfl⟩ := Prod.mk.inj (Option.some.inj h)
      refine ⟨_, ⟨blanks, gap, ['='], allBlank, allGap, by simpa using identifier, .inl rfl,
        rfl⟩, ?_⟩
      rw [first, show trimStart afterName = '=' :: rest from assigned]
      simp
    · rename_i rest assigned
      obtain ⟨rfl, rfl⟩ := Prod.mk.inj (Option.some.inj h)
      refine ⟨_, ⟨blanks, gap, [':', '='], allBlank, allGap, by simpa using identifier, .inr rfl,
        rfl⟩, ?_⟩
      rw [first, show trimStart afterName = ':' :: '=' :: rest from assigned]
      simp
    · cases h
  · rintro ⟨_, ⟨blanks, gap, assign, allBlank, allGap, identifier, assigns, rfl⟩, rfl⟩
    have nameFirst : (name.toList ++ (gap ++ (assign ++ after))).head?.any isBlank = false := by
      obtain ⟨c, rest, split⟩ := List.exists_cons_of_ne_nil (isIdentifier_ne_nil identifier)
      have word := isWordChar_of_isIdentifier identifier (split ▸ List.mem_cons_self)
      simp [split, isBlank_of_isWordChar word]
    have nameEnds : (gap ++ (assign ++ after)).head?.any isWordChar = false := by
      cases gap with
      | nil => rcases assigns with rfl | rfl <;> rfl
      | cons b bs => simp [isWordChar_of_isBlank (allGap b List.mem_cons_self)]
    have assignFirst : (assign ++ after).head?.any isBlank = false := by
      rcases assigns with rfl | rfl <;> rfl
    have literal := afterLiteral?_eq_some.mpr (rfl : "let$".toList ++
      (blanks ++ (name.toList ++ (gap ++ (assign ++ after)))) = _)
    simp only [letHeader, List.append_assoc]
    rw [show ['l', 'e', 't', '$'] = "let$".toList from rfl, literal]
    simp only [Option.bind_eq_bind, Option.bind_some, trimStart_blank_append allBlank nameFirst,
      identifier?_append identifier nameEnds, trimStart_blank_append allGap assignFirst,
      String.ofList_toList]
    rcases assigns with rfl | rfl <;> rfl

theorem letHeader_append {s after : List Char} {name : String}
    (h : letHeader s = some (name, after)) (more : List Char) :
    letHeader (s ++ more) = some (name, after ++ more) := by
  obtain ⟨covered, written, rfl⟩ := letHeader_eq_some.mp h
  exact letHeader_eq_some.mpr ⟨covered, written, List.append_assoc ..⟩

/-- The keyword's marker stands nowhere else in a declaration, which ends in the assignment. -/
theorem LetText.exists_split {name : String} {covered : List Char} (h : LetText name covered) :
    ∃ tail, covered = "let$".toList ++ tail ∧ '$' ∉ tail ∧ covered.getLast? = some '=' := by
  obtain ⟨blanks, gap, assign, allBlank, allGap, identifier, assigns, rfl⟩ := h
  have notBlank {s : List Char} (all : AllBlank s) : '$' ∉ s := fun marker =>
    absurd (all '$' marker) (by decide)
  refine ⟨_, rfl, ?_, ?_⟩
  · simp only [List.mem_append, not_or]
    refine ⟨notBlank allBlank, not_mem_of_isIdentifier identifier (by decide), notBlank allGap, ?_⟩
    rcases assigns with rfl | rfl <;> decide
  · simp only [List.getLast?_append]
    rcases assigns with rfl | rfl <;> rfl

/-- Declarations of variables do not overlap. -/
theorem apart_letHeader : Apart letHeader := by
  intro s after name h k pos inside
  obtain ⟨covered, written, rfl⟩ := letHeader_eq_some.mp h
  obtain ⟨tail, split, marker, last⟩ := written.exists_split
  rw [List.length_append, Nat.add_sub_cancel] at inside
  refine Option.eq_none_iff_forall_ne_some.mpr fun ⟨name', after'⟩ again => ?_
  obtain ⟨covered', written', dropped⟩ := letHeader_eq_some.mp again
  obtain ⟨tail', split', -⟩ := written'.exists_split
  rw [split', List.append_assoc] at dropped
  have at_ (i : Nat) (hi : i < 4) : (covered ++ after)[k + i]? = "let$".toList[i]? := by
    rw [← List.getElem?_drop, dropped, List.getElem?_append_left hi]
  by_cases whole : k + 3 < covered.length
  · -- Its marker would be a second one.
    have second := at_ 3 (by decide)
    rw [List.getElem?_append_left whole, split,
      List.getElem?_append_right (by simp; omega)] at second
    exact marker (List.mem_of_getElem? second)
  · -- Its keyword would begin with the assignment.
    have final : (covered ++ after)[covered.length - 1]? = some '=' := by
      rw [List.getElem?_append_left (by omega), ← List.getLast?_eq_getElem?, last]
    have place : covered.length - 1 = k ∨ covered.length - 1 = k + 1 ∨
        covered.length - 1 = k + 2 := by
      omega
    rcases place with zero | one | two
    · rw [zero, ← Nat.add_zero k, at_ 0 (by decide)] at final
      revert final
      decide
    · rw [one, at_ 1 (by decide)] at final
      revert final
      decide
    · rw [two, at_ 2 (by decide)] at final
      revert final
      decide

/-- What the pattern of functions recognises: keyword, name and parameter list. -/
theorem funcHeader_eq_some {s after : List Char} {header : FuncHeader}
    (h : funcHeader s = some (header, after)) :
    ∃ blanks gap, isIdentifier header.name.toList = true ∧
      s = "func$".toList ++ (blanks ++ (header.name.toList ++
        (gap ++ '(' :: (header.params ++ ')' :: after)))) := by
  simp only [funcHeader, Option.bind_eq_bind, Option.bind_eq_some_iff] at h
  obtain ⟨afterFunc, literal, afterGap, blanked, ⟨name, afterName⟩, identified, h⟩ := h
  obtain rfl := afterLiteral?_eq_some.mp literal
  obtain ⟨blanks, -, rfl⟩ := afterBlanks?_eq_some blanked
  obtain ⟨rfl, identifier⟩ := identifier?_eq_some identified
  obtain ⟨gap, -, split⟩ := exists_trimStart_append afterName
  split at h
  · rename_i list opened
    split at h
    · rename_i rest closed
      obtain ⟨rfl, rfl⟩ := Prod.mk.inj (Option.some.inj h)
      have params : list.takeWhile (· != ')') ++ ')' :: rest = list := by
        rw [← closed, List.takeWhile_append_dropWhile]
      have whole : gap ++ '(' :: list = afterName := by
        rw [← show trimStart afterName = '(' :: list from opened, ← split]
      exact ⟨blanks, gap, by simpa using identifier, by simp [params, whole]⟩
    · cases h
  · cases h

/-- What the pattern of classes recognises: keyword and name. -/
theorem classHeader_eq_some {s after : List Char} {name : String}
    (h : classHeader s = some (name, after)) :
    ∃ blanks, isIdentifier name.toList = true ∧
      s = "class$".toList ++ (blanks ++ (name.toList ++ after)) := by
  simp only [classHeader, Option.bind_eq_bind, Option.bind_eq_some_iff] at h
  obtain ⟨afterClass, literal, afterGap, blanked, ⟨word, rest⟩, identified, h⟩ := h
  obtain rfl := afterLiteral?_eq_some.mp literal
  obtain ⟨blanks, -, rfl⟩ := afterBlanks?_eq_some blanked
  obtain ⟨rfl, identifier⟩ := identifier?_eq_some identified
  obtain ⟨rfl, rfl⟩ := Prod.mk.inj (Option.some.inj h)
  exact ⟨blanks, by simpa using identifier, by simp⟩

end LexLint
