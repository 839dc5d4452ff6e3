import LexLint.Text.Integer
import Mathlib.Data.List.TakeWhile
import Mathlib.Tactic.Ring

/-!
# Whole numbers in settings

The texts that stand for whole numbers, by the parts they are made of, and that these are the texts
which are read (`integer?_eq_some_iff`). A number that is read can be written out again
(`hasShortText_of_integer?`).
-/

namespace LexLint

/-- Digits in which single underscores stand between digits only, with their values. -/
inductive Numeral : List Char → List Nat → Prop
  | last {c : Char} {d : Nat} (digit : digitValue? c = some d) : Numeral [c] [d]
  | next {c : Char} {d : Nat} {s : List Char} {ds : List Nat} (digit : digitValue? c = some d)
    (rest : Numeral s ds) : Numeral (c :: s) (d :: ds)
  | mark {c : Char} {d : Nat} {s : List Char} {ds : List Nat} (digit : digitValue? c = some d)
    (rest : Numeral s ds) : Numeral (c :: '_' :: s) (d :: ds)

/-- A text that stands for a whole number: a numeral that is not too long, a sign before it or
none, and blanks around. -/
def IntegerText (s : List Char) (n : Int) : Prop :=
  ∃ before sign numeral after digits, s = before ++ (sign ++ numeral) ++ after ∧
    (∀ c ∈ before, isNumberBlank c = true) ∧ (∀ c ∈ after, isNumberBlank c = true) ∧
    Numeral numeral digits ∧ digits.length ≤ maxIntegerDigits ∧
    ((sign = [] ∨ sign = ['+']) ∧ n = ofDigitValues digits ∨
      sign = ['-'] ∧ n = -(ofDigitValues digits : Int))

/-! ### Numerals -/

theorem digitValue?_underscore : digitValue? '_' = none := by decide

theorem isNumberBlank_of_digit {c : Char} {d : Nat} (digit : digitValue? c = some d) :
    isNumberBlank c = false := by
  obtain ⟨origin, row, -⟩ := Option.map_eq_some_iff.1 digit
  have place := List.find?_some row
  simp only [Bool.and_eq_true, decide_eq_true_eq] at place
  have apart : ∀ z ∈ digitZeros, ∀ r ∈ blankRanges, r.2 < z ∨ z + 10 ≤ r.1 := by decide
  have noBlank : isBlank c = false := by
    apply Bool.eq_false_iff.2
    intro blank
    obtain ⟨r, hr, low, high⟩ := (CharRanges.contains_iff blankRanges c).1 blank
    have := apart origin (List.mem_of_find?_eq_some row) r hr
    omega
  rw [isNumberBlank, noBlank, Bool.false_and]

theorem groupedDigits?_digit {c : Char} {d : Nat} (digit : digitValue? c = some d)
    (afterDigit : Bool) (s : List Char) :
    groupedDigits? afterDigit (c :: s) = (groupedDigits? true s).map (d :: ·) := by
  have noMark : c ≠ '_' := by
    rintro rfl
    rw [digitValue?_underscore] at digit
    cases digit
  rw [groupedDigits?, if_neg noMark, digit]

theorem Numeral.groupedDigits?_eq {s : List Char} {ds : List Nat} (h : Numeral s ds)
    (afterDigit : Bool) : groupedDigits? afterDigit s = some ds := by
  induction h generalizing afterDigit with
  | last digit =>
    rw [groupedDigits?_digit digit]
    rfl
  | next digit _ ih => rw [groupedDigits?_digit digit, ih, Option.map_some]
  | mark digit _ ih =>
    rw [groupedDigits?_digit digit, groupedDigits?, if_pos rfl, if_pos rfl, ih, Option.map_some]

/-- What is read is a numeral, and what is read after a digit makes one together with it. -/
theorem numeral_of_groupedDigits? (s : List Char) (ds : List Nat) :
    (groupedDigits? false s = some ds → Numeral s ds) ∧
    (groupedDigits? true s = some ds →
      ∀ c d, digitValue? c = some d → Numeral (c :: s) (d :: ds)) := by
  induction s generalizing ds with
  | nil =>
    constructor
    · intro none
      cases none
    · intro done c d digit
      cases done
      exact .last digit
  | cons x s ih =>
    by_cases mark : x = '_'
    · subst mark
      constructor
      · intro none
        cases none
      · intro read c d digit
        exact .mark digit ((ih ds).1 read)
    · have numeral (afterDigit : Bool) (read : groupedDigits? afterDigit (x :: s) = some ds) :
          Numeral (x :: s) ds := by
        rw [groupedDigits?, if_neg mark] at read
        split at read
        · rename_i d digit
          obtain ⟨ds', read', rfl⟩ := Option.map_eq_some_iff.1 read
          exact (ih ds').2 read' x d digit
        · cases read
      exact ⟨numeral false, fun read c d digit => .next digit (numeral true read)⟩

theorem natural?_eq_some_iff {s : List Char} {n : Nat} :
    natural? s = some n ↔
      ∃ digits, Numeral s digits ∧ digits.length ≤ maxIntegerDigits ∧ n = ofDigitValues digits := by
  unfold natural?
  constructor
  · intro read
    obtain ⟨digits, grouped, short⟩ := Option.bind_eq_some_iff.1 read
    split at short
    · rename_i le
      cases short
      exact ⟨digits, (numeral_of_groupedDigits? s digits).1 grouped, le, rfl⟩
    · cases short
  · rintro ⟨digits, numeral, short, rfl⟩
    rw [numeral.groupedDigits?_eq, Option.bind_some, if_pos short]

/-! ### Blanks and signs -/

theorem Numeral.exists_cons_digit {s : List Char} {ds : List Nat} (h : Numeral s ds) :
    ∃ c d tail, s = c :: tail ∧ digitValue? c = some d := by
  cases h with
  | last digit => exact ⟨_, _, _, rfl, digit⟩
  | next digit _ => exact ⟨_, _, _, rfl, digit⟩
  | mark digit _ => exact ⟨_, _, _, rfl, digit⟩

theorem Numeral.exists_append_digit {s : List Char} {ds : List Nat} (h : Numeral s ds) :
    ∃ init c d, s = init ++ [c] ∧ digitValue? c = some d := by
  induction h with
  | last digit => exact ⟨[], _, _, rfl, digit⟩
  | next _ _ ih =>
    obtain ⟨init, c, d, rfl, digit⟩ := ih
    exact ⟨_ :: init, c, d, rfl, digit⟩
  | mark _ _ ih =>
    obtain ⟨init, c, d, rfl, digit⟩ := ih
    exact ⟨_ :: '_' :: init, c, d, rfl, digit⟩

/-- A text without the blanks around it. -/
def numberBody (s : List Char) : List Char :=
  ((s.dropWhile isNumberBlank).reverse.dropWhile isNumberBlank).reverse

theorem exists_numberBody_append (s : List Char) :
    ∃ before after, s = before ++ numberBody s ++ after ∧
      (∀ c ∈ before, isNumberBlank c = true) ∧ (∀ c ∈ after, isNumberBlank c = true) := by
  refine ⟨s.takeWhile isNumberBlank,
    ((s.dropWhile isNumberBlank).reverse.takeWhile isNumberBlank).reverse, ?_, ?_, ?_⟩
  · rw [numberBody, List.append_assoc, ← List.reverse_append, List.takeWhile_append_dropWhile,
      List.reverse_reverse, List.takeWhile_append_dropWhile]
  · intro c hc
    exact List.mem_takeWhile_imp hc
  · intro c hc
    exact List.mem_takeWhile_imp (List.mem_reverse.1 hc)

/-- A sign and a numeral are no blanks at either end, so that all blanks go and no more. -/
theorem Numeral.numberBody_eq {before sign numeral after : List Char} {digits : List Nat}
    (h : Numeral numeral digits) (blankBefore : ∀ c ∈ before, isNumberBlank c = true)
    (blankAfter : ∀ c ∈ after, isNumberBlank c = true)
    (signed : ∀ c ∈ sign, isNumberBlank c = false) :
    numberBody (before ++ (sign ++ numeral) ++ after) = sign ++ numeral := by
  obtain ⟨init, last, _, ends, lastDigit⟩ := h.exists_append_digit
  have starts : (sign ++ numeral ++ after).dropWhile isNumberBlank = sign ++ numeral ++ after := by
    cases sign with
    | nil =>
      obtain ⟨c, _, tail, rfl, digit⟩ := h.exists_cons_digit
      exact List.dropWhile_cons_of_neg (by simp [isNumberBlank_of_digit digit])
    | cons c sign =>
      exact List.dropWhile_cons_of_neg (by simp [signed c List.mem_cons_self])
  have lastStays : ((sign ++ numeral).reverse).dropWhile isNumberBlank =
      (sign ++ numeral).reverse := by
    rw [ends, ← List.append_assoc, List.reverse_append]
    exact List.dropWhile_cons_of_neg (by simp [isNumberBlank_of_digit lastDigit])
  rw [numberBody, List.append_assoc, List.dropWhile_append_of_pos blankBefore, starts,
    List.reverse_append, List.dropWhile_append_of_pos, lastStays, List.reverse_reverse]
  intro c hc
  exact blankAfter c (List.mem_reverse.1 hc)

/-- How the sign in front of a number counts. -/
theorem integer?_eq (s : List Char) :
    integer? s =
      match numberBody s with
      | '+' :: rest => (natural? rest).map fun m : Nat => (m : Int)
      | '-' :: rest => (natural? rest).map fun m : Nat => -(m : Int)
      | body => (natural? body).map fun m : Nat => (m : Int) := by
  change (match numberBody s with
    | '+' :: rest => (natural? rest).map Int.ofNat
    | '-' :: rest => (natural? rest).map fun n => -(n : Int)
    | _ => (natural? (numberBody s)).map Int.ofNat) = _
  split
  · rfl
  · rename_i rest _
    cases natural? rest <;> rfl
  · rfl

theorem IntegerText.of_natural {s before numeral after : List Char} {m : Nat} {n : Int}
    (sign : List Char) (split : s = before ++ (sign ++ numeral) ++ after)
    (blankBefore : ∀ c ∈ before, isNumberBlank c = true)
    (blankAfter : ∀ c ∈ after, isNumberBlank c = true) (natural : natural? numeral = some m)
    (value : (sign = [] ∨ sign = ['+']) ∧ n = m ∨ sign = ['-'] ∧ n = -(m : Int)) :
    IntegerText s n := by
  obtain ⟨digits, made, short, rfl⟩ := natural?_eq_some_iff.1 natural
  exact ⟨before, sign, numeral, after, digits, split, blankBefore, blankAfter, made, short, value⟩

/-- The texts that are read as a whole number are those made of the parts of one. -/
theorem integer?_eq_some_iff {s : List Char} {n : Int} : integer? s = some n ↔ IntegerText s n := by
  rw [integer?_eq]
  constructor
  · intro read
    obtain ⟨before, after, parts, blankBefore, blankAfter⟩ := exists_numberBody_append s
    split at read
    · rename_i rest body
      obtain ⟨m, natural, rfl⟩ := Option.map_eq_some_iff.1 read
      rw [body] at parts
      exact .of_natural ['+'] parts blankBefore blankAfter natural (.inl ⟨.inr rfl, rfl⟩)
    · rename_i rest body
      obtain ⟨m, natural, rfl⟩ := Option.map_eq_some_iff.1 read
      rw [body] at parts
      exact .of_natural ['-'] parts blankBefore blankAfter natural (.inr ⟨rfl, rfl⟩)
    · obtain ⟨m, natural, rfl⟩ := Option.map_eq_some_iff.1 read
      exact .of_natural [] parts blankBefore blankAfter natural (.inl ⟨.inl rfl, rfl⟩)
  · rintro ⟨before, sign, numeral, after, digits, rfl, blankBefore, blankAfter, made, short, value⟩
    have natural : natural? numeral = some (ofDigitValues digits) :=
      natural?_eq_some_iff.2 ⟨digits, made, short, rfl⟩
    rcases value with ⟨rfl | rfl, rfl⟩ | ⟨rfl, rfl⟩
    · rw [made.numberBody_eq blankBefore blankAfter (by simp), List.nil_append]
      obtain ⟨c, d, tail, rfl, digit⟩ := made.exists_cons_digit
      have unsigned : c ≠ '+' ∧ c ≠ '-' := by
        constructor
        · rintro rfl
          cases digit
        · rintro rfl
          cases digit
      split
      · simp_all
      · simp_all
      · rw [natural, Option.map_some]
    · rw [made.numberBody_eq blankBefore blankAfter (List.forall_mem_singleton.2 (by decide))]
      simp [natural]
    · rw [made.numberBody_eq blankBefore blankAfter (List.forall_mem_singleton.2 (by decide))]
      simp [natural]

/-! ### The size of numbers -/

theorem Numeral.digit_lt {s : List Char} {ds : List Nat} (h : Numeral s ds) : ∀ d ∈ ds, d < 10 := by
  have value {c : Char} {d : Nat} (digit : digitValue? c = some d) : d < 10 := by
    obtain ⟨origin, row, rfl⟩ := Option.map_eq_some_iff.1 digit
    have place := List.find?_some row
    simp only [Bool.and_eq_true, decide_eq_true_eq] at place
    omega
  induction h with
  | last digit => exact List.forall_mem_singleton.2 (value digit)
  | next digit _ ih => exact List.forall_mem_cons.2 ⟨value digit, ih⟩
  | mark digit _ ih => exact List.forall_mem_cons.2 ⟨value digit, ih⟩

/-- Each further digit makes the bound ten times as large. -/
theorem foldl_digit_lt {digits : List Nat} (small : ∀ d ∈ digits, d < 10) (n : Nat) :
    digits.foldl (fun n d => 10 * n + d) n < (n + 1) * 10 ^ digits.length := by
  induction digits generalizing n with
  | nil => simp
  | cons d rest ih =>
    rw [List.forall_mem_cons] at small
    calc rest.foldl (fun n d => 10 * n + d) (10 * n + d)
      _ < (10 * n + d + 1) * 10 ^ rest.length := ih small.2 _
      _ ≤ ((n + 1) * 10) * 10 ^ rest.length := Nat.mul_le_mul_right _ (by omega)
      _ = (n + 1) * 10 ^ (d :: rest).length := by rw [List.length_cons, Nat.pow_succ']; ring

theorem Numeral.ofDigitValues_lt {s : List Char} {digits : List Nat} (h : Numeral s digits)
    {most : Nat} (short : digits.length ≤ most) : ofDigitValues digits < Nat.pow 10 most := by
  calc digits.foldl (fun n d => 10 * n + d) 0
    _ < (0 + 1) * 10 ^ digits.length := foldl_digit_lt h.digit_lt 0
    _ = 10 ^ digits.length := by rw [Nat.zero_add, Nat.one_mul]
    _ ≤ 10 ^ most := Nat.pow_le_pow_right (by decide) short

theorem hasShortText_of_integer? {s : List Char} {n : Int} (read : integer? s = some n) :
    HasShortText n := by
  obtain ⟨_, _, _, _, digits, -, -, -, made, short, value⟩ := integer?_eq_some_iff.1 read
  have size : n.natAbs = ofDigitValues digits := by
    rcases value with ⟨-, rfl⟩ | ⟨-, rfl⟩
    · exact Int.natAbs_natCast _
    · exact (Int.natAbs_neg _).trans (Int.natAbs_natCast _)
  rw [HasShortText, size]
  exact made.ofDigitValues_lt short

end LexLint
