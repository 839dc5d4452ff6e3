import LexLint.Proofs.View.Offsets
import LexLint.Proofs.View.UnclosedString
import LexLint.Scan.Angle

/-!
# Angle brackets in pairs

Which runs in angle brackets there are can be told from the brackets alone (`AnglePair`): an opening
and a closing one on one line, near enough, with no other between. The scan finds all of them
(`mem_scanAngles_iff`), in text order (`scanAngles_separated`). It tries each opening bracket, which
is the same as jumping behind the run found last (`scanAnglesFrom_run`), since no run begins inside
another.
-/

namespace LexLint

/-- A character that may stand inside angle brackets: no angle bracket and no newline. -/
def PlainInner (c : Char) : Prop := c ≠ '<' ∧ c ≠ '>' ∧ c ≠ '\n'

/-- The first character before a closing bracket is the bracket itself, or stands inside. -/
theorem first_cases {c : Char} {tail inner back : List Char} (plain : ∀ d ∈ inner, PlainInner d)
    (split : c :: tail = inner ++ '>' :: back) :
    c = '>' ∧ inner = [] ∨
      PlainInner c ∧ ∃ rest, inner = c :: rest ∧ tail = rest ++ '>' :: back := by
  cases inner with
  | nil => exact .inl ⟨(List.cons.inj split).1, rfl⟩
  | cons d rest =>
    obtain ⟨rfl, tails⟩ := List.cons.inj split
    exact .inr ⟨plain c List.mem_cons_self, rest, rfl, tails⟩

/-- What stands before the closing bracket is found if it is short enough and holds nothing that
ends the search. -/
theorem angleInner?_eq_some_iff {limit : Nat} {s inner : List Char} :
    angleInner? limit s = some inner ↔
      inner.length < limit ∧ (∀ c ∈ inner, PlainInner c) ∧ ∃ back, s = inner ++ '>' :: back := by
  induction limit generalizing s inner with
  | zero => simp [angleInner?]
  | succ limit ih =>
    cases s with
    | nil => simp [angleInner?]
    | cons c tail =>
      rw [angleInner?]
      constructor
      · intro found
        by_cases closing : c = '>'
        · rw [if_pos closing] at found
          obtain rfl := Option.some.inj found
          exact ⟨Nat.succ_pos limit, by simp, tail, by rw [closing]; rfl⟩
        by_cases stops : c = '<' ∨ c = '\n'
        · rw [if_neg closing, if_pos stops] at found
          cases found
        · rw [if_neg closing, if_neg stops] at found
          obtain ⟨opening, newline⟩ := not_or.mp stops
          obtain ⟨rest, within, rfl⟩ := Option.map_eq_some_iff.mp found
          obtain ⟨short, plain, back, rfl⟩ := ih.mp within
          exact ⟨Nat.succ_lt_succ short,
            List.forall_mem_cons.mpr ⟨⟨opening, closing, newline⟩, plain⟩, back, rfl⟩
      · rintro ⟨short, plain, back, split⟩
        rcases first_cases plain split with ⟨rfl, rfl⟩ | ⟨here, rest, rfl, tails⟩
        · rw [if_pos rfl]
        · obtain ⟨opening, closing, newline⟩ := here
          have within := Nat.lt_of_succ_lt_succ short
          have later := ih.mpr ⟨within, (List.forall_mem_cons.mp plain).2, back, tails⟩
          rw [if_neg closing, if_neg (not_or.mpr ⟨opening, newline⟩), later, Option.map_some]

/-- An angle bracket and the one that closes it, at most `limit` characters behind it. -/
structure AnglePair (limit : Nat) (text : List Char) (i j : Nat) : Prop where
  lt : i < j
  opens : text[i]? = some '<'
  closes : text[j]? = some '>'
  between : ∀ k c, i < k → k < j → text[k]? = some c → PlainInner c
  near : j - i ≤ limit

section
variable {limit : Nat} {text : List Char} {i j : Nat}

theorem AnglePair.length_slice (h : AnglePair limit text i j) :
    (slice text ⟨i + 1, j⟩).length = j - (i + 1) :=
  LexLint.length_slice (Nat.le_of_lt (List.getElem?_eq_some_iff.mp h.closes).1)

/-- What a pair holds is found behind its opening bracket. -/
theorem AnglePair.angleInner?_eq (h : AnglePair limit text i j) :
    angleInner? limit (text.drop (i + 1)) = some (slice text ⟨i + 1, j⟩) := by
  obtain ⟨inText, closing⟩ := List.getElem?_eq_some_iff.mp h.closes
  have lt := h.lt
  have near := h.near
  refine angleInner?_eq_some_iff.mpr ⟨?_, fun c hc => ?_, text.drop (j + 1), ?_⟩
  · rw [h.length_slice]
    omega
  · obtain ⟨k, lo, hi, found⟩ := mem_slice hc
    exact h.between k c lo hi found
  · have rest : text.drop j = '>' :: text.drop (j + 1) := by
      rw [List.drop_eq_getElem_cons inText, closing]
    have parts := List.take_append_drop (j - (i + 1)) (text.drop (i + 1))
    rw [List.drop_drop, Nat.add_sub_cancel' lt, rest] at parts
    exact parts.symm

/-- What is found behind an opening bracket makes a pair. -/
theorem anglePair_of_angleInner? {inner : List Char} (opens : text[i]? = some '<')
    (h : angleInner? limit (text.drop (i + 1)) = some inner) :
    AnglePair limit text i (i + inner.length + 1) ∧
      slice text ⟨i + 1, i + inner.length + 1⟩ = inner := by
  obtain ⟨short, plain, back, split⟩ := angleInner?_eq_some_iff.mp h
  have at_ (k : Nat) : text[i + 1 + k]? = (inner ++ '>' :: back)[k]? := by
    rw [← split, List.getElem?_drop]
  have last : i + inner.length + 1 = i + 1 + inner.length := by omega
  refine ⟨⟨by omega, opens, ?_, fun k c lo hi found => ?_, by omega⟩, ?_⟩
  · rw [last, at_, List.getElem?_append_right (Nat.le_refl _), Nat.sub_self]
    rfl
  · obtain ⟨n, rfl⟩ := Nat.exists_eq_add_of_le lo
    have within : n < inner.length := by omega
    have here : (inner ++ '>' :: back)[n]? = some c := (at_ n).symm.trans found
    rw [List.getElem?_append_left within] at here
    exact plain c (List.mem_of_getElem? here)
  · have size : i + inner.length + 1 - (i + 1) = inner.length := by omega
    rw [slice, split, size, List.take_left]

/-- The run that begins at an opening bracket, told by its pair. -/
theorem exists_angleInner?_iff (opens : text[i]? = some '<') (run : AngleSpan) :
    (∃ inner, angleInner? limit (text.drop (i + 1)) = some inner ∧
        ⟨⟨i, i + inner.length + 2⟩, inner⟩ = run) ↔
      ∃ j, AnglePair limit text i j ∧ run = ⟨⟨i, j + 1⟩, slice text ⟨i + 1, j⟩⟩ := by
  constructor
  · rintro ⟨inner, found, rfl⟩
    obtain ⟨pair, cut⟩ := anglePair_of_angleInner? opens found
    exact ⟨_, pair, by rw [cut]⟩
  · rintro ⟨j, pair, rfl⟩
    have lt := pair.lt
    have stop : i + (slice text ⟨i + 1, j⟩).length + 2 = j + 1 := by
      rw [pair.length_slice]
      omega
    exact ⟨_, pair.angleInner?_eq, by rw [stop]⟩

end

/-! ### The scan -/

theorem scanAnglesFrom_cons_of_ne {c : Char} (h : c ≠ '<') (limit offset : Nat)
    (rest : List Char) :
    scanAnglesFrom limit offset (c :: rest) = scanAnglesFrom limit (offset + 1) rest := by
  rw [scanAnglesFrom, if_neg h]

theorem scanAnglesFrom_opening (limit offset : Nat) (rest : List Char) :
    scanAnglesFrom limit offset ('<' :: rest) =
      ((angleInner? limit rest).map fun inner =>
        ⟨⟨offset, offset + inner.length + 2⟩, inner⟩).toList ++
        scanAnglesFrom limit (offset + 1) rest := by
  rw [scanAnglesFrom, if_pos rfl]
  cases angleInner? limit rest <;> rfl

/-- Where no bracket opens, the scan may as well go on behind it. -/
theorem scanAnglesFrom_of_notMem {front : List Char} (h : '<' ∉ front) (limit offset : Nat)
    (back : List Char) :
    scanAnglesFrom limit offset (front ++ back) =
      scanAnglesFrom limit (offset + front.length) back := by
  induction front generalizing offset with
  | nil => rfl
  | cons c rest ih =>
    obtain ⟨opening, later⟩ := not_or.mp (mt List.mem_cons.mpr h)
    have size : offset + (c :: rest).length = offset + 1 + rest.length := by
      rw [List.length_cons]
      omega
    rw [List.cons_append, scanAnglesFrom_cons_of_ne (Ne.symm opening), ih later, size]

/-- From an offset on, the scan finds the pairs that open there or later. -/
theorem mem_scanAnglesFrom_iff {limit offset : Nat} {text rest : List Char}
    (hrest : text.drop offset = rest) (run : AngleSpan) :
    run ∈ scanAnglesFrom limit offset rest ↔
      ∃ i j, offset ≤ i ∧ AnglePair limit text i j ∧
        run = ⟨⟨i, j + 1⟩, slice text ⟨i + 1, j⟩⟩ := by
  induction rest generalizing offset with
  | nil =>
    simp only [scanAnglesFrom, List.not_mem_nil, false_iff]
    rintro ⟨i, j, le, pair, -⟩
    have inText := (List.getElem?_eq_some_iff.mp pair.opens).1
    have atEnd := List.drop_eq_nil_iff.mp hrest
    omega
  | cons c rest ih =>
    obtain ⟨here, -, later⟩ := drop_eq_cons hrest
    -- A pair opens here or behind.
    have split : (∃ i j, offset ≤ i ∧ AnglePair limit text i j ∧
          run = ⟨⟨i, j + 1⟩, slice text ⟨i + 1, j⟩⟩) ↔
        (∃ j, AnglePair limit text offset j ∧
          run = ⟨⟨offset, j + 1⟩, slice text ⟨offset + 1, j⟩⟩) ∨
        run ∈ scanAnglesFrom limit (offset + 1) rest := by
      rw [ih later]
      constructor
      · rintro ⟨i, j, le, found⟩
        rcases Nat.eq_or_lt_of_le le with rfl | behind
        · exact .inl ⟨j, found⟩
        · exact .inr ⟨i, j, behind, found⟩
      · rintro (⟨j, found⟩ | ⟨i, j, behind, found⟩)
        · exact ⟨offset, j, Nat.le_refl offset, found⟩
        · exact ⟨i, j, Nat.le_of_succ_le behind, found⟩
    rw [split]
    by_cases opening : c = '<'
    · subst opening
      rw [scanAnglesFrom_opening, List.mem_append, Option.mem_toList, Option.map_eq_some_iff,
        ← exists_angleInner?_iff here, later]
    · rw [scanAnglesFrom_cons_of_ne opening]
      constructor
      · exact .inr
      · rintro (⟨j, pair, -⟩ | behind)
        · rw [pair.opens] at here
          exact absurd (Option.some.inj here).symm opening
        · exact behind

/-- The scan finds the pairs of angle brackets and nothing else. -/
theorem mem_scanAngles_iff {limit : Nat} {text : List Char} (run : AngleSpan) :
    run ∈ scanAngles limit text ↔
      ∃ i j, AnglePair limit text i j ∧ run = ⟨⟨i, j + 1⟩, slice text ⟨i + 1, j⟩⟩ := by
  have whole : text.drop 0 = text := List.drop_zero
  rw [scanAngles, mem_scanAnglesFrom_iff whole]
  simp only [Nat.zero_le, true_and]

theorem le_start_of_mem_scanAnglesFrom {limit offset : Nat} {text : List Char} {run : AngleSpan}
    (h : run ∈ scanAnglesFrom limit offset text) : offset ≤ run.span.start := by
  induction text generalizing offset with
  | nil => cases h
  | cons c rest ih =>
    by_cases opening : c = '<'
    · subst opening
      rw [scanAnglesFrom_opening, List.mem_append, Option.mem_toList,
        Option.map_eq_some_iff] at h
      rcases h with ⟨inner, -, rfl⟩ | later
      · exact Nat.le_refl offset
      · exact Nat.le_of_succ_le (ih later)
    · rw [scanAnglesFrom_cons_of_ne opening] at h
      exact Nat.le_of_succ_le (ih h)

/-- What is found behind the opening bracket of a run is found behind its closing bracket. -/
theorem scanAnglesFrom_behind {limit : Nat} {rest inner : List Char}
    (found : angleInner? limit rest = some inner) (offset : Nat) :
    scanAnglesFrom limit (offset + 1) rest =
      scanAnglesFrom limit (offset + inner.length + 2) (rest.drop (inner.length + 1)) := by
  obtain ⟨-, plain, back, rfl⟩ := angleInner?_eq_some_iff.mp found
  have noOpening : '<' ∉ inner ++ ['>'] := by
    rw [List.mem_append, List.mem_singleton]
    rintro (within | closing)
    · exact (plain '<' within).1 rfl
    · cases closing
  have passed := scanAnglesFrom_of_notMem noOpening limit (offset + 1) back
  have size : (inner ++ ['>']).length = inner.length + 1 := List.length_append
  have behind : (inner ++ '>' :: back).drop (inner.length + 1) = back := by
    rw [← size, List.append_cons inner '>' back, List.drop_left]
  rw [behind, List.append_cons inner '>' back, passed, size]
  congr 1
  omega

/-- A run is found at its opening bracket, and the scan jumps behind it. -/
theorem scanAnglesFrom_run {limit : Nat} {rest inner : List Char}
    (found : angleInner? limit rest = some inner) (offset : Nat) :
    scanAnglesFrom limit offset ('<' :: rest) =
      ⟨⟨offset, offset + inner.length + 2⟩, inner⟩ ::
        scanAnglesFrom limit (offset + inner.length + 2) (rest.drop (inner.length + 1)) := by
  rw [scanAnglesFrom_opening, found, scanAnglesFrom_behind found]
  rfl

theorem scanAnglesFrom_separated (limit offset : Nat) (text : List Char) :
    (scanAnglesFrom limit offset text).Pairwise fun a b => a.span.stop ≤ b.span.start := by
  induction text generalizing offset with
  | nil => exact .nil
  | cons c rest ih =>
    by_cases opening : c = '<'
    · subst opening
      cases found : angleInner? limit rest with
      | none =>
        rw [scanAnglesFrom_opening, found]
        exact ih (offset + 1)
      | some inner =>
        have later := ih (offset + 1)
        rw [scanAnglesFrom_behind found] at later
        rw [scanAnglesFrom_run found]
        exact List.pairwise_cons.mpr ⟨fun b hb => le_start_of_mem_scanAnglesFrom hb, later⟩
    · rw [scanAnglesFrom_cons_of_ne opening]
      exact ih (offset + 1)

/-- Runs are found in text order, and none meets another. -/
theorem scanAngles_separated (limit : Nat) (text : List Char) :
    (scanAngles limit text).Pairwise fun a b => a.span.stop ≤ b.span.start :=
  scanAnglesFrom_separated limit 0 text

/-- A run in angle brackets is cut out of one line. -/
theorem split_of_mem_scanAngles {limit : Nat} {text : List Char} {a : AngleSpan}
    (h : a ∈ scanAngles limit text) :
    ∃ front back, text = front ++ ('<' :: (a.inner ++ ['>']) ++ back) ∧ '\n' ∉ a.inner ∧
      a.span = ⟨front.length, front.length + a.inner.length + 2⟩ := by
  obtain ⟨i, j, pair, rfl⟩ := (mem_scanAngles_iff a).mp h
  obtain ⟨-, plain, back, behind⟩ := angleInner?_eq_some_iff.mp pair.angleInner?_eq
  obtain ⟨inText, opening⟩ := List.getElem?_eq_some_iff.mp pair.opens
  have lt := pair.lt
  have first : (text.take i).length = i := List.length_take_of_le (Nat.le_of_lt inText)
  refine ⟨text.take i, back, ?_, fun newline => (plain '\n' newline).2.2 rfl, ?_⟩
  · have split := List.take_append_drop i text
    rw [List.drop_eq_getElem_cons inText, opening, behind] at split
    simpa using split.symm
  · rw [first, pair.length_slice, Span.mk.injEq]
    omega

end LexLint
