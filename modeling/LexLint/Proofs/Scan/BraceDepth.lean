import LexLint.Proofs.Scan.Braces
import LexLint.Proofs.View.Offsets
import LexLint.Proofs.View.UnclosedString
import Mathlib.Order.Bounds.Basic

/-!
# Braces by depth

The pairing of braces keeps a stack of the offsets still open. The depth of a text at an offset,
which the braces before it make alone, says which pairs come out: a brace stays on the stack as long
as the depth is above the one before it (`Pending`), and is closed where the depth first comes back
to that (`Settled`). So each brace is paired with the end of the shortest text from it on that
closes as many braces as it opens, and pairs cannot cross (`pairBraces_by_depth`).
-/

namespace LexLint

/-- How many more braces are opened than closed before an offset. -/
def depthAt (text : List Char) (offset : Nat) : Int :=
  (text.take offset).count '\x7b' - (text.take offset).count '\x7d'

section
variable {text : List Char} {i : Nat}

theorem depthAt_succ {c : Char} (h : text[i]? = some c) :
    depthAt text (i + 1) = depthAt text i + ([c].count '\x7b' - [c].count '\x7d') := by
  simp only [depthAt, List.take_add_one, h, Option.toList_some, List.count_append]
  omega

theorem depthAt_succ_opening (h : text[i]? = some '\x7b') :
    depthAt text (i + 1) = depthAt text i + 1 := by
  rw [depthAt_succ h]
  rfl

theorem depthAt_succ_closing (h : text[i]? = some '\x7d') :
    depthAt text (i + 1) = depthAt text i - 1 := by
  rw [depthAt_succ h]
  rfl

theorem depthAt_succ_of_ne {c : Char} (h : text[i]? = some c) (opening : c ≠ '\x7b')
    (closing : c ≠ '\x7d') : depthAt text (i + 1) = depthAt text i := by
  rw [depthAt_succ h]
  simp [opening, closing]

end

/-- From one offset to another, both included, as many braces are closed as are opened. -/
def EvensOut (text : List Char) (o c : Nat) : Prop :=
  o < c ∧ (slice text ⟨o, c + 1⟩).count '\x7d' = (slice text ⟨o, c + 1⟩).count '\x7b'

theorem evensOut_iff {text : List Char} {o c : Nat} :
    EvensOut text o c ↔ o < c ∧ depthAt text (c + 1) = depthAt text o := by
  refine and_congr_right fun lt => ?_
  have split : text.take (c + 1) = text.take o ++ slice text ⟨o, c + 1⟩ := by
    have size : c + 1 = o + (c + 1 - o) := by omega
    rw [slice, ← List.take_add, ← size]
  simp only [depthAt, split, List.count_append]
  omega

theorem depthAt_of_drop_eq_nil {text : List Char} {offset : Nat} (h : text.drop offset = [])
    {i : Nat} (le : offset ≤ i) : depthAt text i = depthAt text offset := by
  have atEnd := List.drop_eq_nil_iff.mp h
  rw [depthAt, depthAt, List.take_of_length_le atEnd,
    List.take_of_length_le (Nat.le_trans atEnd le)]

/-- A brace that nothing has closed before an offset, with some braces open on top of it: the depth
has been above the one at the brace ever since. -/
structure Pending (text : List Char) (offset onTop o : Nat) : Prop where
  lt : o < offset
  opening : text[o]? = some '\x7b'
  depth : depthAt text offset = depthAt text o + onTop + 1
  above : ∀ i, o < i → i ≤ offset → depthAt text o < depthAt text i

/-- Each offset on a stack is pending, with the ones put there later on top. -/
def AllPending (text : List Char) (offset : Nat) (stack : List Nat) : Prop :=
  ∀ k o, stack[k]? = some o → Pending text offset k o

/-- A brace and its partner, by depth: the closing brace brings the depth back for the first time,
and without a partner the depth never comes back. -/
def Settled (text : List Char) (o : Nat) : Option Nat → Prop
  | none => ∀ i, o < i → depthAt text o < depthAt text i
  | some c => o < c ∧ text[c]? = some '\x7d' ∧ depthAt text (c + 1) = depthAt text o ∧
      ∀ i, o < i → i ≤ c → depthAt text o < depthAt text i

/-! ### One character -/

section
variable {text : List Char} {offset : Nat}

/-- A brace stays pending as long as the depth is above the one at the brace. -/
theorem Pending.next {onTop still o : Nat} (h : Pending text offset onTop o)
    (depth : depthAt text (offset + 1) = depthAt text o + still + 1) :
    Pending text (offset + 1) still o := by
  refine ⟨Nat.lt_succ_of_lt h.lt, h.opening, depth, fun i lo hi => ?_⟩
  by_cases last : i = offset + 1
  · subst last
    omega
  · exact h.above i lo (by omega)

theorem AllPending.opening {stack : List Nat} (h : AllPending text offset stack)
    (opening : text[offset]? = some '\x7b') :
    AllPending text (offset + 1) (offset :: stack) := by
  have deeper := depthAt_succ_opening opening
  intro k o found
  cases k with
  | zero =>
    obtain rfl := Option.some.inj found
    refine ⟨Nat.lt_succ_self offset, opening, by omega, fun i lo hi => ?_⟩
    obtain rfl : i = offset + 1 := by omega
    omega
  | succ k =>
    have pending := h k o found
    have before := pending.depth
    exact pending.next (by omega)

theorem AllPending.closing {top : Nat} {below : List Nat}
    (h : AllPending text offset (top :: below)) (closing : text[offset]? = some '\x7d') :
    AllPending text (offset + 1) below := by
  have higher := depthAt_succ_closing closing
  intro k o found
  have pending := h (k + 1) o found
  have before := pending.depth
  exact pending.next (by omega)

theorem AllPending.other {stack : List Nat} (h : AllPending text offset stack)
    (same : depthAt text (offset + 1) = depthAt text offset) :
    AllPending text (offset + 1) stack := by
  intro k o found
  have pending := h k o found
  have before := pending.depth
  exact pending.next (by omega)

/-- The brace that is met at a closing one has found its partner. -/
theorem AllPending.settled {top : Nat} {below : List Nat}
    (h : AllPending text offset (top :: below)) (closing : text[offset]? = some '\x7d') :
    Settled text top (some offset) := by
  have pending := h 0 top rfl
  have higher := depthAt_succ_closing closing
  have before := pending.depth
  exact ⟨pending.lt, closing, by omega, pending.above⟩

end

/-! ### A whole text -/

/-- From an offset on, with a stack of pending braces: every pair is right by depth. -/
theorem settled_of_mem_pairBracesFrom {text rest : List Char} {offset : Nat} {stack : List Nat}
    (hrest : text.drop offset = rest) (pending : AllPending text offset stack) {pair : BracePair}
    (h : pair ∈ pairBracesFrom offset stack rest) :
    text[pair.opened]? = some '\x7b' ∧ Settled text pair.opened pair.closed := by
  induction rest generalizing offset stack with
  | nil =>
    obtain ⟨o, member, rfl⟩ := List.mem_map.mp h
    obtain ⟨k, found⟩ := List.getElem?_of_mem member
    have open_ := pending k o found
    refine ⟨open_.opening, fun i lo => ?_⟩
    by_cases within : i ≤ offset
    · exact open_.above i lo within
    · rw [depthAt_of_drop_eq_nil hrest (Nat.le_of_not_le within)]
      exact open_.above offset open_.lt (Nat.le_refl offset)
  | cons c rest ih =>
    obtain ⟨here, -, later⟩ := drop_eq_cons hrest
    by_cases opening : c = '\x7b'
    · subst opening
      rw [pairBracesFrom_opening] at h
      exact ih later (pending.opening here) h
    by_cases closing : c = '\x7d'
    · subst closing
      cases stack with
      | nil =>
        rw [pairBracesFrom_closing_nil] at h
        exact ih later (fun k o found => by cases found) h
      | cons top below =>
        rw [pairBracesFrom_closing_cons] at h
        rcases List.mem_cons.mp h with rfl | behind
        · exact ⟨(pending 0 top rfl).opening, pending.settled here⟩
        · exact ih later (pending.closing here) behind
    · rw [pairBracesFrom_of_ne _ _ _ opening closing] at h
      exact ih later (pending.other (depthAt_succ_of_ne here opening closing)) h

theorem settled_of_mem_pairBraces {text : List Char} {pair : BracePair}
    (h : pair ∈ pairBraces text) :
    text[pair.opened]? = some '\x7b' ∧ Settled text pair.opened pair.closed := by
  rw [pairBraces, List.mem_mergeSort] at h
  exact settled_of_mem_pairBracesFrom List.drop_zero (fun k o found => by cases found) h

/-- The braces that are paired are those of the text, in text order. -/
theorem map_opened_pairBraces (text : List Char) :
    (pairBraces text).map (·.opened) =
      (List.range text.length).filter fun o => text[o]? = some '\x7b' := by
  have sorted : (pairBraces text).Pairwise fun a b => a.opened ≤ b.opened := by
    have ordered : (pairBraces text).Pairwise fun a b => decide (a.opened ≤ b.opened) = true := by
      apply List.pairwise_mergeSort
      · intro a b c hab hbc
        exact decide_eq_true (Nat.le_trans (of_decide_eq_true hab) (of_decide_eq_true hbc))
      · intro a b
        simpa using Nat.le_total a.opened b.opened
    exact ordered.imp of_decide_eq_true
  have distinct : ((pairBraces text).map (·.opened)).Nodup := by
    have perm : (pairBraces text).Perm (pairBracesFrom 0 [] text) := List.mergeSort_perm ..
    rw [(perm.map _).nodup_iff]
    exact nodup_map_opened_pairBracesFrom List.nodup_nil (by simp) text
  have paired : ((pairBraces text).map (·.opened)).Pairwise (· < ·) :=
    ((List.pairwise_map.mpr sorted).and distinct).imp fun h => Nat.lt_of_le_of_ne h.1 h.2
  have braces : ((List.range text.length).filter fun o =>
      text[o]? = some '\x7b').Pairwise (· < ·) := List.pairwise_lt_range.filter _
  refine paired.eq_of_mem_iff braces fun o => ?_
  simp only [List.mem_filter, List.mem_range, decide_eq_true_eq]
  constructor
  · intro member
    obtain ⟨pair, found, rfl⟩ := List.mem_map.mp member
    have opening := (settled_of_mem_pairBraces found).1
    exact ⟨(List.getElem?_eq_some_iff.mp opening).1, opening⟩
  · rintro ⟨-, opening⟩
    obtain ⟨closed, unique⟩ := exists_unique_pair opening
    exact List.mem_map.mpr ⟨⟨o, closed⟩, ((unique _).mpr rfl).1, rfl⟩

namespace Settled

variable {text : List Char} {o p c d : Nat}

theorem evensOut (h : Settled text o (some c)) : EvensOut text o c := by
  obtain ⟨lt, -, back, -⟩ := h
  exact evensOut_iff.mpr ⟨lt, back⟩

theorem isLeast (h : Settled text o (some c)) : IsLeast {c | EvensOut text o c} c := by
  refine ⟨h.evensOut, fun d even => ?_⟩
  obtain ⟨lt, back⟩ := evensOut_iff.mp even
  apply Nat.le_of_not_lt
  intro earlier
  have above := h.2.2.2 (d + 1) (by omega) earlier
  omega

theorem not_evensOut (h : Settled text o none) (c : Nat) : ¬ EvensOut text o c := by
  intro even
  obtain ⟨lt, back⟩ := evensOut_iff.mp even
  have above := h (c + 1) (by omega)
  omega

/-- A brace has the partner that the depth gives it. -/
theorem eq_some_iff {closed : Option Nat} (h : Settled text o closed) (c : Nat) :
    closed = some c ↔ IsLeast {c | EvensOut text o c} c := by
  constructor
  · rintro rfl
    exact h.isLeast
  · intro least
    cases closed with
    | none => exact absurd least.1 (h.not_evensOut c)
    | some d => rw [h.isLeast.unique least]

theorem eq_none_iff {closed : Option Nat} (h : Settled text o closed) :
    closed = none ↔ ∀ c, ¬ EvensOut text o c := by
  constructor
  · rintro rfl
    exact h.not_evensOut
  · intro none
    cases closed with
    | none => rfl
    | some c => exact absurd h.evensOut (none c)

/-- Pairs do not cross: the depth at the second brace is above the one at the first, and the first
pair ends where the depth is back there. -/
theorem nested_or_disjoint (h : Settled text o (some c)) (h' : Settled text p (some d))
    (opening : text[p]? = some '\x7b') (lt : o < p) : c < p ∨ d < c := by
  obtain ⟨-, closing, back, above⟩ := h
  obtain ⟨-, -, back', above'⟩ := h'
  by_cases before : c < p
  · exact .inl before
  have differ : p ≠ c := by
    rintro rfl
    rw [opening] at closing
    cases closing
  have deeper := above p lt (by omega)
  right
  apply Nat.lt_of_not_le
  intro behind
  by_cases same : c = d
  · subst same
    omega
  · have := above' (c + 1) (by omega) (by omega)
    omega

/-- No closing brace is used twice. -/
theorem opened_unique (h : Settled text o (some c)) (h' : Settled text p (some c)) : o = p := by
  obtain ⟨lt, -, back, above⟩ := h
  obtain ⟨lt', -, back', above'⟩ := h'
  rcases Nat.lt_trichotomy o p with before | same | behind
  · have := above p before (Nat.le_of_lt lt')
    omega
  · exact same
  · have := above' o behind (Nat.le_of_lt lt)
    omega

end Settled

/-- **Pairing braces is counting depth.** Every opening brace has one pair, in text order. Its
partner is the first offset behind it up to which as many braces are closed as are opened, and it
has none exactly if there is no such offset. So pairs are nested or disjoint, and no closing brace
is in two of them. -/
theorem pairBraces_by_depth (text : List Char) :
    (pairBraces text).map (·.opened) =
        (List.range text.length).filter (fun o => text[o]? = some '\x7b') ∧
      ∀ pair ∈ pairBraces text,
        (∀ c, pair.closed = some c ↔ IsLeast {c | EvensOut text pair.opened c} c) ∧
        (pair.closed = none ↔ ∀ c, ¬ EvensOut text pair.opened c) ∧
        ∀ c, pair.closed = some c → text[c]? = some '\x7d' ∧
          ∀ other ∈ pairBraces text, ∀ d, other.closed = some d →
            (pair.opened < other.opened → c < other.opened ∨ d < c) ∧
            (c = d → pair = other) := by
  refine ⟨map_opened_pairBraces text, fun pair member => ?_⟩
  obtain ⟨-, settled⟩ := settled_of_mem_pairBraces member
  refine ⟨settled.eq_some_iff, settled.eq_none_iff, fun c closed => ?_⟩
  rw [closed] at settled
  refine ⟨settled.2.1, fun other found d closed' => ?_⟩
  obtain ⟨opening, settled'⟩ := settled_of_mem_pairBraces found
  rw [closed'] at settled'
  refine ⟨settled.nested_or_disjoint settled' opening, ?_⟩
  rintro rfl
  have same := settled.opened_unique settled'
  obtain ⟨o, partner⟩ := pair
  obtain ⟨p, partner'⟩ := other
  simp only at closed closed' same
  rw [closed, closed', same]

/-- A stray closing brace, a pair inside a pair, and a brace that nothing closes. -/
theorem pairBraces_by_depth_nested :
    let text := "\x7d\x7ba\x7b\x7d\x7d\x7b".toList
    ⟨1, some 5⟩ ∈ pairBraces text ∧ ⟨3, some 4⟩ ∈ pairBraces text ∧ ⟨6, none⟩ ∈ pairBraces text ∧
      IsLeast {c | EvensOut text 1 c} 5 ∧ (∀ c, ¬ EvensOut text 6 c) ∧ (5 < 3 ∨ 4 < 5) := by
  intro text
  have found (pair : BracePair) (h : pair ∈ pairBracesFrom 0 [] text) : pair ∈ pairBraces text :=
    List.mem_mergeSort.mpr h
  have outer := found ⟨1, some 5⟩ (by decide)
  have inner := found ⟨3, some 4⟩ (by decide)
  have last := found ⟨6, none⟩ (by decide)
  have checks := (pairBraces_by_depth text).2
  have crossing := ((checks _ outer).2.2 5 rfl).2 ⟨3, some 4⟩ inner 4 rfl
  exact ⟨outer, inner, last, ((checks _ outer).1 5).mp rfl, (checks _ last).2.1.mp rfl,
    crossing.1 (by decide)⟩

end LexLint
