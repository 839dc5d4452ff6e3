import LexLint.Proofs.Scan.Alignment

/-!
# Balanced texts

A text is balanced if a grammar of nested brackets makes it (`Balanced`). The scan for brackets
finds no fault in such a text and leaves the brackets open that were open before it
(`Balanced.scanBracketsFrom`), and a text without a fault closes what was open before it and is
balanced in between (`closes_of_scanBracketsFrom`). So the texts without a fault are the balanced
ones, and a balanced text put anywhere into another only moves the faults behind it.
-/

namespace LexLint

/-- The character neither opens nor closes a bracket. -/
def NoBracket (c : Char) : Prop := ∀ b : Bracket, c ≠ b.opener ∧ c ≠ b.closer

/-- Texts in which every bracket is closed by its own kind, in the order that nesting asks for. -/
inductive Balanced : List Char → Prop where
  | nil : Balanced []
  | other {c : Char} (plain : NoBracket c) : Balanced [c]
  | enclosed (b : Bracket) {inner : List Char} (balanced : Balanced inner) :
      Balanced (b.opener :: (inner ++ [b.closer]))
  | append {s t : List Char} (first : Balanced s) (second : Balanced t) : Balanced (s ++ t)

theorem bracket_cases (c : Char) :
    (∃ b : Bracket, c = b.opener) ∨ (∃ b : Bracket, c = b.closer) ∨ NoBracket c := by
  cases opens : Bracket.ofOpener? c with
  | some b => exact .inl ⟨b, Bracket.ofOpener?_eq_some.mp opens⟩
  | none =>
    cases closes : Bracket.ofCloser? c with
    | some b => exact .inr (.inl ⟨b, Bracket.ofCloser?_eq_some.mp closes⟩)
    | none =>
      refine .inr (.inr fun b => ⟨fun same => ?_, fun same => ?_⟩)
      · rw [Bracket.ofOpener?_eq_some.mpr same] at opens
        cases opens
      · rw [Bracket.ofCloser?_eq_some.mpr same] at closes
        cases closes

/-! ### One character -/

section
variable (offset : Nat) (stack : List (Bracket × Nat)) (rest : List Char)

theorem scanBracketsFrom_other {c : Char} (plain : NoBracket c) :
    scanBracketsFrom offset stack (c :: rest) = scanBracketsFrom (offset + 1) stack rest := by
  have opens : Bracket.ofOpener? c = none := Option.eq_none_iff_forall_ne_some.mpr fun b h =>
    (plain b).1 (Bracket.ofOpener?_eq_some.mp h)
  have closes : Bracket.ofCloser? c = none := Option.eq_none_iff_forall_ne_some.mpr fun b h =>
    (plain b).2 (Bracket.ofCloser?_eq_some.mp h)
  rw [scanBracketsFrom, opens, closes]

theorem scanBracketsFrom_opener (b : Bracket) :
    scanBracketsFrom offset stack (b.opener :: rest) =
      scanBracketsFrom (offset + 1) ((b, offset) :: stack) rest := by
  rw [scanBracketsFrom, Bracket.ofOpener?_eq_some.mpr rfl]

theorem Bracket.ofOpener?_closer (b : Bracket) : ofOpener? b.closer = none := by
  cases b <;> decide

theorem scanBracketsFrom_closer_nil (b : Bracket) :
    scanBracketsFrom offset [] (b.closer :: rest) =
      ⟨.unexpected b, offset⟩ :: scanBracketsFrom (offset + 1) [] rest := by
  rw [scanBracketsFrom, b.ofOpener?_closer, Bracket.ofCloser?_eq_some.mpr rfl]

theorem scanBracketsFrom_closer_cons (b opened : Bracket) (place : Nat) :
    scanBracketsFrom offset ((opened, place) :: stack) (b.closer :: rest) =
      (if opened = b then [] else [⟨.mismatch b opened, offset⟩]) ++
        scanBracketsFrom (offset + 1) stack rest := by
  rw [scanBracketsFrom, b.ofOpener?_closer, Bracket.ofCloser?_eq_some.mpr rfl]
  by_cases fits : opened = b
  · simp [fits]
  · simp [fits]

end

/-! ### Balanced texts have no fault -/

/-- A balanced text leaves the scan as it was, further on. -/
theorem Balanced.scanBracketsFrom {s : List Char} (balanced : Balanced s) (offset : Nat)
    (stack : List (Bracket × Nat)) (rest : List Char) :
    scanBracketsFrom offset stack (s ++ rest) =
      scanBracketsFrom (offset + s.length) stack rest := by
  induction balanced generalizing offset stack rest with
  | nil => rfl
  | other plain => exact scanBracketsFrom_other offset stack rest plain
  | @enclosed b inner _ ih =>
    have size : offset + (b.opener :: (inner ++ [b.closer])).length =
        offset + 1 + inner.length + 1 := by
      simp only [List.length_cons, List.length_append, List.length_nil]
      omega
    rw [List.cons_append, List.append_assoc, List.singleton_append, scanBracketsFrom_opener, ih,
      scanBracketsFrom_closer_cons, if_pos rfl, List.nil_append, size]
  | @append s t _ _ first second =>
    rw [List.append_assoc, first, second, List.length_append, Nat.add_assoc]

theorem Balanced.scanBrackets_eq_nil {s : List Char} (balanced : Balanced s) :
    scanBrackets s = [] := by
  have scanned := balanced.scanBracketsFrom 0 [] []
  rw [List.append_nil] at scanned
  rw [scanBrackets, scanned]
  rfl

/-! ### Texts without a fault are balanced -/

/-- A text that closes the brackets open before it, latest first, and is balanced in between. -/
inductive Closes : List Bracket → List Char → Prop where
  | none {s : List Char} (balanced : Balanced s) : Closes [] s
  | next {b : Bracket} {pending : List Bracket} {s t : List Char} (balanced : Balanced s)
      (later : Closes pending t) : Closes (b :: pending) (s ++ b.closer :: t)

theorem Closes.append_balanced {pending : List Bracket} {s t : List Char} (balanced : Balanced s)
    (closes : Closes pending t) : Closes pending (s ++ t) := by
  cases closes with
  | none rest => exact .none (balanced.append rest)
  | next rest later =>
    rw [← List.append_assoc]
    exact .next (balanced.append rest) later

/-- Without a fault, what was open is closed. -/
theorem closes_of_scanBracketsFrom {offset : Nat} {stack : List (Bracket × Nat)}
    {text : List Char} (clean : scanBracketsFrom offset stack text = []) :
    Closes (stack.map (·.1)) text := by
  induction text generalizing offset stack with
  | nil =>
    rw [LexLint.scanBracketsFrom, List.map_eq_nil_iff, List.reverse_eq_nil_iff] at clean
    subst clean
    exact .none .nil
  | cons c rest ih =>
    rcases bracket_cases c with ⟨b, rfl⟩ | ⟨b, rfl⟩ | plain
    · rw [scanBracketsFrom_opener] at clean
      -- The bracket opened here is the first that the rest closes.
      cases ih clean with
      | @next _ _ inner after balanced later =>
        have enclosed := Closes.append_balanced (.enclosed b balanced) later
        simpa using enclosed
    · rcases stack with _ | ⟨⟨opened, place⟩, below⟩
      · rw [scanBracketsFrom_closer_nil] at clean
        cases clean
      · rw [scanBracketsFrom_closer_cons, List.append_eq_nil_iff] at clean
        obtain ⟨fits, clean⟩ := clean
        have same : opened = b := by
          by_contra differ
          rw [if_neg differ] at fits
          cases fits
        subst same
        exact .next .nil (ih clean)
    · rw [scanBracketsFrom_other offset stack rest plain] at clean
      exact Closes.append_balanced (.other plain) (ih clean)

/-! ### Balanced texts put into others -/

/-- Where an offset is once a text of some size is put in at a place. -/
def pushedBack (place size offset : Nat) : Nat := if place ≤ offset then offset + size else offset

theorem pushedBack_of_lt {place size offset : Nat} (h : offset < place) :
    pushedBack place size offset = offset :=
  if_neg (Nat.not_le.mpr h)

theorem pushedBack_of_le {place size offset : Nat} (h : place ≤ offset) :
    pushedBack place size offset = offset + size :=
  if_pos h

/-- What follows the place is the same text, further on. -/
theorem aligned_pushedBack {place offset : Nat} (h : place ≤ offset) (size : Nat)
    (text : List Char) :
    Aligned (pushedBack place size) offset text text := by
  induction text generalizing offset with
  | nil => exact .nil offset
  | cons c rest ih =>
    refine .char c ?_ (ih (Nat.le_succ_of_le h))
    rw [pushedBack_of_le h, pushedBack_of_le (Nat.le_succ_of_le h)]
    omega

/-- From an offset on, with brackets open that stand before it: only what is found behind the
place moves. -/
theorem Balanced.scanBracketsFrom_insert {b : List Char} (balanced : Balanced b) (offset : Nat)
    (stack : List (Bracket × Nat)) (earlier : ∀ s ∈ stack, s.2 < offset) (a c : List Char) :
    LexLint.scanBracketsFrom offset stack (a ++ (b ++ c)) =
      (LexLint.scanBracketsFrom offset stack (a ++ c)).map
        (BracketEvent.move (pushedBack (offset + a.length) b.length)) := by
  induction a generalizing offset stack with
  | nil =>
    have kept : stack.map (fun s => (s.1, pushedBack offset b.length s.2)) = stack := by
      refine (List.map_congr_left fun s hs => ?_).trans (List.map_id stack)
      rw [pushedBack_of_lt (earlier s hs)]
      rfl
    have moved := (aligned_pushedBack (Nat.le_refl offset) b.length c).scanBracketsFrom stack
    rw [kept, pushedBack_of_le (Nat.le_refl offset)] at moved
    rw [List.nil_append, balanced.scanBracketsFrom, moved]
    rfl
  | cons d rest ih =>
    have still : ∀ s ∈ stack, s.2 < offset + 1 := fun s hs => Nat.lt_succ_of_lt (earlier s hs)
    have size : offset + (d :: rest).length = offset + 1 + rest.length := by
      rw [List.length_cons]
      omega
    have here (fault : BracketFault) : BracketEvent.move
        (pushedBack (offset + 1 + rest.length) b.length) ⟨fault, offset⟩ = ⟨fault, offset⟩ := by
      have before : offset < offset + 1 + rest.length := by omega
      simp only [BracketEvent.move, pushedBack_of_lt before]
    rw [List.cons_append, List.cons_append, size]
    rcases bracket_cases d with ⟨kind, rfl⟩ | ⟨kind, rfl⟩ | plain
    · rw [scanBracketsFrom_opener, scanBracketsFrom_opener]
      exact ih _ _ (List.forall_mem_cons.mpr ⟨Nat.lt_succ_self offset, still⟩)
    · rcases stack with _ | ⟨⟨opened, place⟩, below⟩
      · rw [scanBracketsFrom_closer_nil, scanBracketsFrom_closer_nil, List.map_cons, here,
          ih _ [] still]
      · have later := ih (offset + 1) below (List.forall_mem_cons.mp still).2
        rw [scanBracketsFrom_closer_cons, scanBracketsFrom_closer_cons, List.map_append, later]
        by_cases fits : opened = kind
        · rw [if_pos fits, List.map_nil]
        · rw [if_neg fits, List.map_singleton, here]
    · rw [scanBracketsFrom_other _ _ _ plain, scanBracketsFrom_other _ _ _ plain]
      exact ih _ _ still

/-- **No fault means balanced.** The scan finds nothing in a text exactly if the grammar of nested
brackets makes it; and a balanced text put in at any place leaves the faults of a text as they
are, those behind the place that much further on. -/
theorem brackets_fault_iff_unbalanced (text : List Char) :
    (scanBrackets text = [] ↔ Balanced text) ∧
    ∀ a c, text = a ++ c → ∀ b, Balanced b →
      scanBrackets (a ++ b ++ c) =
        (scanBrackets text).map (BracketEvent.move (pushedBack a.length b.length)) := by
  refine ⟨⟨fun clean => ?_, Balanced.scanBrackets_eq_nil⟩, ?_⟩
  · cases closes_of_scanBracketsFrom clean with
    | none balanced => exact balanced
  · rintro a c rfl b balanced
    have inserted := balanced.scanBracketsFrom_insert 0 [] (by simp) a c
    rw [Nat.zero_add] at inserted
    rw [List.append_assoc]
    exact inserted

/-- A bracket that stays open before the place, and one of another kind that is met behind it. -/
theorem brackets_fault_iff_unbalanced_around_call :
    Balanced "()".toList ∧
      scanBrackets "[x()\x7d\x7b".toList =
        [⟨.mismatch .curly .square, 4⟩, ⟨.unclosed .curly, 5⟩] ∧
      scanBrackets "[x\x7d\x7b".toList =
        [⟨.mismatch .curly .square, 2⟩, ⟨.unclosed .curly, 3⟩] := by
  have pair : Balanced "()".toList := .enclosed .round .nil
  have inserted := (brackets_fault_iff_unbalanced "[x\x7d\x7b".toList).2
    "[x".toList "\x7d\x7b".toList rfl "()".toList pair
  have plain : scanBrackets "[x\x7d\x7b".toList =
      [⟨.mismatch .curly .square, 2⟩, ⟨.unclosed .curly, 3⟩] := by decide
  rw [plain] at inserted
  exact ⟨pair, inserted, plain⟩

end LexLint
