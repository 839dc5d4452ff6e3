import LexLint.Scan.Brace
import LexLint.Scan.Bracket
import Mathlib.Data.List.Nodup

/-!
# Braces on two stacks

Braces are paired on a stack of their own, brackets of all kinds on another. Every opening brace of
a text has exactly one pair (`exists_unique_pair`). As long as no closing bracket meets one of
another kind, the braces of the second stack are the first (`openBraces`), so that both leave the
same braces open (`mem_pairBraces_none_iff`).
-/

namespace LexLint

/-- No closing bracket meets an opening one of another kind. -/
def NoMismatch (events : List BracketEvent) : Prop :=
  ∀ e ∈ events, ∀ found expected, e.fault ≠ .mismatch found expected

/-- The offsets of the braces on a stack of brackets. -/
def openBraces (stack : List (Bracket × Nat)) : List Nat :=
  (stack.filter fun b => b.1 = .curly).map (·.2)

theorem openBraces_cons_curly (offset : Nat) (stack : List (Bracket × Nat)) :
    openBraces ((.curly, offset) :: stack) = offset :: openBraces stack := by
  simp [openBraces]

theorem openBraces_cons_of_ne {b : Bracket} (h : b ≠ .curly) (offset : Nat)
    (stack : List (Bracket × Nat)) : openBraces ((b, offset) :: stack) = openBraces stack := by
  simp [openBraces, h]

theorem mem_openBraces {stack : List (Bracket × Nat)} {o : Nat} :
    o ∈ openBraces stack ↔ (Bracket.curly, o) ∈ stack := by
  simp [openBraces]

section
variable (offset : Nat) (stack : List Nat) (rest : List Char)

theorem pairBracesFrom_opening :
    pairBracesFrom offset stack ('\x7b' :: rest) =
      pairBracesFrom (offset + 1) (offset :: stack) rest :=
  rfl

theorem pairBracesFrom_closing_nil :
    pairBracesFrom offset [] ('\x7d' :: rest) = pairBracesFrom (offset + 1) [] rest :=
  rfl

theorem pairBracesFrom_closing_cons (opened : Nat) :
    pairBracesFrom offset (opened :: stack) ('\x7d' :: rest) =
      ⟨opened, some offset⟩ :: pairBracesFrom (offset + 1) stack rest :=
  rfl

theorem pairBracesFrom_of_ne {c : Char} (opening : c ≠ '\x7b') (closing : c ≠ '\x7d') :
    pairBracesFrom offset stack (c :: rest) = pairBracesFrom (offset + 1) stack rest := by
  simp only [pairBracesFrom, opening, closing, if_false]

end

theorem Bracket.ne_of_ne_curly {b : Bracket} (h : b ≠ .curly) :
    (b.opener ≠ '\x7b' ∧ b.opener ≠ '\x7d') ∧ b.closer ≠ '\x7b' ∧ b.closer ≠ '\x7d' := by
  cases b with
  | curly => exact absurd rfl h
  | square => decide
  | round => decide

/-- An opening bracket goes on both stacks if it is a brace, and on the second only if not. -/
theorem pairBracesFrom_opener (b : Bracket) (offset : Nat) (stack : List (Bracket × Nat))
    (rest : List Char) :
    pairBracesFrom offset (openBraces stack) (b.opener :: rest) =
      pairBracesFrom (offset + 1) (openBraces ((b, offset) :: stack)) rest := by
  by_cases curly : b = .curly
  · subst curly
    rw [openBraces_cons_curly]
    exact pairBracesFrom_opening ..
  · obtain ⟨⟨opening, closing⟩, -⟩ := Bracket.ne_of_ne_curly curly
    rw [openBraces_cons_of_ne curly, pairBracesFrom_of_ne _ _ _ opening closing]

/-- A closing bracket takes the bracket that it fits off both stacks, and settles it. -/
theorem mem_pairBracesFrom_closer (b : Bracket) (offset opened : Nat)
    (below : List (Bracket × Nat)) (rest : List Char) (o : Nat) :
    ⟨o, none⟩ ∈ pairBracesFrom offset (openBraces ((b, opened) :: below)) (b.closer :: rest) ↔
      ⟨o, none⟩ ∈ pairBracesFrom (offset + 1) (openBraces below) rest := by
  by_cases curly : b = .curly
  · subst curly
    rw [openBraces_cons_curly, Bracket.closer, pairBracesFrom_closing_cons]
    simp
  · obtain ⟨-, opening, closing⟩ := Bracket.ne_of_ne_curly curly
    rw [openBraces_cons_of_ne curly, pairBracesFrom_of_ne _ _ _ opening closing]

/-- A closing bracket with nothing open leaves both stacks empty. -/
theorem pairBracesFrom_closer_nil (b : Bracket) (offset : Nat) (rest : List Char) :
    pairBracesFrom offset (openBraces []) (b.closer :: rest) =
      pairBracesFrom (offset + 1) (openBraces []) rest := by
  by_cases curly : b = .curly
  · subst curly
    exact pairBracesFrom_closing_nil ..
  · obtain ⟨-, opening, closing⟩ := Bracket.ne_of_ne_curly curly
    exact pairBracesFrom_of_ne _ _ _ opening closing

/-- From an offset on, both scans leave the same braces open, if they have the same open so far. -/
theorem mem_pairBracesFrom_none_iff {offset : Nat} {stack : List (Bracket × Nat)}
    {rest : List Char} (h : NoMismatch (scanBracketsFrom offset stack rest)) (o : Nat) :
    ⟨o, none⟩ ∈ pairBracesFrom offset (openBraces stack) rest ↔
      ⟨.unclosed .curly, o⟩ ∈ scanBracketsFrom offset stack rest := by
  induction rest generalizing offset stack with
  | nil =>
    simp only [pairBracesFrom, scanBracketsFrom, List.mem_map, mem_openBraces]
    simp
  | cons c rest ih =>
    cases opener : Bracket.ofOpener? c with
    | some b =>
      simp only [scanBracketsFrom, opener] at h ⊢
      rw [Bracket.ofOpener?_eq_some.mp opener, pairBracesFrom_opener, ih h]
    | none =>
      cases closer : Bracket.ofCloser? c with
      | none =>
        simp only [scanBracketsFrom, opener, closer] at h ⊢
        have opening : c ≠ '\x7b' := by
          rintro rfl
          cases opener
        have closing : c ≠ '\x7d' := by
          rintro rfl
          cases closer
        rw [pairBracesFrom_of_ne _ _ _ opening closing, ih h]
      | some b =>
        obtain rfl := Bracket.ofCloser?_eq_some.mp closer
        cases stack with
        | nil =>
          simp only [scanBracketsFrom, opener, closer] at h ⊢
          rw [pairBracesFrom_closer_nil, ih (List.forall_mem_cons.mp h).2]
          simp
        | cons top below =>
          obtain ⟨kind, opened⟩ := top
          simp only [scanBracketsFrom, opener, closer] at h ⊢
          by_cases fits : kind = b
          · subst fits
            rw [if_pos rfl] at h ⊢
            rw [mem_pairBracesFrom_closer, ih h]
          · rw [if_neg fits] at h
            exact absurd rfl (h _ List.mem_cons_self b kind)

/-- Where brackets fit, a brace has no partner exactly if it is reported as unclosed. -/
theorem mem_pairBraces_none_iff {text : List Char} (h : NoMismatch (scanBrackets text)) (o : Nat) :
    ⟨o, none⟩ ∈ pairBraces text ↔ ⟨.unclosed .curly, o⟩ ∈ scanBrackets text := by
  rw [pairBraces, List.mem_mergeSort]
  exact mem_pairBracesFrom_none_iff h o

/-- The braces that are paired are those open so far and those that follow. -/
theorem mem_map_opened_pairBracesFrom (offset : Nat) (stack : List Nat) (rest : List Char)
    (o : Nat) :
    o ∈ (pairBracesFrom offset stack rest).map (·.opened) ↔
      o ∈ stack ∨ ∃ i, rest[i]? = some '\x7b' ∧ o = offset + i := by
  induction rest generalizing offset stack with
  | nil => simp [pairBracesFrom]
  | cons c rest ih =>
    -- What follows the first character stands one further.
    have shift : (∃ i, (c :: rest)[i]? = some '\x7b' ∧ o = offset + i) ↔
        (c = '\x7b' ∧ o = offset) ∨ ∃ i, rest[i]? = some '\x7b' ∧ o = offset + 1 + i := by
      constructor
      · rintro ⟨i, brace, rfl⟩
        cases i with
        | zero => exact .inl ⟨Option.some.inj brace, rfl⟩
        | succ i => exact .inr ⟨i, brace, by omega⟩
      · rintro (⟨rfl, rfl⟩ | ⟨i, brace, rfl⟩)
        · exact ⟨0, rfl, rfl⟩
        · exact ⟨i + 1, brace, by omega⟩
    rw [shift]
    by_cases opening : c = '\x7b'
    · subst opening
      rw [pairBracesFrom_opening, ih, List.mem_cons]
      grind
    by_cases closing : c = '\x7d'
    · subst closing
      cases stack with
      | nil =>
        rw [pairBracesFrom_closing_nil, ih]
        simp
      | cons top below =>
        rw [pairBracesFrom_closing_cons, List.map_cons, List.mem_cons, ih, List.mem_cons]
        grind
    · rw [pairBracesFrom_of_ne _ _ _ opening closing, ih]
      simp [opening]

theorem nodup_map_opened_pairBracesFrom {offset : Nat} {stack : List Nat} (distinct : stack.Nodup)
    (earlier : ∀ o ∈ stack, o < offset) (rest : List Char) :
    ((pairBracesFrom offset stack rest).map (·.opened)).Nodup := by
  induction rest generalizing offset stack with
  | nil => simpa [pairBracesFrom, Function.comp_def] using distinct
  | cons c rest ih =>
    have still : ∀ o ∈ stack, o < offset + 1 := fun o ho => Nat.lt_succ_of_lt (earlier o ho)
    by_cases opening : c = '\x7b'
    · subst opening
      rw [pairBracesFrom_opening]
      apply ih
      · exact List.nodup_cons.mpr ⟨fun here => Nat.lt_irrefl _ (earlier _ here), distinct⟩
      · exact List.forall_mem_cons.mpr ⟨Nat.lt_succ_self offset, still⟩
    by_cases closing : c = '\x7d'
    · subst closing
      cases stack with
      | nil =>
        rw [pairBracesFrom_closing_nil]
        exact ih List.nodup_nil (by simp)
      | cons top below =>
        obtain ⟨fresh, others⟩ := List.nodup_cons.mp distinct
        obtain ⟨topEarlier, -⟩ := List.forall_mem_cons.mp earlier
        rw [pairBracesFrom_closing_cons, List.map_cons, List.nodup_cons,
          mem_map_opened_pairBracesFrom]
        refine ⟨?_, ih others (List.forall_mem_cons.mp still).2⟩
        rintro (again | ⟨i, -, later⟩)
        · exact fresh again
        · have : top = offset + 1 + i := later
          omega
    · rw [pairBracesFrom_of_ne _ _ _ opening closing]
      exact ih distinct still

/-- Every opening brace of a text is paired once. -/
theorem exists_unique_pair {text : List Char} {o : Nat} (h : text[o]? = some '\x7b') :
    ∃ closed, ∀ pair, pair ∈ pairBraces text ∧ pair.opened = o ↔ pair = ⟨o, closed⟩ := by
  have paired : o ∈ (pairBracesFrom 0 [] text).map (·.opened) := by
    rw [mem_map_opened_pairBracesFrom]
    exact .inr ⟨o, h, (Nat.zero_add o).symm⟩
  have distinct : ((pairBracesFrom 0 [] text).map (·.opened)).Nodup :=
    nodup_map_opened_pairBracesFrom List.nodup_nil (by simp) text
  obtain ⟨⟨_, closed⟩, member, rfl⟩ := List.mem_map.mp paired
  refine ⟨closed, fun pair => ?_⟩
  rw [pairBraces, List.mem_mergeSort]
  constructor
  · rintro ⟨found, same⟩
    exact List.inj_on_of_nodup_map distinct found member same
  · rintro rfl
    exact ⟨member, rfl⟩

theorem isClosed_eq_false_iff {pairs : List BracePair} {o : Nat} {closed : Option Nat}
    (h : ∀ pair, pair ∈ pairs ∧ pair.opened = o ↔ pair = ⟨o, closed⟩) :
    isClosed pairs o = false ↔ closed = none := by
  obtain ⟨member, -⟩ := (h ⟨o, closed⟩).mpr rfl
  rw [isClosed, List.any_eq_false]
  constructor
  · intro none
    simpa using none _ member
  · rintro rfl pair inPairs
    by_cases same : pair.opened = o
    · rw [(h pair).mp ⟨inPairs, same⟩]
      simp
    · simp [same]

end LexLint
