import LexLint.Proofs.Scan.Balance
import LexLint.Proofs.Scan.Marks

/-!
# Every bracket is accounted for

`Settles` reads a text bracket by bracket and keeps apart what is found at closing brackets and what
is left open; the scan for brackets lists the one and then the other (`exists_settles`). Each fact
about the faults of a text follows by induction on that reading: their order, what they count, and
that nothing is left open from before a closing bracket that met nothing open
(`bracket_events_account`).
-/

namespace LexLint

/-- Reading a text from an offset on, with some brackets open, finds faults at closing brackets and
leaves brackets open. Open brackets are given latest first. -/
inductive Settles : Nat → List (Bracket × Nat) → List Char → List BracketEvent →
    List (Bracket × Nat) → Prop where
  | stop (offset : Nat) (stack : List (Bracket × Nat)) : Settles offset stack [] [] stack
  | other {offset : Nat} {stack left : List (Bracket × Nat)} {c : Char} {rest : List Char}
      {faults : List BracketEvent} (plain : NoBracket c)
      (later : Settles (offset + 1) stack rest faults left) :
      Settles offset stack (c :: rest) faults left
  | opens {offset : Nat} {stack left : List (Bracket × Nat)} {rest : List Char}
      {faults : List BracketEvent} (b : Bracket)
      (later : Settles (offset + 1) ((b, offset) :: stack) rest faults left) :
      Settles offset stack (b.opener :: rest) faults left
  | closes {offset : Nat} {stack left : List (Bracket × Nat)} {rest : List Char}
      {faults : List BracketEvent} (b : Bracket) (place : Nat)
      (later : Settles (offset + 1) stack rest faults left) :
      Settles offset ((b, place) :: stack) (b.closer :: rest) faults left
  | mismatch {offset : Nat} {stack left : List (Bracket × Nat)} {rest : List Char}
      {faults : List BracketEvent} (b opened : Bracket) (place : Nat)
      (later : Settles (offset + 1) stack rest faults left) :
      Settles offset ((opened, place) :: stack) (b.closer :: rest)
        (⟨.mismatch b opened, offset⟩ :: faults) left
  | unexpected {offset : Nat} {left : List (Bracket × Nat)} {rest : List Char}
      {faults : List BracketEvent} (b : Bracket)
      (later : Settles (offset + 1) [] rest faults left) :
      Settles offset [] (b.closer :: rest) (⟨.unexpected b, offset⟩ :: faults) left

/-- The faults of the brackets left open, in text order. -/
def unclosedEvents (left : List (Bracket × Nat)) : List BracketEvent :=
  left.reverse.map fun b => ⟨.unclosed b.1, b.2⟩

/-- The scan gives the faults at closing brackets, and then what is left open. -/
theorem exists_settles (offset : Nat) (stack : List (Bracket × Nat)) (text : List Char) :
    ∃ faults left, Settles offset stack text faults left ∧
      scanBracketsFrom offset stack text = faults ++ unclosedEvents left := by
  induction text generalizing offset stack with
  | nil => exact ⟨[], stack, .stop offset stack, rfl⟩
  | cons c rest ih =>
    rcases bracket_cases c with ⟨b, rfl⟩ | ⟨b, rfl⟩ | plain
    · obtain ⟨faults, left, later, scanned⟩ := ih (offset + 1) ((b, offset) :: stack)
      exact ⟨faults, left, .opens b later, by rw [scanBracketsFrom_opener, scanned]⟩
    · rcases stack with _ | ⟨⟨opened, place⟩, below⟩
      · obtain ⟨faults, left, later, scanned⟩ := ih (offset + 1) []
        refine ⟨_, left, .unexpected b later, ?_⟩
        rw [scanBracketsFrom_closer_nil, scanned, List.cons_append]
      · obtain ⟨faults, left, later, scanned⟩ := ih (offset + 1) below
        rw [scanBracketsFrom_closer_cons, scanned]
        by_cases fits : opened = b
        · subst fits
          exact ⟨faults, left, .closes opened place later, by rw [if_pos rfl, List.nil_append]⟩
        · refine ⟨_, left, .mismatch b opened place later, ?_⟩
          rw [if_neg fits, List.singleton_append, List.cons_append]
    · obtain ⟨faults, left, later, scanned⟩ := ih (offset + 1) stack
      exact ⟨faults, left, .other plain later, by rw [scanBracketsFrom_other _ _ _ plain, scanned]⟩

/-! ### How many -/

/-- The number of opening brackets of a text. -/
def openers (text : List Char) : Nat := text.countP fun c => (Bracket.ofOpener? c).isSome

/-- The number of closing brackets of a text. -/
def closers (text : List Char) : Nat := text.countP fun c => (Bracket.ofCloser? c).isSome

/-- The number of faults of a kind. -/
def countKind (kind : String) (events : List BracketEvent) : Nat :=
  events.countP fun e => e.kind = kind

theorem countKind_cons (kind : String) (e : BracketEvent) (events : List BracketEvent) :
    countKind kind (e :: events) = countKind kind events + if e.kind = kind then 1 else 0 := by
  rw [countKind, List.countP_cons, countKind]
  simp only [decide_eq_true_eq]

theorem countKind_append (kind : String) (first second : List BracketEvent) :
    countKind kind (first ++ second) = countKind kind first + countKind kind second :=
  List.countP_append

theorem countKind_eq_zero {kind : String} {events : List BracketEvent}
    (h : ∀ e ∈ events, e.kind ≠ kind) : countKind kind events = 0 :=
  List.countP_eq_zero.mpr fun e he => by simpa using h e he

section
variable (b : Bracket) (rest : List Char)

theorem openers_opener : openers (b.opener :: rest) = openers rest + 1 := by
  cases b <;> exact List.countP_cons_of_pos rfl

theorem openers_closer : openers (b.closer :: rest) = openers rest := by
  cases b <;> exact List.countP_cons_of_neg (by decide)

theorem closers_opener : closers (b.opener :: rest) = closers rest := by
  cases b <;> exact List.countP_cons_of_neg (by decide)

theorem closers_closer : closers (b.closer :: rest) = closers rest + 1 := by
  cases b <;> exact List.countP_cons_of_pos rfl

end

theorem NoBracket.openers_cons {c : Char} (plain : NoBracket c) (rest : List Char) :
    openers (c :: rest) = openers rest := by
  apply List.countP_cons_of_neg
  intro opens
  obtain ⟨b, found⟩ := Option.isSome_iff_exists.mp opens
  exact (plain b).1 (Bracket.ofOpener?_eq_some.mp found)

theorem NoBracket.closers_cons {c : Char} (plain : NoBracket c) (rest : List Char) :
    closers (c :: rest) = closers rest := by
  apply List.countP_cons_of_neg
  intro closes
  obtain ⟨b, found⟩ := Option.isSome_iff_exists.mp closes
  exact (plain b).2 (Bracket.ofCloser?_eq_some.mp found)

section
variable {offset : Nat} {stack left : List (Bracket × Nat)} {text : List Char}
  {faults : List BracketEvent}

/-- What is opened is closed or left open, and what is closed was opened or is unexpected. A
mismatch closes what it meets, and so does not show here. -/
theorem Settles.openers_add (h : Settles offset stack text faults left) :
    stack.length + openers text + countKind "unexpected" faults = left.length + closers text := by
  induction h with
  | stop offset stack => rfl
  | other plain later ih => rw [plain.openers_cons, plain.closers_cons, ih]
  | opens b later ih =>
    rw [List.length_cons] at ih
    rw [openers_opener, closers_opener]
    omega
  | closes b place later ih =>
    rw [List.length_cons, openers_closer, closers_closer]
    omega
  | mismatch b opened place later ih =>
    rw [List.length_cons, openers_closer, closers_closer, countKind_cons]
    simp only [BracketEvent.kind, String.reduceEq, if_false]
    omega
  | unexpected b later ih =>
    rw [openers_closer, closers_closer, countKind_cons]
    simp only [BracketEvent.kind, if_true]
    omega

/-- Each closing bracket has one fault at most. -/
theorem Settles.countKind_le (h : Settles offset stack text faults left) :
    countKind "mismatch" faults + countKind "unexpected" faults ≤ closers text := by
  induction h with
  | stop offset stack => exact Nat.le_refl 0
  | other plain later ih => rwa [plain.closers_cons]
  | opens b later ih => rwa [closers_opener]
  | closes b place later ih =>
    rw [closers_closer]
    omega
  | mismatch b opened place later ih =>
    rw [closers_closer, countKind_cons, countKind_cons]
    simp only [BracketEvent.kind, String.reduceEq, if_true, if_false]
    omega
  | unexpected b later ih =>
    rw [closers_closer, countKind_cons, countKind_cons]
    simp only [BracketEvent.kind, String.reduceEq, if_true, if_false]
    omega

/-! ### In which order -/

theorem Settles.kind_eq (h : Settles offset stack text faults left) :
    ∀ e ∈ faults, e.kind = "mismatch" ∨ e.kind = "unexpected" := by
  induction h with
  | stop offset stack => simp
  | other _ _ ih | opens _ _ ih | closes _ _ _ ih => exact ih
  | mismatch b opened place later ih => exact List.forall_mem_cons.mpr ⟨.inl rfl, ih⟩
  | unexpected b later ih => exact List.forall_mem_cons.mpr ⟨.inr rfl, ih⟩

theorem Settles.le_offset (h : Settles offset stack text faults left) :
    ∀ e ∈ faults, offset ≤ e.offset := by
  induction h with
  | stop offset stack => simp
  | other _ _ ih | opens _ _ ih | closes _ _ _ ih =>
    intro e he
    exact Nat.le_of_succ_le (ih e he)
  | mismatch _ _ _ _ ih | unexpected _ _ ih =>
    exact List.forall_mem_cons.mpr ⟨Nat.le_refl _, fun e he => Nat.le_of_succ_le (ih e he)⟩

/-- Faults at closing brackets are found in text order. -/
theorem Settles.faults_ordered (h : Settles offset stack text faults left) :
    faults.Pairwise fun a b => a.offset < b.offset := by
  induction h with
  | stop offset stack => exact .nil
  | other _ _ ih | opens _ _ ih | closes _ _ _ ih => exact ih
  | mismatch _ _ _ later ih | unexpected _ later ih =>
    exact List.pairwise_cons.mpr ⟨later.le_offset, ih⟩

/-- What is left open was open before or is opened in the text. -/
theorem Settles.mem_left (h : Settles offset stack text faults left) :
    ∀ b ∈ left, b ∈ stack ∨ offset ≤ b.2 := by
  induction h with
  | stop offset stack =>
    intro b hb
    exact .inl hb
  | other _ _ ih | unexpected _ _ ih =>
    intro b hb
    exact (ih b hb).imp_right Nat.le_of_succ_le
  | opens kind later ih =>
    intro b hb
    rcases ih b hb with inStack | behind
    · rcases List.mem_cons.mp inStack with rfl | earlier
      · exact .inr (Nat.le_refl _)
      · exact .inl earlier
    · exact .inr (Nat.le_of_succ_le behind)
  | closes _ _ _ ih | mismatch _ _ _ _ ih =>
    intro b hb
    exact (ih b hb).imp (List.mem_cons_of_mem _) Nat.le_of_succ_le

/-- Brackets are left open in the order in which they are opened, latest first. -/
theorem Settles.left_ordered (h : Settles offset stack text faults left)
    (earlier : ∀ b ∈ stack, b.2 < offset) (ordered : stack.Pairwise fun a b => b.2 < a.2) :
    left.Pairwise fun a b => b.2 < a.2 := by
  induction h with
  | stop offset stack => exact ordered
  | other _ _ ih | unexpected _ _ ih =>
    exact ih (fun b hb => Nat.lt_succ_of_lt (earlier b hb)) ordered
  | opens kind later ih =>
    apply ih
    · exact List.forall_mem_cons.mpr
        ⟨Nat.lt_succ_self _, fun b hb => Nat.lt_succ_of_lt (earlier b hb)⟩
    · exact List.pairwise_cons.mpr ⟨earlier, ordered⟩
  | closes _ _ _ ih | mismatch _ _ _ _ ih =>
    have below := (List.forall_mem_cons.mp earlier).2
    exact ih (fun b hb => Nat.lt_succ_of_lt (below b hb)) (List.pairwise_cons.mp ordered).2

/-- A closing bracket that met nothing open stands before all that is left open. -/
theorem Settles.unexpected_lt (h : Settles offset stack text faults left) :
    ∀ e ∈ faults, e.kind = "unexpected" → ∀ b ∈ left, e.offset < b.2 := by
  induction h with
  | stop offset stack => simp
  | other _ _ ih | opens _ _ ih | closes _ _ _ ih => exact ih
  | mismatch kind opened place later ih =>
    refine List.forall_mem_cons.mpr ⟨fun unexpected => ?_, ih⟩
    simp [BracketEvent.kind] at unexpected
  | unexpected kind later ih =>
    refine List.forall_mem_cons.mpr ⟨fun _ b hb => ?_, ih⟩
    -- Nothing was open, so what is left open comes later.
    rcases later.mem_left b hb with inStack | behind
    · cases inStack
    · exact behind

end

/-! ### What the scan reports -/

theorem kind_unclosedEvents (left : List (Bracket × Nat)) :
    ∀ e ∈ unclosedEvents left, e.kind = "unclosed" := by
  intro e he
  obtain ⟨b, -, rfl⟩ := List.mem_map.mp he
  rfl

theorem countKind_unclosedEvents (left : List (Bracket × Nat)) :
    countKind "unclosed" (unclosedEvents left) = left.length := by
  rw [countKind, List.countP_eq_length.mpr]
  · rw [unclosedEvents, List.length_map, List.length_reverse]
  · intro e he
    exact decide_eq_true (kind_unclosedEvents left e he)

theorem unclosedEvents_ordered {left : List (Bracket × Nat)}
    (h : left.Pairwise fun a b => b.2 < a.2) :
    (unclosedEvents left).Pairwise fun a b => a.offset < b.offset := by
  rw [unclosedEvents, List.pairwise_map, List.pairwise_reverse]
  exact h

theorem BracketEvent.opener_of_unclosed {e : BracketEvent} (h : e.kind = "unclosed") :
    ∃ b : Bracket, e.char = b.opener := by
  obtain ⟨fault, offset⟩ := e
  cases fault with
  | mismatch found expected => simp [kind] at h
  | unexpected found => simp [kind] at h
  | unclosed opened => exact ⟨opened, rfl⟩

theorem BracketEvent.closer_of_ne_unclosed {e : BracketEvent} (h : e.kind ≠ "unclosed") :
    ∃ b : Bracket, e.char = b.closer := by
  obtain ⟨fault, offset⟩ := e
  cases fault with
  | mismatch found expected => exact ⟨found, rfl⟩
  | unexpected found => exact ⟨found, rfl⟩
  | unclosed opened => exact absurd rfl h

theorem Bracket.opener_ne_closer (b b' : Bracket) : b.opener ≠ b'.closer := by
  cases b <;> cases b' <;> decide

/-- One bracket is not at fault both for closing and for being left open. -/
theorem offset_ne_of_kind {text : List Char} {e f : BracketEvent} (he : e ∈ scanBrackets text)
    (hf : f ∈ scanBrackets text) (closing : e.kind ≠ "unclosed") (opening : f.kind = "unclosed") :
    e.offset ≠ f.offset := by
  intro same
  obtain ⟨b, closer⟩ := e.closer_of_ne_unclosed closing
  obtain ⟨b', opener⟩ := f.opener_of_unclosed opening
  have found := getElem?_of_mem_scanBrackets he
  rw [same, getElem?_of_mem_scanBrackets hf, closer, opener] at found
  exact b'.opener_ne_closer b (Option.some.inj found)

/-- **The faults of a text account for all its brackets.** Faults of closing brackets come first,
unclosed brackets behind them, both in text order; no bracket is at fault twice, and each is the
character at its offset. The opening brackets that are closed are as many as the closing ones that
close something, and the mismatches are among them. What closed nothing stands before all that is
left open. -/
theorem bracket_events_account (text : List Char) :
    ∃ closing unclosed, scanBrackets text = closing ++ unclosed ∧
      (∀ e ∈ closing, e.kind = "mismatch" ∨ e.kind = "unexpected") ∧
      (∀ e ∈ unclosed, e.kind = "unclosed") ∧
      (closing.Pairwise fun a b => a.offset < b.offset) ∧
      (unclosed.Pairwise fun a b => a.offset < b.offset) ∧
      ((scanBrackets text).map (·.offset)).Nodup ∧
      (∀ e ∈ scanBrackets text, text[e.offset]? = some e.char) ∧
      (openers text - countKind "unclosed" (scanBrackets text) : Int) =
        closers text - countKind "unexpected" (scanBrackets text) ∧
      (countKind "mismatch" (scanBrackets text) : Int) ≤
        closers text - countKind "unexpected" (scanBrackets text) ∧
      ∀ e ∈ closing, e.kind = "unexpected" → ∀ f ∈ unclosed, e.offset < f.offset := by
  obtain ⟨faults, left, settles, scanned⟩ := exists_settles 0 [] text
  change scanBrackets text = faults ++ unclosedEvents left at scanned
  have closing : ∀ e ∈ faults, e.kind ≠ "unclosed" := by
    intro e he unclosed
    rcases settles.kind_eq e he with kind | kind <;> simp [kind] at unclosed
  have opening := kind_unclosedEvents left
  have ordered := settles.faults_ordered
  have openOrdered := unclosedEvents_ordered (settles.left_ordered (by simp) .nil)
  have unclosedCount : countKind "unclosed" (scanBrackets text) = left.length := by
    rw [scanned, countKind_append, countKind_eq_zero closing, countKind_unclosedEvents,
      Nat.zero_add]
  have closingCount (kind : String) (other : "unclosed" ≠ kind) :
      countKind kind (scanBrackets text) = countKind kind faults := by
    rw [scanned, countKind_append,
      countKind_eq_zero fun e he same => other ((opening e he).symm.trans same), Nat.add_zero]
  have balance := settles.openers_add
  have bound := settles.countKind_le
  rw [List.length_nil] at balance
  rw [unclosedCount, closingCount "unexpected" (by decide), closingCount "mismatch" (by decide)]
  refine ⟨faults, unclosedEvents left, scanned, settles.kind_eq, opening, ordered, openOrdered, ?_,
    fun e he => getElem?_of_mem_scanBrackets he, by omega, by omega, ?_⟩
  · have strict {events : List BracketEvent}
        (h : events.Pairwise fun a b => a.offset < b.offset) : (events.map (·.offset)).Nodup :=
      List.pairwise_map.mpr (h.imp Nat.ne_of_lt)
    rw [scanned, List.map_append, List.nodup_append]
    refine ⟨strict ordered, strict openOrdered, fun a ha b hb => ?_⟩
    obtain ⟨e, he, rfl⟩ := List.mem_map.mp ha
    obtain ⟨f, hf, rfl⟩ := List.mem_map.mp hb
    have inEvents : e ∈ scanBrackets text := scanned ▸ List.mem_append_left _ he
    have alsoInEvents : f ∈ scanBrackets text := scanned ▸ List.mem_append_right _ hf
    exact offset_ne_of_kind inEvents alsoInEvents (closing e he) (opening f hf)
  · intro e he unexpected f hf
    obtain ⟨b, member, rfl⟩ := List.mem_map.mp hf
    exact settles.unexpected_lt e he unexpected b (List.mem_reverse.mp member)

/-- A closing bracket with nothing open, one that meets another kind, and two left open. -/
example : scanBrackets ")(]\x7b[".toList =
    [⟨.unexpected .round, 0⟩, ⟨.mismatch .square .round, 2⟩, ⟨.unclosed .curly, 3⟩,
      ⟨.unclosed .square, 4⟩] := by
  decide

end LexLint
