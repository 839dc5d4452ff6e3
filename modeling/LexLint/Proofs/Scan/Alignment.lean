import LexLint.Proofs.Scan.WordRuns
import LexLint.Proofs.View.UnclosedString
import LexLint.Scan.Angle
import LexLint.Scan.Bracket

/-!
# One text at two places

Two texts are aligned if one is the other with a blank put before some of its newlines, and each
offset of the one has its place in the other (`Aligned`). A text behind another is aligned with
itself (`Aligned.shift`), and code views of aligned texts are aligned (`Aligned.view`). The scans
for brackets, strings, angle brackets and words find the same in both, each at its place.
-/

namespace LexLint

/-- From an offset on, the second text is the first with a blank before some of its newlines, and
`place` tells where an offset of the first is in the second. -/
inductive Aligned (place : Nat → Nat) : Nat → List Char → List Char → Prop where
  | nil (offset : Nat) : Aligned place offset [] []
  | char {offset : Nat} {t u : List Char} (c : Char) (next : place (offset + 1) = place offset + 1)
      (later : Aligned place (offset + 1) t u) : Aligned place offset (c :: t) (c :: u)
  | newline {offset : Nat} {t u : List Char} {b : Char} (blank : isBlank b = true)
      (sameLine : b ≠ '\n') (next : place (offset + 1) = place offset + 2)
      (later : Aligned place (offset + 1) t u) :
      Aligned place offset ('\n' :: t) (b :: '\n' :: u)

theorem ne_of_isBlank {b c : Char} (blank : isBlank b = true) (visible : isBlank c = false) :
    b ≠ c := by
  rintro rfl
  rw [blank] at visible
  cases visible

/-- A text further on. -/
theorem Aligned.shift (n offset : Nat) (text : List Char) : Aligned (n + ·) offset text text := by
  induction text generalizing offset with
  | nil => exact .nil offset
  | cons c rest ih => exact .char c rfl (ih (offset + 1))

section
variable {place : Nat → Nat} {offset : Nat} {t u : List Char} (aligned : Aligned place offset t u)
include aligned

theorem Aligned.place_stop : place (offset + t.length) = place offset + u.length := by
  induction aligned with
  | nil => rfl
  | @char offset t u c next later ih =>
    have size : offset + (c :: t).length = offset + 1 + t.length := by
      rw [List.length_cons]
      omega
    rw [size, ih, next, List.length_cons]
    omega
  | @newline offset t u b blank sameLine next later ih =>
    have size : offset + ('\n' :: t).length = offset + 1 + t.length := by
      rw [List.length_cons]
      omega
    rw [size, ih, next, List.length_cons, List.length_cons]
    omega

/-- Views of aligned texts are aligned, whatever the lexer reads them in. -/
theorem Aligned.view (s : LexState) : Aligned place offset (s.view t) (s.view u) := by
  induction aligned generalizing s with
  | nil offset => exact .nil offset
  | char c next later ih => exact .char (s.shown c) next (ih (s.read c))
  | newline blank sameLine next later ih =>
    rw [linePass_view.newline, LexState.view, linePass_view.newline]
    refine .newline (LexState.isBlank_shown blank s) ?_ next (ih .start)
    exact fun newline => sameLine (LexState.shown_eq_newline.mp newline)

theorem Aligned.codeView : Aligned place offset (codeView t) (codeView u) := by
  rw [codeView_eq_view, codeView_eq_view]
  exact aligned.view .start

end

/-! ### Brackets -/

theorem Bracket.of_isBlank {b : Char} (blank : isBlank b = true) :
    ofOpener? b = none ∧ ofCloser? b = none := by
  constructor
  · refine Option.eq_none_iff_forall_ne_some.mpr fun bracket opens => ?_
    refine ne_of_isBlank blank ?_ (ofOpener?_eq_some.mp opens)
    cases bracket <;> decide
  · refine Option.eq_none_iff_forall_ne_some.mpr fun bracket closes => ?_
    refine ne_of_isBlank blank ?_ (ofCloser?_eq_some.mp closes)
    cases bracket <;> decide

theorem scanBracketsFrom_blank {b : Char} (blank : isBlank b = true) (offset : Nat)
    (stack : List (Bracket × Nat)) (rest : List Char) :
    scanBracketsFrom offset stack (b :: rest) = scanBracketsFrom (offset + 1) stack rest := by
  obtain ⟨opens, closes⟩ := Bracket.of_isBlank blank
  rw [scanBracketsFrom, opens, closes]

/-- A fault at another place. -/
def BracketEvent.move (place : Nat → Nat) (e : BracketEvent) : BracketEvent :=
  ⟨e.fault, place e.offset⟩

theorem Aligned.scanBracketsFrom {place : Nat → Nat} {offset : Nat} {t u : List Char}
    (aligned : Aligned place offset t u) (stack : List (Bracket × Nat)) :
    scanBracketsFrom (place offset) (stack.map fun s => (s.1, place s.2)) u =
      (scanBracketsFrom offset stack t).map (BracketEvent.move place) := by
  induction aligned generalizing stack with
  | nil =>
    simp only [LexLint.scanBracketsFrom, ← List.map_reverse, List.map_map]
    rfl
  | @char offset t u c next later ih =>
    rw [next] at ih
    simp only [LexLint.scanBracketsFrom]
    cases Bracket.ofOpener? c with
    | some b => exact ih ((b, offset) :: stack)
    | none =>
      cases Bracket.ofCloser? c with
      | none => exact ih stack
      | some b =>
        rcases stack with _ | ⟨⟨opened, o⟩, below⟩
        · simp only [List.map_nil, List.map_cons, ← ih []]
          rfl
        · simp only [List.map_cons]
          split
          · exact ih below
          · simp only [List.map_cons, ← ih below]
            rfl
  | newline blank sameLine next later ih =>
    rw [next] at ih
    rw [scanBracketsFrom_blank blank, scanBracketsFrom_blank isBlank_newline,
      scanBracketsFrom_blank isBlank_newline]
    exact ih stack

/-- Brackets match in aligned texts alike. -/
theorem Aligned.scanBrackets {place : Nat → Nat} {t u : List Char} (aligned : Aligned place 0 t u)
    (start : place 0 = 0) : scanBrackets u = (scanBrackets t).map (BracketEvent.move place) := by
  have same := aligned.scanBracketsFrom []
  rw [start] at same
  exact same

/-! ### Strings -/

namespace StringMode

/-- A mode with its string at another place. -/
def move (place : Nat → Nat) : StringMode → StringMode
  | .string start escaped => .string (place start) escaped
  | mode => mode

theorem next_newline (offset : Nat) (mode : StringMode) : mode.next offset '\n' = .code false := by
  cases mode <;> simp [next]

theorem next_move (place : Nat → Nat) (offset : Nat) (mode : StringMode) (c : Char) :
    (mode.move place).next (place offset) c = (mode.next offset c).move place := by
  cases mode with
  | comment =>
    simp only [move, next]
    split <;> rfl
  | code escaped =>
    simp only [move, next]
    split
    · rfl
    · split
      · rfl
      · split <;> rfl
  | string start escaped =>
    simp only [move, next]
    split
    · rfl
    · split
      · rfl
      · split <;> rfl

theorem starts_unclosedAt_move (place : Nat → Nat) (offset other : Nat) (mode : StringMode) :
    ((mode.move place).unclosedAt other).map (·.start) =
      (mode.unclosedAt offset).map (place ·.start) := by
  cases mode <;> rfl

/-- A blank inside a string leaves it open. -/
theorem starts_unclosedAt_next {b : Char} (blank : isBlank b = true) (sameLine : b ≠ '\n')
    (offset other : Nat) (mode : StringMode) :
    ((mode.next offset b).unclosedAt other).map (·.start) =
      (mode.unclosedAt offset).map (·.start) := by
  have hash := ne_of_isBlank blank (c := '#') (by decide)
  have slash := ne_of_isBlank blank (c := '\\') (by decide)
  have quote := ne_of_isBlank blank (c := '"') (by decide)
  cases mode <;> simp [next, unclosedAt, hash, slash, quote, sameLine]

end StringMode

theorem Aligned.scanUnclosedStringsFrom {place : Nat → Nat} {offset : Nat} {t u : List Char}
    (aligned : Aligned place offset t u) (mode : StringMode) :
    (scanUnclosedStringsFrom (place offset) (mode.move place) u).map (·.start) =
      (scanUnclosedStringsFrom offset mode t).map (place ·.start) := by
  induction aligned generalizing mode with
  | nil offset =>
    rw [scanUnclosedStringsFrom_nil, scanUnclosedStringsFrom_nil]
    exact mode.starts_unclosedAt_move place offset (place offset)
  | @char offset t u c next later ih =>
    rw [scanUnclosedStringsFrom_cons, scanUnclosedStringsFrom_cons, List.map_append,
      List.map_append, ← ih, next, StringMode.next_move]
    congr 1
    split
    · exact mode.starts_unclosedAt_move place offset (place offset)
    · rfl
  | @newline offset t u b blank sameLine next later ih =>
    have open_ := StringMode.starts_unclosedAt_next blank sameLine (place offset)
      (place offset + 1) (mode.move place)
    rw [mode.starts_unclosedAt_move place offset] at open_
    have fresh := ih (.code false)
    rw [next] at fresh
    rw [scanUnclosedStringsFrom_cons, if_neg sameLine, List.nil_append,
      scanUnclosedStringsFrom_cons, if_pos rfl, scanUnclosedStringsFrom_cons, if_pos rfl,
      StringMode.next_newline, StringMode.next_newline, List.map_append, List.map_append, open_]
    exact congrArg _ fresh

/-- Unclosed strings begin at the same places. -/
theorem Aligned.starts_scanUnclosedStrings {place : Nat → Nat} {t u : List Char}
    (aligned : Aligned place 0 t u) (start : place 0 = 0) :
    (scanUnclosedStrings u).map (·.start) = (scanUnclosedStrings t).map (place ·.start) := by
  have same := aligned.scanUnclosedStringsFrom (.code false)
  rw [start] at same
  exact same

/-! ### Angle brackets -/

/-- What stands between angle brackets is the same, and on one line. -/
theorem Aligned.angleInner? {place : Nat → Nat} {offset : Nat} {t u : List Char}
    (aligned : Aligned place offset t u) (limit : Nat) :
    angleInner? limit u = angleInner? limit t ∧ ∀ inner, angleInner? limit t = some inner →
      place (offset + inner.length + 1) = place offset + inner.length + 1 := by
  induction aligned generalizing limit with
  | nil => cases limit <;> exact ⟨rfl, fun inner found => by cases found⟩
  | @char offset t u c next later ih =>
    cases limit with
    | zero => exact ⟨rfl, fun inner found => by cases found⟩
    | succ limit =>
      obtain ⟨same, linear⟩ := ih limit
      simp only [LexLint.angleInner?, same, true_and]
      intro inner found
      split at found
      · obtain rfl := Option.some.inj found
        exact next
      · split at found
        · cases found
        · obtain ⟨tail, within, rfl⟩ := Option.map_eq_some_iff.mp found
          have size : offset + (c :: tail).length + 1 = offset + 1 + tail.length + 1 := by
            rw [List.length_cons]
            omega
          rw [size, linear tail within, next, List.length_cons]
          omega
  | newline blank sameLine next later ih =>
    have opens := ne_of_isBlank blank (c := '<') (by decide)
    have closes := ne_of_isBlank blank (c := '>') (by decide)
    cases limit with
    | zero => exact ⟨rfl, fun inner found => by cases found⟩
    | succ limit => cases limit <;> simp [LexLint.angleInner?, opens, closes, sameLine]

/-- A run in angle brackets at another place. -/
def AngleSpan.move (place : Nat → Nat) (run : AngleSpan) : AngleSpan :=
  ⟨⟨place run.span.start, place run.span.stop⟩, run.inner⟩

theorem Aligned.scanAnglesFrom {place : Nat → Nat} {offset : Nat} {t u : List Char}
    (aligned : Aligned place offset t u) (limit : Nat) :
    scanAnglesFrom limit (place offset) u =
      (scanAnglesFrom limit offset t).map (AngleSpan.move place) := by
  induction aligned with
  | nil => rfl
  | @char offset t u c next later ih =>
    rw [next] at ih
    obtain ⟨same, linear⟩ := later.angleInner? limit
    simp only [LexLint.scanAnglesFrom, same, ih]
    split
    · cases within : LexLint.angleInner? limit t with
      | none => rfl
      | some inner =>
        have size : offset + inner.length + 2 = offset + 1 + inner.length + 1 := by omega
        have stop : place (offset + inner.length + 2) = place offset + inner.length + 2 := by
          rw [size, linear inner within, next]
          omega
        simp only [List.map_cons, AngleSpan.move, stop]
    · rfl
  | newline blank sameLine next later ih =>
    have opens := ne_of_isBlank blank (c := '<') (by decide)
    rw [next] at ih
    simpa [LexLint.scanAnglesFrom, opens] using ih

/-- Runs in angle brackets are the same, each at its place. -/
theorem Aligned.scanAngles {place : Nat → Nat} {t u : List Char} (aligned : Aligned place 0 t u)
    (start : place 0 = 0) (limit : Nat) :
    scanAngles limit u = (scanAngles limit t).map (AngleSpan.move place) := by
  have same := aligned.scanAnglesFrom limit
  rw [start] at same
  exact same

/-! ### Words -/

/-- A word at another place. -/
def Word.move (place : Nat → Nat) (w : Word) : Word := ⟨place w.start, place w.stop, w.text⟩

/-- One word in two aligned texts. -/
structure WordSite.Alike (place : Nat → Nat) (s s' : WordSite) : Prop where
  word : s'.word = s.word.move place
  after : Aligned place s.word.stop s.after s'.after

theorem alike_runSite {place : Nat → Nat} {start stop : Nat} {run : List Char}
    (size : start + run.length = stop) (linear : place start + run.length = place stop)
    {after after' : List Char} (aligned : Aligned place stop after after')
    (before before' : List Char) :
    List.Forall₂ (WordSite.Alike place) (runSite stop before run after)
      (runSite (place stop) before' run after') := by
  unfold runSite
  split
  · exact .nil
  · split
    · refine .cons ⟨?_, aligned⟩ .nil
      simp only [Word.move, Word.mk.injEq, and_true]
      rw [← size, Nat.add_sub_cancel, size, ← linear, Nat.add_sub_cancel]
    · exact .nil

theorem Aligned.scanSitesFrom {place : Nat → Nat} {offset : Nat} {t u : List Char}
    (aligned : Aligned place offset t u) (start : Nat) (run : List Char)
    (size : start + run.length = offset) (linear : place start + run.length = place offset)
    (before before' : List Char) :
    List.Forall₂ (WordSite.Alike place) (scanSitesFrom offset before run t)
      (scanSitesFrom (place offset) before' run u) := by
  induction aligned generalizing start run before before' with
  | nil offset => exact alike_runSite size linear (.nil offset) before before'
  | @char offset t u c next later ih =>
    simp only [LexLint.scanSitesFrom]
    split
    · have longer : start + (c :: run).length = offset + 1 := by
        rw [List.length_cons]
        omega
      have linear' : place start + (c :: run).length = place (offset + 1) := by
        rw [List.length_cons]
        omega
      rw [← next]
      exact ih start (c :: run) longer linear' before before'
    · have behind := ih (offset + 1) [] rfl rfl (c :: (run ++ before))
        (c :: (run ++ before'))
      rw [next] at behind
      exact List.rel_append (alike_runSite size linear (.char c next later) before before') behind
  | @newline offset t u b blank sameLine next later ih =>
    have behind := ih (offset + 1) [] rfl rfl ('\n' :: (run ++ before))
      ('\n' :: b :: (run ++ before'))
    rw [next] at behind
    have here := alike_runSite size linear (.newline blank sameLine next later) before before'
    have newline : isWordChar '\n' = false := by decide
    simp only [LexLint.scanSitesFrom, isWordChar_of_isBlank blank, newline, Bool.false_eq_true,
      if_false, runSite_nil, List.nil_append]
    exact List.rel_append here behind

theorem filterMap_of_forall₂ {α β : Type} {R : α → α → Prop} {f : α → Option β} {g : β → β}
    (same : ∀ a b, R a b → f b = (f a).map g) {xs ys : List α} (h : List.Forall₂ R xs ys) :
    ys.filterMap f = (xs.filterMap f).map g := by
  induction h with
  | nil => rfl
  | @cons a b xs ys related _ ih =>
    rw [List.filterMap_cons, List.filterMap_cons, same a b related, ih]
    cases f a <;> rfl

/-- What is made of words by what follows them is made of aligned texts alike. -/
theorem Aligned.filterMap_scanSites {place : Nat → Nat} {t u : List Char}
    (aligned : Aligned place 0 t u) (start : place 0 = 0) {α : Type} {f : WordSite → Option α}
    {move : α → α} (same : ∀ s s', WordSite.Alike place s s' → f s' = (f s).map move) :
    (scanSites u).filterMap f = ((scanSites t).filterMap f).map move := by
  have sites := aligned.scanSitesFrom 0 [] rfl rfl [] []
  rw [start] at sites
  exact filterMap_of_forall₂ same sites

end LexLint
