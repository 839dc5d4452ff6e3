import LexLint.Proofs.Scan.Alignment
import LexLint.Proofs.Scan.Occurrence

/-!
# Headers in aligned texts

A pattern finds the same in aligned texts, each at its place, if it is recognised alike in both and
at no blank (`AlignedPattern.map_findAll`). The patterns of declarations are of this kind, and what
a text declares is told by any text that is aligned with it (`declaredIn_of_aligned`).
-/

namespace LexLint

/-- Two ends of aligned texts, by the offset at which they stop. -/
def AlignedTo (place : Nat → Nat) (stop : Nat) (t u : List Char) : Prop :=
  ∃ offset, offset + t.length = stop ∧ Aligned place offset t u

theorem Aligned.to {place : Nat → Nat} {offset : Nat} {t u : List Char}
    (aligned : Aligned place offset t u) : AlignedTo place (offset + t.length) t u :=
  ⟨offset, rfl, aligned⟩

/-- What stops where the rest of a text does stops where the text does. -/
theorem AlignedTo.of_tail {place : Nat → Nat} {offset : Nat} {c : Char} {t x y : List Char}
    (h : AlignedTo place (offset + 1 + t.length) x y) :
    AlignedTo place (offset + (c :: t).length) x y := by
  have size : offset + (c :: t).length = offset + 1 + t.length := by
    rw [List.length_cons]
    omega
  rwa [size]

section
variable {place : Nat → Nat} {offset : Nat} {t u : List Char} {p : Char → Bool}

/-- Blanks are all passed over, or none is. -/
theorem Aligned.dropWhile (aligned : Aligned place offset t u) {passed : Bool}
    (uniform : ∀ b, isBlank b = true → p b = passed) :
    AlignedTo place (offset + t.length) (t.dropWhile p) (u.dropWhile p) := by
  induction aligned with
  | nil offset => exact (Aligned.nil offset).to
  | char c next later ih =>
    rw [List.dropWhile_cons, List.dropWhile_cons]
    split
    · exact ih.of_tail
    · exact (Aligned.char c next later).to
  | newline blank sameLine next later ih =>
    have first := uniform _ blank
    have second := uniform '\n' isBlank_newline
    cases passed with
    | true =>
      rw [List.dropWhile_cons_of_pos second, List.dropWhile_cons_of_pos first,
        List.dropWhile_cons_of_pos second]
      exact ih.of_tail
    | false =>
      rw [List.dropWhile_cons_of_neg (by simp [second]),
        List.dropWhile_cons_of_neg (by simp [first])]
      exact (Aligned.newline blank sameLine next later).to

theorem Aligned.takeWhile (aligned : Aligned place offset t u) {passed : Bool}
    (uniform : ∀ b, isBlank b = true → p b = passed) :
    Aligned place offset (t.takeWhile p) (u.takeWhile p) := by
  induction aligned with
  | nil offset => exact .nil offset
  | char c next later ih =>
    cases passes : p c with
    | true => simpa [passes] using Aligned.char c next ih
    | false => simpa [passes] using Aligned.nil _
  | newline blank sameLine next later ih =>
    have first := uniform _ blank
    have second := uniform '\n' isBlank_newline
    cases passed with
    | true => simpa [first, second] using Aligned.newline blank sameLine next ih
    | false => simpa [first, second] using Aligned.nil _

theorem Aligned.takeWhile_word (aligned : Aligned place offset t u) :
    u.takeWhile isWordChar = t.takeWhile isWordChar := by
  induction aligned with
  | nil => rfl
  | char c next later ih =>
    rw [List.takeWhile_cons, List.takeWhile_cons, ih]
  | newline blank sameLine next later ih =>
    have first := isWordChar_of_isBlank blank
    have second := isWordChar_of_isBlank isBlank_newline
    rw [List.takeWhile_cons_of_neg (by simp [first]), List.takeWhile_cons_of_neg (by simp [second])]

end

theorem identifier?_of_isBlank {b : Char} (blank : isBlank b = true) (rest : List Char) :
    identifier? (b :: rest) = none := by
  have noStart : isWordStart b ≠ true := by
    intro start
    have word := isWordChar_of_isWordStart start
    rw [isWordChar_of_isBlank blank] at word
    cases word
  rw [identifier?, if_neg noStart]

namespace AlignedTo

variable {place : Nat → Nat} {stop : Nat} {t u : List Char}

theorem trimStart (h : AlignedTo place stop t u) :
    AlignedTo place stop (trimStart t) (trimStart u) := by
  obtain ⟨offset, rfl, aligned⟩ := h
  exact aligned.dropWhile fun _ blank => blank

theorem afterLiteral? (h : AlignedTo place stop t u) (literal : List Char)
    (visible : literal.any isBlank = false) :
    Option.Rel (AlignedTo place stop) (afterLiteral? literal t) (afterLiteral? literal u) := by
  induction literal generalizing t u with
  | nil => exact .some h
  | cons p ps ih =>
    obtain ⟨visibleP, visibleRest⟩ := Bool.or_eq_false_iff.mp (List.any_cons ▸ visible)
    obtain ⟨offset, rfl, aligned⟩ := h
    cases aligned with
    | nil => exact .none
    | char c next later =>
      simp only [LexLint.afterLiteral?]
      split
      · exact ih later.to.of_tail visibleRest
      · exact .none
    | newline blank sameLine next later =>
      have first : p ≠ '\n' := (ne_of_isBlank isBlank_newline visibleP).symm
      have second := (ne_of_isBlank blank visibleP).symm
      simp only [LexLint.afterLiteral?, if_neg first, if_neg second]
      exact .none

theorem afterBlanks? (h : AlignedTo place stop t u) :
    Option.Rel (AlignedTo place stop) (afterBlanks? t) (afterBlanks? u) := by
  obtain ⟨offset, rfl, aligned⟩ := h
  have rest := aligned.to.trimStart
  cases aligned with
  | nil => exact .none
  | char c next later =>
    simp only [LexLint.afterBlanks?]
    split
    · rename_i blank
      simp only [LexLint.trimStart, List.dropWhile_cons, blank, if_true] at rest
      exact .some rest
    · exact .none
  | newline blank sameLine next later =>
    simp only [LexLint.afterBlanks?, isBlank_newline, blank, if_true]
    simp only [LexLint.trimStart, List.dropWhile_cons, isBlank_newline, blank, if_true] at rest
    refine .some ?_
    simpa only [LexLint.trimStart, List.dropWhile_cons, isBlank_newline, if_true] using rest

theorem identifier? (h : AlignedTo place stop t u) :
    Option.Rel (fun r r' => r'.1 = r.1 ∧ AlignedTo place stop r.2 r'.2) (identifier? t)
      (identifier? u) := by
  obtain ⟨offset, rfl, aligned⟩ := h
  cases aligned with
  | nil => exact .none
  | char c next later =>
    simp only [LexLint.identifier?]
    split
    · have rest := later.dropWhile fun _ => isWordChar_of_isBlank
      exact .some ⟨congrArg (c :: ·) later.takeWhile_word, rest.of_tail⟩
    · exact .none
  | newline blank sameLine next later =>
    rw [identifier?_of_isBlank blank, identifier?_of_isBlank isBlank_newline]
    exact .none

end AlignedTo

/-! ### Patterns -/

theorem rel_bind {α β γ δ : Type} {r : α → β → Prop} {s : γ → δ → Prop} {a : Option α}
    {b : Option β} {f : α → Option γ} {g : β → Option δ} (h : Option.Rel r a b)
    (next : ∀ x y, r x y → Option.Rel s (f x) (g y)) : Option.Rel s (a.bind f) (b.bind g) := by
  cases h with
  | none => exact .none
  | some related => exact next _ _ related

theorem rel_or {α β : Type} {r : α → β → Prop} {a c : Option α} {b d : Option β}
    (h : Option.Rel r a b) (other : Option.Rel r c d) : Option.Rel r (a.or c) (b.or d) := by
  cases h with
  | none => exact other
  | some related => exact .some related

theorem rel_cases {α β : Type} {r : α → β → Prop} {a : Option α} {b : Option β}
    (h : Option.Rel r a b) :
    (a = none ∧ b = none) ∨ ∃ x y, a = some x ∧ b = some y ∧ r x y := by
  cases h with
  | none => exact .inl ⟨rfl, rfl⟩
  | some related => exact .inr ⟨_, _, rfl, rfl, related⟩

/-- A pattern that is recognised at no blank, takes something, and is recognised alike in aligned
texts; `key` is what is compared of what it captures. -/
structure AlignedPattern {α β : Type} (place : Nat → Nat) (recognise : Recogniser α)
    (key : α → β) : Prop where
  blank : ∀ {b rest}, isBlank b = true → recognise (b :: rest) = none
  shorter : ∀ {s value after}, recognise s = some (value, after) → after.length < s.length
  alike : ∀ {stop t u}, AlignedTo place stop t u →
    Option.Rel (fun r r' => key r'.1 = key r.1 ∧ AlignedTo place stop r.2 r'.2) (recognise t)
      (recognise u)

theorem afterLiteral?_of_isBlank {p b : Char} (blank : isBlank b = true)
    (visible : isBlank p = false) (ps rest : List Char) :
    afterLiteral? (p :: ps) (b :: rest) = none := by
  rw [afterLiteral?, if_neg (ne_of_isBlank blank visible).symm]

/-- What follows an assignment, `=` or `:=`. -/
def afterAssign? (s : List Char) : Option (List Char) :=
  (afterLiteral? ['='] s).or (afterLiteral? [':', '='] s)

theorem letHeader_eq (s : List Char) : letHeader s =
    (afterLiteral? ['l', 'e', 't', '$'] s).bind fun afterLet =>
      (identifier? (trimStart afterLet)).bind fun r =>
        (afterAssign? (trimStart r.2)).bind fun rest => some (String.ofList r.1, rest) := by
  simp only [letHeader, Option.bind_eq_bind]
  congr 1
  funext afterLet
  congr 1
  funext r
  rcases trimStart r.2 with _ | ⟨c, rest⟩
  · rfl
  · by_cases equals : c = '='
    · subst equals
      rfl
    · have first : afterLiteral? ['='] (c :: rest) = none := by simp [afterLiteral?, Ne.symm equals]
      rw [afterAssign?, first, Option.none_or]
      by_cases colon : c = ':'
      · subst colon
        rcases rest with _ | ⟨d, rest⟩
        · rfl
        · by_cases second : d = '='
          · subst second
            rfl
          · simp [afterLiteral?, second, Ne.symm second]
      · simp [afterLiteral?, equals, colon, Ne.symm colon]

theorem funcHeader_eq (s : List Char) : funcHeader s =
    (afterLiteral? ['f', 'u', 'n', 'c', '$'] s).bind fun afterFunc =>
      (afterBlanks? afterFunc).bind fun afterGap =>
        (identifier? afterGap).bind fun r =>
          (afterLiteral? ['('] (trimStart r.2)).bind fun list =>
            (afterLiteral? [')'] (list.dropWhile (· != ')'))).bind fun rest =>
              some (⟨String.ofList r.1, list.takeWhile (· != ')')⟩, rest) := by
  simp only [funcHeader, Option.bind_eq_bind]
  congr 1
  funext afterFunc
  congr 1
  funext afterGap
  congr 1
  funext r
  rcases trimStart r.2 with _ | ⟨c, list⟩
  · rfl
  · by_cases opens : c = '('
    · subst opens
      simp only [afterLiteral?, if_true, Option.bind_some]
      rcases list.dropWhile (· != ')') with _ | ⟨d, rest⟩
      · rfl
      · by_cases closes : d = ')'
        · subst closes
          rfl
        · simp [afterLiteral?, closes, Ne.symm closes]
    · simp [afterLiteral?, opens, Ne.symm opens]

theorem classHeader_eq (s : List Char) : classHeader s =
    (afterLiteral? ['c', 'l', 'a', 's', 's', '$'] s).bind fun afterClass =>
      (afterBlanks? afterClass).bind fun afterGap =>
        (identifier? afterGap).bind fun r => some (String.ofList r.1, r.2) :=
  rfl

theorem AlignedTo.afterAssign? {place : Nat → Nat} {stop : Nat} {t u : List Char}
    (h : AlignedTo place stop t u) :
    Option.Rel (AlignedTo place stop) (afterAssign? t) (afterAssign? u) := by
  have equals := h.afterLiteral? ['='] (by decide)
  have walrus := h.afterLiteral? [':', '='] (by decide)
  exact rel_or equals walrus

theorem alignedPattern_letHeader (place : Nat → Nat) : AlignedPattern place letHeader id where
  blank := fun blank => by
    rw [letHeader_eq, afterLiteral?_of_isBlank blank (by decide)]
    rfl
  shorter := fun found => by
    obtain ⟨covered, written, rfl⟩ := letHeader_eq_some.mp found
    obtain ⟨tail, rfl, -⟩ := written.exists_split
    simp
    omega
  alike := fun aligned => by
    simp only [letHeader_eq]
    refine rel_bind (aligned.afterLiteral? _ (by decide)) fun t u later => ?_
    refine rel_bind later.trimStart.identifier? fun r r' same => ?_
    refine rel_bind same.2.trimStart.afterAssign? fun rest rest' aligned => ?_
    exact .some ⟨congrArg String.ofList same.1, aligned⟩

theorem alignedPattern_classHeader (place : Nat → Nat) :
    AlignedPattern place classHeader id where
  blank := fun blank => by
    rw [classHeader_eq, afterLiteral?_of_isBlank blank (by decide)]
    rfl
  shorter := fun found => by
    obtain ⟨blanks, -, rfl⟩ := classHeader_eq_some found
    simp
    omega
  alike := fun aligned => by
    simp only [classHeader_eq]
    refine rel_bind (aligned.afterLiteral? _ (by decide)) fun t u later => ?_
    refine rel_bind later.afterBlanks? fun t u later => ?_
    refine rel_bind later.identifier? fun r r' same => ?_
    exact .some ⟨congrArg String.ofList same.1, same.2⟩

theorem firstIdentifier?_of_isBlank {b : Char} (blank : isBlank b = true) (rest : List Char) :
    firstIdentifier? (b :: rest) = firstIdentifier? rest := by
  rw [firstIdentifier?, identifier?_of_isBlank blank]

/-- The first identifier of a text is that of an aligned one. -/
theorem Aligned.firstIdentifier?_eq {place : Nat → Nat} {offset : Nat} {t u : List Char}
    (aligned : Aligned place offset t u) : firstIdentifier? u = firstIdentifier? t := by
  induction aligned with
  | nil => rfl
  | char c next later ih =>
    simp only [firstIdentifier?, identifier?, later.takeWhile_word, ih]
    cases isWordStart c <;> rfl
  | newline blank sameLine next later ih =>
    rw [firstIdentifier?_of_isBlank blank, firstIdentifier?_of_isBlank isBlank_newline,
      firstIdentifier?_of_isBlank isBlank_newline, ih]

/-- The pieces between commas: the first ones are aligned, and the others hold the same names. -/
theorem Aligned.exists_splitAtChar {place : Nat → Nat} {offset : Nat} {t u : List Char}
    (aligned : Aligned place offset t u) :
    ∃ first more first' more', splitAtChar ',' t = first :: more ∧
      splitAtChar ',' u = first' :: more' ∧ Aligned place offset first first' ∧
      more'.filterMap firstIdentifier? = more.filterMap firstIdentifier? := by
  induction aligned with
  | nil offset => exact ⟨[], [], [], [], rfl, rfl, .nil offset, rfl⟩
  | @char offset t u c next later ih =>
    obtain ⟨first, more, first', more', split, split', pieces, names⟩ := ih
    by_cases comma : c = ','
    · subst comma
      refine ⟨[], _, [], _, splitAtChar_cons_self ',' t, splitAtChar_cons_self ',' u, .nil offset,
        ?_⟩
      rw [split, split', List.filterMap_cons, List.filterMap_cons, pieces.firstIdentifier?_eq,
        names]
    · exact ⟨c :: first, more, c :: first', more', splitAtChar_cons_of_ne comma split,
        splitAtChar_cons_of_ne comma split', .char c next pieces, names⟩
  | @newline offset t u b blank sameLine next later ih =>
    obtain ⟨first, more, first', more', split, split', pieces, names⟩ := ih
    have noComma : b ≠ ',' := ne_of_isBlank blank (by decide)
    have line : '\n' ≠ ',' := by decide
    exact ⟨'\n' :: first, more, b :: '\n' :: first', more', splitAtChar_cons_of_ne line split,
      splitAtChar_cons_of_ne noComma (splitAtChar_cons_of_ne line split'),
      .newline blank sameLine next pieces, names⟩

theorem Aligned.funcNames_eq {place : Nat → Nat} {offset : Nat} {t u : List Char}
    (aligned : Aligned place offset t u) (name : String) :
    Undeclared.funcNames ⟨name, u⟩ = Undeclared.funcNames ⟨name, t⟩ := by
  obtain ⟨first, more, first', more', split, split', pieces, names⟩ := aligned.exists_splitAtChar
  simp only [Undeclared.funcNames, split, split', List.filterMap_cons, pieces.firstIdentifier?_eq,
    names]

theorem alignedPattern_funcHeader (place : Nat → Nat) :
    AlignedPattern place funcHeader fun h => (h.name, Undeclared.funcNames h) where
  blank := fun blank => by
    rw [funcHeader_eq, afterLiteral?_of_isBlank blank (by decide)]
    rfl
  shorter := fun found => by
    obtain ⟨blanks, gap, -, rfl⟩ := funcHeader_eq_some found
    simp
    omega
  alike := fun aligned => by
    have passed (b : Char) (blank : isBlank b = true) : (b != ')') = true :=
      bne_iff_ne.mpr (ne_of_isBlank blank (by decide))
    simp only [funcHeader_eq]
    refine rel_bind (aligned.afterLiteral? _ (by decide)) fun t u later => ?_
    refine rel_bind later.afterBlanks? fun t u later => ?_
    refine rel_bind later.identifier? fun r r' same => ?_
    refine rel_bind (same.2.trimStart.afterLiteral? _ (by decide)) fun list list' params => ?_
    obtain ⟨offset, rfl, params⟩ := params
    refine rel_bind ((params.dropWhile passed).afterLiteral? _ (by decide)) fun _ _ rest => ?_
    refine .some ⟨?_, rest⟩
    simp only [same.1, (params.takeWhile passed).funcNames_eq]

/-! ### Occurrences -/

theorem findAllFrom_of_none {α : Type} {recognise : Recogniser α} {c : Char} {rest : List Char}
    (none : recognise (c :: rest) = none) (edge : Bool) (offset : Nat) (before : Option Char) :
    findAllFrom edge recognise offset before 0 (c :: rest) =
      findAllFrom edge recognise (offset + 1) (some c) 0 rest := by
  rw [findAllFrom, none, ite_self]

/-- What is taken from one text has its place in the other. -/
theorem Aligned.place_taken {place : Nat → Nat} {offset : Nat} {t u after after' : List Char}
    (aligned : Aligned place offset t u) (rest : AlignedTo place (offset + t.length) after after')
    (taken : after.length ≤ t.length) (taken' : after'.length ≤ u.length) :
    place (offset + (t.length - after.length)) = place offset + (u.length - after'.length) := by
  obtain ⟨start, size, later⟩ := rest
  have whole := aligned.place_stop
  have part := later.place_stop
  have same : offset + (t.length - after.length) = start := by omega
  rw [size] at part
  rw [same]
  omega

section
variable {α β : Type} {place : Nat → Nat} {recognise : Recogniser α} {key : α → β}
  (pattern : AlignedPattern place recognise key) (mono : StrictMono place)
include pattern mono

/-- The characters passed over are those of the occurrence last found, in both texts. -/
theorem AlignedPattern.findAllFrom {offset : Nat} {t u : List Char}
    (aligned : Aligned place offset t u) (edge : Bool) {before before' : Option Char}
    (edges : atWordEdge before' = atWordEdge before) {skip skip' : Nat}
    (skips : place (offset + skip) = place offset + skip') :
    (findAllFrom edge recognise (place offset) before' skip' u).map
        (fun m => (m.start, m.stop, key m.value)) =
      (findAllFrom edge recognise offset before skip t).map
        fun m => (place m.start, place m.stop, key m.value) := by
  induction aligned generalizing before before' skip skip' with
  | nil => rfl
  | @char offset t u c next later ih =>
    cases skip with
    | succ skip =>
      have forward : place (offset + 1) ≤ place (offset + 1 + skip) :=
        mono.monotone (Nat.le_add_right ..)
      rw [show offset + (skip + 1) = offset + 1 + skip by omega] at skips
      obtain ⟨rest, rfl⟩ : ∃ rest, skip' = rest + 1 := ⟨skip' - 1, by omega⟩
      rw [LexLint.findAllFrom, LexLint.findAllFrom, ← next]
      exact ih rfl (by omega)
    | zero =>
      obtain rfl : skip' = 0 := by
        rw [Nat.add_zero] at skips
        omega
      have whole := Aligned.char c next later
      simp only [LexLint.findAllFrom, edges, ← next]
      split
      · exact ih rfl rfl
      · rcases rel_cases (pattern.alike whole.to) with ⟨here, there⟩ |
          ⟨found, found', here, there, sameKey, rest⟩
        · rw [here, there]
          exact ih rfl rfl
        · have shorter := pattern.shorter here
          have shorter' := pattern.shorter there
          have stop := whole.place_taken rest (Nat.le_of_lt shorter) (Nat.le_of_lt shorter')
          simp only [List.length_cons] at stop shorter shorter'
          simp only [here, there, List.map_cons, stop, sameKey]
          congr 1
          refine ih rfl ?_
          rw [show offset + 1 + (t.length + 1 - found.2.length - 1) =
            offset + (t.length + 1 - found.2.length) by omega, stop, next]
          omega
  | @newline offset t u b blank sameLine next later ih =>
    cases skip with
    | succ skip =>
      have forward : place (offset + 1) ≤ place (offset + 1 + skip) :=
        mono.monotone (Nat.le_add_right ..)
      rw [show offset + (skip + 1) = offset + 1 + skip by omega] at skips
      obtain ⟨rest, rfl⟩ : ∃ rest, skip' = rest + 2 := ⟨skip' - 2, by omega⟩
      rw [LexLint.findAllFrom, LexLint.findAllFrom, LexLint.findAllFrom, Nat.add_assoc, ← next]
      exact ih rfl (by omega)
    | zero =>
      obtain rfl : skip' = 0 := by
        rw [Nat.add_zero] at skips
        omega
      rw [findAllFrom_of_none (pattern.blank blank),
        findAllFrom_of_none (pattern.blank isBlank_newline),
        findAllFrom_of_none (pattern.blank isBlank_newline), Nat.add_assoc, ← next]
      exact ih rfl rfl

/-- Occurrences in aligned texts are the same, each at its place. -/
theorem AlignedPattern.map_findAll {t u : List Char} (aligned : Aligned place 0 t u)
    (start : place 0 = 0) (edge : Bool) :
    (findAll edge recognise u).map (fun m => (m.start, m.stop, key m.value)) =
      (findAll edge recognise t).map fun m => (place m.start, place m.stop, key m.value) := by
  have skips : place (0 + 0) = place 0 + 0 := rfl
  have same := pattern.findAllFrom mono aligned edge (Eq.refl (atWordEdge none)) skips
  rw [start] at same
  exact same

theorem AlignedPattern.keys_findAll {t u : List Char} (aligned : Aligned place 0 t u)
    (start : place 0 = 0) (edge : Bool) :
    (findAll edge recognise u).map (fun m => key m.value) =
      (findAll edge recognise t).map fun m => key m.value := by
  have keys := congrArg (List.map (·.2.2)) (pattern.map_findAll mono aligned start edge)
  rwa [List.map_map, List.map_map] at keys

end

/-- Aligned texts declare the same names, in the same order. -/
theorem declaredIn_of_aligned {place : Nat → Nat} (mono : StrictMono place) (start : place 0 = 0)
    {t u : List Char} (aligned : Aligned place 0 t u) :
    Undeclared.declaredIn u = Undeclared.declaredIn t := by
  have lets := (alignedPattern_letHeader place).keys_findAll mono aligned start false
  have funcs := (alignedPattern_funcHeader place).keys_findAll mono aligned start true
  have classes := (alignedPattern_classHeader place).keys_findAll mono aligned start true
  have names := congrArg (List.flatMap fun key : String × List String => key.2) funcs
  rw [List.flatMap_map, List.flatMap_map] at names
  simp only [id] at lets classes
  rw [Undeclared.declaredIn, Undeclared.declaredIn, Undeclared.letNames, Undeclared.letNames, lets,
    classes, names]

end LexLint
