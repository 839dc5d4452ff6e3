import LexLint.Proofs.Scan.Occurrence
import LexLint.Suppression

/-!
# Markers and the codes they name

A marker is a `#`, the name of the tool and a verb, with blanks between them (`Marker.Begins`).
What follows it may be a list of code names, read as far as it goes (`Marker.Names`): a marker tells
the codes of its list, or every code if it lists none (`Marker.Tells`). Reading a text finds the
first marker in it and what that tells (`Marker.firstCodes?_eq_some_iff`).
-/

namespace LexLint.Marker

/-! ### Names of codes -/

/-- An ASCII letter or underscore, and letters, numerals and underscores of any script. -/
def IsCodeName (name : List Char) : Prop :=
  ∃ c rest, name = c :: rest ∧ isWordStart c = true ∧ ∀ d ∈ rest, isWordConstituent d = true

/-- A code name follows a separator, with blanks around the separator at most. -/
def NameFollows (sep : Char) (s : List Char) : Prop :=
  ∃ gap gap' c rest, AllBlank gap ∧ AllBlank gap' ∧ isWordStart c = true ∧
    s = gap ++ sep :: (gap' ++ c :: rest)

/-- The code names at the start of a text, the first behind a separator and the others behind
commas. There are as many as stand there, and each is as long as it can be. -/
inductive Names : Char → List Char → List (List Char) → Prop where
  | none {sep : Char} {s : List Char} (ends : ¬ NameFollows sep s) : Names sep s []
  | name {sep : Char} {gap gap' name rest : List Char} {names : List (List Char)}
      (blank : AllBlank gap) (blank' : AllBlank gap') (isName : IsCodeName name)
      (whole : rest.head?.any isWordConstituent = false) (later : Names ',' rest names) :
      Names sep (gap ++ sep :: (gap' ++ (name ++ rest))) (name :: names)

theorem codeName?_eq_some_iff {s name rest : List Char} :
    codeName? s = some (name, rest) ↔
      s = name ++ rest ∧ IsCodeName name ∧ rest.head?.any isWordConstituent = false := by
  cases s with
  | nil =>
    simp only [codeName?, reduceCtorEq, false_iff]
    rintro ⟨empty, ⟨c, tail, rfl, -⟩, -⟩
    cases empty
  | cons c tail =>
    simp only [codeName?, Option.ite_none_right_eq_some, Option.some.injEq, Prod.mk.injEq]
    constructor
    · rintro ⟨start, rfl, rfl⟩
      refine ⟨by simp, ⟨c, _, rfl, start, fun d hd => List.mem_takeWhile_imp hd⟩, ?_⟩
      have first := List.head?_dropWhile_not isWordConstituent tail
      cases h : (tail.dropWhile isWordConstituent).head? with
      | none => rfl
      | some d => simpa [h] using first
    · rintro ⟨split, ⟨d, more, rfl, start, all⟩, ends⟩
      obtain ⟨rfl, tailSplit⟩ := List.cons.inj split
      change tail = more ++ rest at tailSplit
      have stops : rest.takeWhile isWordConstituent = [] ∧
          rest.dropWhile isWordConstituent = rest := by
        cases rest with
        | nil => exact ⟨rfl, rfl⟩
        | cons e others =>
          have other : isWordConstituent e = false := by simpa using ends
          simp [other]
      rw [tailSplit]
      refine ⟨start, ?_, ?_⟩
      · rw [List.takeWhile_append_of_pos all, stops.1, List.append_nil]
      · rw [List.dropWhile_append_of_pos all, stops.2]

/-- The code name behind a separator at the start of a text, with what follows it. -/
def nameAfter? (sep : Char) (s : List Char) : Option (List Char × List Char) :=
  match trimStart s with
  | [] => none
  | c :: rest => if c = sep then codeName? (trimStart rest) else none

theorem codeList_eq (s : List Char) :
    codeList s = match nameAfter? '=' s with
      | some (name, after) => name :: moreCodes after.length after
      | none => [] := by
  unfold codeList nameAfter?
  cases trimStart s with
  | nil => rfl
  | cons c rest =>
    by_cases separator : c = '='
    · subst separator
      rfl
    · simp only [separator, if_false]
      split
      · rename_i same
        exact absurd (List.cons.inj same).1 separator
      · rfl

theorem moreCodes_succ (fuel : Nat) (s : List Char) :
    moreCodes (fuel + 1) s = match nameAfter? ',' s with
      | some (name, after) => name :: moreCodes fuel after
      | none => [] := by
  unfold nameAfter?
  rw [moreCodes]
  cases trimStart s with
  | nil => rfl
  | cons c rest =>
    by_cases separator : c = ','
    · subst separator
      rfl
    · simp only [separator, if_false]
      split
      · rename_i same
        exact absurd (List.cons.inj same).1 separator
      · rfl

/-- The name that is read behind a separator stands there, whole. -/
theorem nameAfter?_eq_some_iff {sep : Char} (visible : isBlank sep = false)
    {s name rest : List Char} : nameAfter? sep s = some (name, rest) ↔
      ∃ gap gap', AllBlank gap ∧ AllBlank gap' ∧ IsCodeName name ∧
        rest.head?.any isWordConstituent = false ∧ s = gap ++ sep :: (gap' ++ (name ++ rest)) := by
  constructor
  · intro found
    unfold nameAfter? at found
    split at found
    · cases found
    · rename_i c tail trimmed
      rw [Option.ite_none_right_eq_some] at found
      obtain ⟨rfl, found⟩ := found
      obtain ⟨split, isName, whole⟩ := codeName?_eq_some_iff.mp found
      obtain ⟨gap, blank, first⟩ := exists_trimStart_append s
      obtain ⟨gap', blank', second⟩ := exists_trimStart_append tail
      refine ⟨gap, gap', blank, blank', isName, whole, ?_⟩
      rw [← split, ← second, ← trimmed]
      exact first
  · rintro ⟨gap, gap', blank, blank', isName, whole, rfl⟩
    have nameFirst : (name ++ rest).head?.any isBlank = false := by
      obtain ⟨c, tail, rfl, start, -⟩ := isName
      simp [isBlank_of_isWordChar (isWordChar_of_isWordStart start)]
    have trimmed : trimStart (gap ++ sep :: (gap' ++ (name ++ rest))) =
        sep :: (gap' ++ (name ++ rest)) :=
      trimStart_blank_append blank (by simpa using visible)
    rw [nameAfter?, trimmed]
    simp only [if_true]
    rw [trimStart_blank_append blank' nameFirst]
    exact codeName?_eq_some_iff.mpr ⟨rfl, isName, whole⟩

/-- A name is read exactly if one follows the separator. -/
theorem nameFollows_iff {sep : Char} (visible : isBlank sep = false) {s : List Char} :
    NameFollows sep s ↔ ∃ name rest, nameAfter? sep s = some (name, rest) := by
  constructor
  · rintro ⟨gap, gap', c, rest, blank, blank', start, rfl⟩
    have read : codeName? (c :: rest) =
        some (c :: rest.takeWhile isWordConstituent, rest.dropWhile isWordConstituent) := by
      simp [codeName?, start]
    obtain ⟨split, isName, whole⟩ := codeName?_eq_some_iff.mp read
    refine ⟨_, _, (nameAfter?_eq_some_iff visible).mpr
      ⟨gap, gap', blank, blank', isName, whole, ?_⟩⟩
    rw [← split]
  · rintro ⟨name, rest, found⟩
    obtain ⟨gap, gap', blank, blank', ⟨c, tail, rfl, start, -⟩, -, rfl⟩ :=
      (nameAfter?_eq_some_iff visible).mp found
    exact ⟨gap, gap', c, tail ++ rest, blank, blank', start, rfl⟩

/-- The names of a text, one after another. -/
theorem names_iff {sep : Char} (visible : isBlank sep = false) {s : List Char}
    {names : List (List Char)} :
    Names sep s names ↔ match nameAfter? sep s with
      | none => names = []
      | some (name, rest) => ∃ more, names = name :: more ∧ Names ',' rest more := by
  constructor
  · intro h
    cases h with
    | none ends =>
      cases found : nameAfter? sep s with
      | none => rfl
      | some pair => exact absurd ((nameFollows_iff visible).mpr ⟨_, _, found⟩) ends
    | @name _ gap gap' name rest more blank blank' isName whole later =>
      have found := (nameAfter?_eq_some_iff visible).mpr
        ⟨gap, gap', blank, blank', isName, whole, rfl⟩
      rw [found]
      exact ⟨more, rfl, later⟩
  · intro h
    cases found : nameAfter? sep s with
    | none =>
      rw [found] at h
      subst h
      apply Names.none
      rw [nameFollows_iff visible, found]
      rintro ⟨_, _, read⟩
      cases read
    | some pair =>
      rw [found] at h
      obtain ⟨more, rfl, later⟩ := h
      obtain ⟨gap, gap', blank, blank', isName, whole, rfl⟩ :=
        (nameAfter?_eq_some_iff visible).mp found
      exact .name blank blank' isName whole later

/-- A text has one list of names. -/
theorem Names.unique {sep : Char} (visible : isBlank sep = false) {s : List Char}
    {names names' : List (List Char)} (h : Names sep s names) (h' : Names sep s names') :
    names = names' := by
  induction names generalizing sep s names' with
  | nil =>
    rw [names_iff visible] at h h'
    cases found : nameAfter? sep s with
    | none =>
      rw [found] at h'
      exact h'.symm
    | some pair =>
      rw [found] at h
      obtain ⟨more, differ, -⟩ := h
      cases differ
  | cons name more ih =>
    rw [names_iff visible] at h h'
    cases found : nameAfter? sep s with
    | none =>
      rw [found] at h
      cases h
    | some pair =>
      rw [found] at h h'
      obtain ⟨others, same, later⟩ := h
      obtain ⟨others', rfl, later'⟩ := h'
      obtain ⟨rfl, rfl⟩ := List.cons.inj same
      rw [ih (by decide) later later']

theorem names_moreCodes {fuel : Nat} {s : List Char} (enough : s.length ≤ fuel) :
    Names ',' s (moreCodes fuel s) := by
  -- Each name takes characters away, so that the fuel outlasts the text.
  induction fuel generalizing s with
  | zero =>
    obtain rfl := List.length_eq_zero_iff.mp (Nat.le_zero.mp enough)
    exact (names_iff (by decide)).mpr rfl
  | succ fuel ih =>
    rw [names_iff (by decide), moreCodes_succ]
    cases found : nameAfter? ',' s with
    | none => rfl
    | some pair =>
      obtain ⟨gap, gap', -, -, -, -, rfl⟩ := (nameAfter?_eq_some_iff (by decide)).mp found
      refine ⟨_, rfl, ih ?_⟩
      simp only [List.length_append, List.length_cons] at enough
      omega

/-- What is read behind a marker are the names that stand there. -/
theorem codeList_eq_iff {s : List Char} {names : List (List Char)} :
    codeList s = names ↔ Names '=' s names := by
  have read : Names '=' s (codeList s) := by
    rw [names_iff (by decide), codeList_eq]
    cases nameAfter? '=' s with
    | none => rfl
    | some pair => exact ⟨_, rfl, names_moreCodes (Nat.le_refl _)⟩
  constructor
  · rintro rfl
    exact read
  · exact fun h => read.unique (by decide) h

theorem names_eq_nil_iff {s : List Char} : Names '=' s [] ↔ ¬ NameFollows '=' s := by
  constructor
  · intro h
    cases h with
    | none ends => exact ends
  · exact .none

/-! ### Markers -/

/-- A marker begins a text, and this is what follows it. -/
def Begins (s after : List Char) : Prop :=
  ∃ gap gap', AllBlank gap ∧ AllBlank gap' ∧
    s = '#' :: (gap ++ ("tesseract-lint:".toList ++ (gap' ++ ("disable".toList ++ after))))

/-- What follows the first marker of a text. -/
def First (s after : List Char) : Prop :=
  ∃ i, Begins (s.drop i) after ∧ ∀ j < i, ∀ other, ¬ Begins (s.drop j) other

/-- The codes that a marker speaks of: those it names, or every code if it names none. -/
def Tells (after : List Char) (codes : List String) : Prop :=
  ∃ names, Names '=' after names ∧
    codes = if names = [] then [everyCode] else names.map String.ofList

theorem Names.isCodeName {sep : Char} {s : List Char} {names : List (List Char)}
    (h : Names sep s names) : ∀ name ∈ names, IsCodeName name := by
  induction h with
  | none => exact fun name member => absurd member List.not_mem_nil
  | name _ _ isName _ _ ih => exact List.forall_mem_cons.mpr ⟨isName, ih⟩

/-- What stands for all codes is no code name. -/
theorem IsCodeName.ne_everyCode {name : List Char} (h : IsCodeName name) :
    String.ofList name ≠ everyCode := by
  obtain ⟨c, rest, rfl, start, -⟩ := h
  intro same
  have chars : c :: rest = ['*'] := by
    rw [← String.toList_ofList (l := c :: rest), same]
    rfl
  obtain ⟨rfl, -⟩ := List.cons.inj chars
  revert start
  decide

/-- Every code is meant exactly if no name follows. -/
theorem Tells.mem_everyCode_iff {after : List Char} {codes : List String}
    (h : Tells after codes) : everyCode ∈ codes ↔ ¬ NameFollows '=' after := by
  obtain ⟨names, read, rfl⟩ := h
  rw [← names_eq_nil_iff]
  by_cases empty : names = []
  · subst empty
    simp [read]
  · rw [if_neg empty, List.mem_map]
    constructor
    · rintro ⟨name, member, same⟩
      exact absurd same (read.isCodeName name member).ne_everyCode
    · intro none
      exact absurd (read.unique (by decide) none) empty

/-- What follows a marker that begins a text. -/
def tail? (s : List Char) : Option (List Char) := do
  let afterHash ← afterLiteral? ['#'] s
  let afterName ← afterLiteral? "tesseract-lint:".toList (trimStart afterHash)
  afterLiteral? "disable".toList (trimStart afterName)

theorem tail?_eq_some_iff {s after : List Char} : tail? s = some after ↔ Begins s after := by
  simp only [tail?, Option.bind_eq_bind, Option.bind_eq_some_iff, afterLiteral?_eq_some]
  constructor
  · rintro ⟨afterHash, rfl, afterName, name, verb⟩
    obtain ⟨gap, blank, first⟩ := exists_trimStart_append afterHash
    obtain ⟨gap', blank', second⟩ := exists_trimStart_append afterName
    refine ⟨gap, gap', blank, blank', ?_⟩
    rw [← verb, ← second, ← name, ← first]
    rfl
  · rintro ⟨gap, gap', blank, blank', rfl⟩
    exact ⟨_, rfl, _, trimStart_blank_append blank rfl, trimStart_blank_append blank' rfl⟩

theorem Begins.unique {s after other : List Char} (h : Begins s after) (h' : Begins s other) :
    after = other := by
  rw [← Option.some_inj, ← tail?_eq_some_iff.mpr h, ← tail?_eq_some_iff.mpr h']

theorem Begins.first {s after : List Char} (h : Begins s after) : First s after :=
  ⟨0, h, fun j hj => absurd hj (Nat.not_lt_zero j)⟩

/-- A text has one first marker. -/
theorem First.unique {s after other : List Char} (h : First s after) (h' : First s other) :
    after = other := by
  obtain ⟨i, begins, none⟩ := h
  obtain ⟨j, begins', none'⟩ := h'
  have same : i = j := by
    rcases Nat.lt_trichotomy i j with lt | eq | gt
    · exact absurd begins (none' i lt after)
    · exact eq
    · exact absurd begins' (none j gt other)
  subst same
  exact begins.unique begins'

/-- A marker tells what the list of names behind it says. -/
theorem tells_iff {after : List Char} {codes : List String} :
    Tells after codes ↔ codes =
      if codeList after = [] then [everyCode] else (codeList after).map String.ofList := by
  simp only [Tells, ← codeList_eq_iff, exists_eq_left']

theorem exists_tells (after : List Char) : ∃ codes, Tells after codes :=
  ⟨_, tells_iff.mpr rfl⟩

theorem codes?_eq (s : List Char) :
    codes? s = (tail? s).map fun after =>
      if codeList after = [] then [everyCode] else (codeList after).map String.ofList := by
  simp only [codes?, tail?, Option.bind_eq_bind, Option.map_eq_bind, Option.bind_assoc]
  refine Option.bind_congr fun afterHash _ => Option.bind_congr fun afterName _ =>
    Option.bind_congr fun after _ => ?_
  rw [Function.comp_apply]
  cases codeList after <;> rfl

/-- A marker that begins a text is recognised, and nothing else is. -/
theorem codes?_eq_some_iff {s : List Char} {codes : List String} :
    codes? s = some codes ↔ ∃ after, Begins s after ∧ Tells after codes := by
  simp only [codes?_eq, Option.map_eq_some_iff, tail?_eq_some_iff, tells_iff,
    eq_comm (a := codes)]

theorem codes?_eq_none_iff {s : List Char} : codes? s = none ↔ ∀ after, ¬ Begins s after := by
  rw [codes?_eq, Option.map_eq_none_iff, Option.eq_none_iff_forall_ne_some]
  exact forall_congr' fun after => not_congr tail?_eq_some_iff

/-- Searching a text finds the first marker in it, and what that tells. -/
theorem firstCodes?_eq_some_iff {s : List Char} {codes : List String} :
    firstCodes? s = some codes ↔ ∃ after, First s after ∧ Tells after codes := by
  induction s with
  | nil =>
    simp only [firstCodes?, reduceCtorEq, false_iff]
    rintro ⟨after, ⟨i, ⟨_, _, -, -, begins⟩, -⟩, -⟩
    rw [List.drop_nil] at begins
    cases begins
  | cons c rest ih =>
    rw [firstCodes?]
    cases here : codes? (c :: rest) with
    | some told =>
      obtain ⟨after, begins, tells⟩ := codes?_eq_some_iff.mp here
      constructor
      · rintro ⟨⟩
        exact ⟨after, begins.first, tells⟩
      · rintro ⟨other, first, tells'⟩
        obtain rfl := first.unique begins.first
        rw [tells_iff.mp tells, tells_iff.mp tells']
    | none =>
      have absent := codes?_eq_none_iff.mp here
      refine ih.trans (exists_congr fun after => and_congr_left fun _ => ?_)
      constructor
      · rintro ⟨i, begins, none⟩
        refine ⟨i + 1, begins, fun j hj => ?_⟩
        cases j with
        | zero => exact absent
        | succ j => exact none j (Nat.lt_of_succ_lt_succ hj)
      · rintro ⟨i, begins, none⟩
        cases i with
        | zero => exact absurd begins (absent after)
        | succ i => exact ⟨i, begins, fun j hj => none (j + 1) (Nat.succ_lt_succ hj)⟩

end LexLint.Marker
