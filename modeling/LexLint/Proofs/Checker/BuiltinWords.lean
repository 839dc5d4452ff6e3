import LexLint.Proofs.Checker.Ranges
import LexLint.Proofs.Scan.WordRuns
import Mathlib.Data.List.Perm.Basic

/-!
# Bare calls are words

Each built-in is looked for on each line by its characters, and the places are sorted at the end.
That finds the words of the code view that name a built-in and are called without the namespace
mark, in text order (`bareCalls_eq_words`).
-/

namespace LexLint

/-- What is left of a line. -/
def lineRest (s : List Char) : List Char := s.takeWhile (· != '\n')

theorem lineRest_of_not_mem {s : List Char} (h : '\n' ∉ s) : lineRest s = s :=
  List.takeWhile_eq_self_iff.mpr fun c hc => by
    have : c ≠ '\n' := fun newline => h (newline ▸ hc)
    simpa using this

theorem lineRest_append_newline (a b : List Char) : lineRest (a ++ '\n' :: b) = lineRest a := by
  induction a with
  | nil => simp [lineRest]
  | cons c rest ih =>
    rw [lineRest] at ih
    by_cases newline : c = '\n'
    · simp [lineRest, newline]
    · simpa [lineRest, newline] using ih

namespace BuiltinCalls

theorem startsCall_cons (c : Char) (before : List Char) :
    startsCall (c :: before) =
      (!(c == ':' && before.head? == some ':') && !(isWordChar c || c == '.')) := by
  by_cases colons : c = ':' ∧ before.head? = some ':'
  · obtain ⟨rfl, head⟩ := colons
    obtain ⟨rest, rfl⟩ := List.head?_eq_some_iff.mp head
    rfl
  · have single : startsCall (c :: before) = !(isWordChar c || c == '.') := by
      unfold startsCall
      split
      · rename_i same
        obtain ⟨rfl, rfl⟩ := List.cons.inj same
        exact absurd ⟨rfl, rfl⟩ colons
      · rename_i same
        obtain ⟨rfl, rfl⟩ := List.cons.inj same
        rfl
      · rename_i same
        cases same
    have marked : (c == ':' && before.head? == some ':') = false := by simpa using colons
    rw [single, marked]
    rfl

/-- What stands on the lines above does not matter. -/
theorem startsCall_append_newline (before pre : List Char) :
    startsCall (before ++ '\n' :: pre) = startsCall before := by
  rcases before with _ | ⟨c, rest⟩
  · rw [List.nil_append, startsCall_cons]
    rfl
  · rw [List.cons_append, startsCall_cons, startsCall_cons]
    cases rest with
    | nil => simp
    | cons d more => rfl

/-- Inside a word no call starts. -/
theorem bareOffsetsFrom_inside {name word : List Char} (all : AllWord word) (offset : Nat)
    {before : List Char} (inside : before.head?.any isWordChar = true) (after : List Char) :
    bareOffsetsFrom name offset before (word ++ after) =
      bareOffsetsFrom name (offset + word.length) (word.reverse ++ before) after := by
  induction word generalizing offset before with
  | nil => rfl
  | cons c rest ih =>
    obtain ⟨here, later⟩ := List.forall_mem_cons.mp all
    have noCall (s : List Char) : isBareCall before s = false := by
      have : startsCall before = false := by
        rw [← Bool.not_eq_true]
        intro starts
        rw [head?_of_startsCall starts] at inside
        cases inside
      simp [isBareCall, this]
    have next : bareOffsetsFrom name (offset + 1) (c :: before) (rest ++ after) = _ :=
      ih later (offset + 1) (by simpa using here)
    have size : offset + (c :: rest).length = offset + 1 + rest.length := by
      rw [List.length_cons]
      omega
    rw [List.cons_append, bareOffsetsFrom, next, size]
    cases afterLiteral? name (c :: (rest ++ after)) <;> simp [noCall]

/-- A name is called at the start of a word exactly if it is the word. -/
theorem bareOffsetsFrom_word {name word after : List Char} (isName : IsWordName name)
    (nonempty : word ≠ []) (all : AllWord word) (ends : NoWordFirst after) (offset : Nat)
    (before : List Char) :
    bareOffsetsFrom name offset before (word ++ after) =
      (if word = name ∧ startsCall before ∧ continuesCall after then [offset] else []) ++
        bareOffsetsFrom name (offset + word.length) (word.reverse ++ before) after := by
  obtain ⟨c, rest, rfl⟩ := List.exists_cons_of_ne_nil nonempty
  obtain ⟨here, later⟩ := List.forall_mem_cons.mp all
  have next : bareOffsetsFrom name (offset + 1) (c :: before) (rest ++ after) = _ :=
    bareOffsetsFrom_inside later (offset + 1) (by simpa using here) after
  have size : offset + (c :: rest).length = offset + 1 + rest.length := by
    rw [List.length_cons]
    omega
  have whole : (∃ tail, afterLiteral? name (c :: rest ++ after) = some tail ∧
      isBareCall before tail = true) ↔
        c :: rest = name ∧ startsCall before ∧ continuesCall after := by
    constructor
    · rintro ⟨tail, literal, bare⟩
      simp only [isBareCall, Bool.and_eq_true, Bool.not_eq_true'] at bare
      obtain ⟨⟨edge, starts⟩, continues⟩ := bare
      obtain ⟨rfl, rfl⟩ :=
        word_append_inj all isName.2 ends edge (afterLiteral?_eq_some.mp literal)
      exact ⟨rfl, starts, continues⟩
    · rintro ⟨rfl, starts, continues⟩
      refine ⟨after, afterLiteral?_eq_some.mpr rfl, ?_⟩
      simp [isBareCall, starts, continues, show after.head?.any isWordChar = false from ends]
  rw [List.cons_append, bareOffsetsFrom, next, size]
  rw [List.cons_append] at whole
  simp only [← whole, List.reverse_cons, List.append_assoc, List.singleton_append]
  cases found : afterLiteral? name (c :: (rest ++ after)) with
  | none => simp
  | some tail => cases bare : isBareCall before tail <;> simp [bare]

/-- The word is called without the namespace mark, by what stands before and after it. -/
def isBare (s : WordSite) : Bool := startsCall s.before && continuesCall s.after

/-- Where a name is called are the words with that name that are called. -/
theorem bareOffsetsFrom_eq_words {name : List Char} (identifier : isIdentifier name = true)
    (offset : Nat) (before text : List Char) :
    bareOffsetsFrom name offset before text =
      ((scanSitesFrom offset before [] text).filter fun s =>
        s.word.text == String.ofList name && isBare s).map (·.word.start) := by
  have isName : IsWordName name :=
    ⟨isIdentifier_ne_nil identifier, fun _ hc => isWordChar_of_isIdentifier identifier hc⟩
  induction text using word_induction generalizing offset before with
  | nil => rfl
  | other c rest hc ih =>
    have none : afterLiteral? name (c :: rest) = none := by
      obtain ⟨p, ps, rfl⟩ := List.exists_cons_of_ne_nil isName.1
      have differ : p ≠ c := isWordChar_ne (isName.2 p List.mem_cons_self) hc
      simp [afterLiteral?, differ]
    rw [bareOffsetsFrom, none, scanSitesFrom_cons_other hc]
    exact ih (offset + 1) (c :: before)
  | word word after nonempty all ends ih =>
    rw [bareOffsetsFrom_word isName nonempty all ends, scanSitesFrom_word all ends,
      runSite_reverse all, List.filter_append, List.map_append, ih]
    congr 1
    by_cases same : word = name
    · subst same
      simp only [identifier, if_true, true_and]
      cases bare : startsCall before && continuesCall after <;> simp_all [isBare]
    · have differ : String.ofList word ≠ String.ofList name := fun h =>
        same (String.ofList_injective h)
      rw [if_neg fun h => same h.1]
      split <;> simp [differ]

theorem rowCalls_eq_words (row : Nat × List Char) {name : String} (h : name ∈ sortedNames) :
    rowCalls row name = ((scanSites row.2).filter fun s => s.word.text == name && isBare s).map
      fun s => Undeclared.shift row.1 s.word := by
  rw [rowCalls, bareOffsetsFrom_eq_words (isIdentifier_of_mem h), List.map_map,
    String.ofList_toList]
  refine List.map_congr_left fun s member => ?_
  obtain ⟨scanned, passed⟩ := List.mem_filter.mp member
  have fits := fits_of_mem_scanSites scanned
  have named : s.word.text = name := by
    simp only [Bool.and_eq_true, beq_iff_eq] at passed
    exact passed.1
  have stop : s.word.stop = s.word.start + name.toList.length := by
    rw [fits.stop, fits.start, named]
  simp only [Function.comp, Undeclared.shift, Word.mk.injEq]
  exact ⟨trivial, by omega, named.symm⟩

/-- The words of a row that call a built-in without the namespace mark. -/
def rowWords (row : Nat × List Char) : List Word :=
  ((scanSites row.2).filter fun s =>
    Vocabulary.builtinNames.contains s.word.text && isBare s).map
      fun s => Undeclared.shift row.1 s.word

/-- Picking elements key by key picks those with one of the keys. -/
theorem perm_flatMap_filter {α : Type} {keys : List String} (distinct : keys.Nodup)
    (key : α → String) (p : α → Bool) (xs : List α) :
    (keys.flatMap fun k => xs.filter fun x => key x == k && p x).Perm
      (xs.filter fun x => keys.contains (key x) && p x) := by
  induction keys with
  | nil => simp
  | cons k rest ih =>
    obtain ⟨fresh, others⟩ := List.nodup_cons.mp distinct
    have parts := List.filter_append_perm (fun x => key x == k)
      (xs.filter fun x => (k :: rest).contains (key x) && p x)
    rw [List.flatMap_cons]
    refine ((ih others).append_left _).trans (List.Perm.trans ?_ parts)
    rw [List.filter_filter, List.filter_filter]
    refine List.Perm.of_eq (congrArg₂ (· ++ ·) (List.filter_congr fun x _ => ?_)
      (List.filter_congr fun x _ => ?_))
    · by_cases same : key x = k
      · simp [same]
      · simp [beq_eq_false_iff_ne.mpr same]
    · by_cases same : key x = k
      · simp [same, fresh]
      · simp [same]

theorem perm_rowWords (row : Nat × List Char) :
    (sortedNames.flatMap (rowCalls row)).Perm (rowWords row) := by
  have sorted : sortedNames.Perm Vocabulary.builtinNames := List.mergeSort_perm ..
  have distinct : sortedNames.Nodup :=
    sorted.nodup_iff.mpr (by decide +kernel)
  have calls : sortedNames.flatMap (rowCalls row) = (sortedNames.flatMap fun name =>
      (scanSites row.2).filter fun s => s.word.text == name && isBare s).map
        fun s => Undeclared.shift row.1 s.word := by
    rw [List.map_flatMap]
    exact List.flatMap_congr fun name h => rowCalls_eq_words row h
  rw [calls, rowWords]
  refine ((perm_flatMap_filter distinct (·.word.text) isBare _).trans ?_).map _
  refine List.Perm.of_eq (List.filter_congr fun s _ => ?_)
  congr 1
  rw [Bool.eq_iff_iff, List.contains_iff_mem, List.contains_iff_mem, sorted.mem_iff]

theorem isBare_extend {blanks : List Char} (blank : AllBlank blanks) (s : WordSite) :
    isBare (s.extend blanks) = isBare s := by
  rw [isBare, isBare, continuesCall_eq, continuesCall_eq, WordSite.extend,
    head?_trimStart_append_blank blank]

/-- Blanks at the end of a row call nothing. -/
theorem rowWords_trimEnd (start : Nat) (piece : List Char) :
    rowWords (start, trimEnd piece) = rowWords (start, piece) := by
  obtain ⟨blanks, blank, split⟩ := exists_trimEnd_append piece
  have sites := scanSites_append_blank blank (trimEnd piece)
  rw [split] at sites
  simp only [rowWords, sites, List.filter_map, List.map_map, Function.comp_def,
    isBare_extend blank]
  rfl

/-- The word calls a built-in without the namespace mark, by what stands around it on its line. -/
def isBareBuiltin (s : WordSite) : Bool :=
  Vocabulary.builtinNames.contains s.word.text && startsCall s.before &&
    continuesCall (lineRest s.after)

/-- The words of a code view that call a built-in without the namespace mark. -/
def bareWords (code : List Char) : List Word :=
  ((scanSites code).filter isBareBuiltin).map (·.word)

theorem bareWords_of_not_mem {piece : List Char} (line : '\n' ∉ piece) :
    bareWords piece = rowWords (0, piece) := by
  have bare : (scanSites piece).filter isBareBuiltin = (scanSites piece).filter fun s =>
      Vocabulary.builtinNames.contains s.word.text && isBare s := by
    refine List.filter_congr fun s scanned => ?_
    have after : '\n' ∉ s.after := fun newline => by
      apply line
      rw [(fits_of_mem_scanSites scanned).split]
      exact List.mem_append_right _ (List.mem_append_right _ newline)
    rw [isBareBuiltin, lineRest_of_not_mem after, isBare, Bool.and_assoc]
  rw [bareWords, rowWords, bare]
  exact List.map_congr_left fun s _ => (Undeclared.shift_zero s.word).symm

theorem rowWords_shift (start : Nat) (piece : List Char) :
    rowWords (start, piece) = (rowWords (0, piece)).map (Undeclared.shift start) := by
  simp [rowWords, Undeclared.shift]

/-- Calls are found line by line. -/
theorem bareWords_append_newline (a b : List Char) :
    bareWords (a ++ '\n' :: b) =
      bareWords a ++ (bareWords b).map (Undeclared.shift (a.length + 1)) := by
  have above (s : WordSite) : isBareBuiltin (s.extend ('\n' :: b)) = isBareBuiltin s := by
    simp only [isBareBuiltin, WordSite.extend, lineRest_append_newline]
  have below (s : WordSite) : isBareBuiltin (s.behind (a ++ ['\n'])) = isBareBuiltin s := by
    simp only [isBareBuiltin, WordSite.behind, Undeclared.shift, List.reverse_append,
      List.reverse_singleton, List.singleton_append, startsCall_append_newline]
  simp only [bareWords, scanSites_append_cons (c := '\n') (by decide), List.filter_append,
    List.map_append, List.filter_map, List.map_map, Function.comp_def, above, below]
  simp only [WordSite.extend, WordSite.behind, List.length_append, List.length_singleton]

theorem before_trans {a b c : Word} (hab : before a b = true) (hbc : before b c = true) :
    before a c = true := by
  simp only [before, Bool.or_eq_true, Bool.and_eq_true, decide_eq_true_eq, beq_iff_eq] at *
  have text := fun ab bc => String.le_trans (a := a.text) (b := b.text) (c := c.text) ab bc
  grind

theorem before_total (a b : Word) : (before a b || before b a) = true := by
  simp only [before, Bool.or_eq_true, Bool.and_eq_true, decide_eq_true_eq, beq_iff_eq]
  have text := String.le_total a.text b.text
  grind

theorem bareWords_ordered (code : List Char) :
    (bareWords code).Pairwise fun v w => v.start < w.start := by
  rw [bareWords, List.pairwise_map]
  refine List.Pairwise.imp_of_mem ?_ ((scanSites_separated code).filter _)
  intro s t hs _ separated
  have := (fits_of_mem_scanSites (List.mem_of_mem_filter hs)).wordAt.start_lt
  omega

theorem start_eq_of_before {a b : Word} (hab : before a b = true) (hba : before b a = true) :
    a.start = b.start := by
  simp only [before, Bool.or_eq_true, Bool.and_eq_true, decide_eq_true_eq, beq_iff_eq] at *
  omega

theorem eq_of_start_eq {code : List Char} {v w : Word} (hv : v ∈ bareWords code)
    (hw : w ∈ bareWords code) (starts : v.start = w.start) : v = w := by
  have distinct : ((bareWords code).map (·.start)).Nodup :=
    List.pairwise_map.mpr ((bareWords_ordered code).imp Nat.ne_of_lt)
  exact List.inj_on_of_nodup_map distinct hv hw starts

/-- Calls are the words of the rows of a document, row by row. -/
theorem flatMap_rowWords_lines (source : Source) :
    (source.lines.map Line.row).flatMap rowWords = bareWords source.code := by
  refine Source.flatMap_row_lines Undeclared.shift_shift bareWords_append_newline ?_
    Undeclared.shift_zero source
  intro start piece line
  rw [rowWords_trimEnd, rowWords_shift, bareWords_of_not_mem line]

/-- The search for every built-in on every line finds the words that call one, in text order. -/
theorem bareCalls_eq_words (source : Source) : bareCalls source = bareWords source.code := by
  have perm : (bareCalls source).Perm (bareWords source.code) := by
    rw [bareCalls_eq, ← flatMap_rowWords_lines]
    exact (List.mergeSort_perm ..).trans
      (List.Perm.flatMap_left _ fun row _ => perm_rowWords row)
  have found : (bareCalls source).Pairwise fun v w => before v w = true := by
    rw [bareCalls]
    exact @List.pairwise_mergeSort _ before (fun _ _ _ hab hbc => before_trans hab hbc)
      before_total _
  have ordered : (bareWords source.code).Pairwise fun v w => before v w = true :=
    (bareWords_ordered source.code).imp fun lt => by simp [before, lt]
  refine perm.eq_of_pairwise (fun a b ha hb hab hba => ?_) found ordered
  -- Two words that come before one another start at one place, and are one.
  have starts : a.start = b.start := start_eq_of_before hab hba
  refine eq_of_start_eq (perm.mem_iff.mp ha) hb starts

end BuiltinCalls

end LexLint
