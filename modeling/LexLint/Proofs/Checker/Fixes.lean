import LexLint.Proofs.Checker.BuiltinWords
import LexLint.Proofs.View.Insertion

/-!
# The fixes that messages suggest

A keyword is reported with the advice to put `$` after it, and a call of a built-in with the advice
to put `::` before it. Whoever does so everywhere changes nothing else of the code, and the checker
has nothing left to report (`suggested_fixes_work`).
-/

namespace LexLint

/-- What stands at the given places of a text, from an offset on, is of some kind. -/
def AtPlaces (places : List Nat) (p : Option Char → Prop) (offset : Nat) (text : List Char) :
    Prop :=
  ∀ i, offset + i ∈ places → p text[i]?

namespace AtPlaces

variable {places : List Nat} {p : Option Char → Prop} {offset : Nat} {c : Char}
  {text rest : List Char}

theorem first (h : AtPlaces places p offset text) (here : offset ∈ places) : p text.head? := by
  rw [List.head?_eq_getElem?]
  exact h 0 here

theorem tail (h : AtPlaces places p offset (c :: rest)) : AtPlaces places p (offset + 1) rest := by
  intro i there
  have place : offset + (i + 1) ∈ places := by
    rwa [show offset + (i + 1) = offset + 1 + i by omega]
  have later := h (i + 1) place
  rwa [List.getElem?_cons_succ] at later

end AtPlaces

/-- The word that a run is does not depend on where it stands. -/
theorem mem_runSite_elsewhere {stop : Nat} {before run after : List Char} {s : WordSite}
    (h : s ∈ runSite stop before run after) :
    run ≠ [] ∧ s.before = before ∧ s.after = after ∧ ∀ stop' before' after',
      ⟨⟨stop' - run.length, stop', s.word.text⟩, before', after'⟩ ∈
        runSite stop' before' run after' := by
  obtain ⟨c, rest, reversed, start, rfl⟩ := mem_runSite h
  refine ⟨?_, rfl, rfl, fun stop' before' after' => ?_⟩
  · rintro rfl
    cases reversed
  · simp only [runSite, reversed, start, if_true]
    exact List.mem_singleton_self _

namespace KeywordSuffix

/-- The word is a keyword without its marker. -/
def isBareKeyword (s : WordSite) : Bool :=
  Vocabulary.markedKeywords.contains s.word.text && s.after.head?.any isBlank

theorem isBareKeyword_of_marked {s : WordSite} {rest : List Char} (after : s.after = '$' :: rest) :
    isBareKeyword s = false := by
  have visible : isBlank '$' = false := by decide
  simp [isBareKeyword, after, visible]

/-- With the marker at the end of each keyword that lacks it, no keyword lacks it. -/
theorem not_isBareKeyword_insertFrom {places : List Nat} {offset : Nat}
    {before run text : List Char}
    (all : ∀ s ∈ scanSitesFrom offset before run text, isBareKeyword s = true →
      s.word.stop ∈ places)
    (outside : AtPlaces places (·.any isWordChar = false) offset text)
    (offset' : Nat) (before' : List Char) {s : WordSite}
    (member : s ∈ scanSitesFrom offset' before' run (insertFrom ['$'] places offset text)) :
    isBareKeyword s = false := by
  have marker : isWordChar '$' = false := by decide
  induction text generalizing offset before run offset' before' with
  | nil =>
    unfold insertFrom at member
    split at member
    · rw [scanSitesFrom_cons_end marker] at member
      rcases List.mem_append.mp member with ends | behind
      · exact isBareKeyword_of_marked (mem_runSite_elsewhere ends).2.2.1
      · cases behind
    · have after := (mem_runSite_elsewhere member).2.2.1
      simp [isBareKeyword, after]
  | cons c rest ih =>
    rw [insertFrom] at member
    cases word : isWordChar c with
    | true =>
      have unmarked : offset ∉ places := fun marked => by
        have other : isWordChar c = false := outside.first marked
        rw [word] at other
        cases other
      rw [if_neg unmarked, List.nil_append, scanSitesFrom_cons_word word] at member
      rw [scanSitesFrom_cons_word word] at all
      exact ih all outside.tail _ _ member
    | false =>
      rw [scanSitesFrom_cons_end word] at all
      have later := fun s hs => all s (List.mem_append_right _ hs)
      by_cases marked : offset ∈ places
      · rw [if_pos marked, List.singleton_append, scanSitesFrom_cons_end marker,
          scanSitesFrom_cons_other word] at member
        rcases List.mem_append.mp member with ends | behind
        · exact isBareKeyword_of_marked (mem_runSite_elsewhere ends).2.2.1
        · exact ih later outside.tail _ _ behind
      · rw [if_neg marked, List.nil_append, scanSitesFrom_cons_end word] at member
        rcases List.mem_append.mp member with ends | behind
        · -- The same word, before the edit, is not among those that lack their marker.
          obtain ⟨-, -, after, elsewhere⟩ := mem_runSite_elsewhere ends
          have original := all _ (List.mem_append_left _ (elsewhere offset before (c :: rest)))
          refine Bool.eq_false_iff.mpr fun bare => marked (original ?_)
          rw [isBareKeyword, after] at bare
          exact bare
        · exact ih later outside.tail _ _ behind

theorem wordAt_of_mem {code : List Char} {w : Word} (h : w ∈ bareKeywords code) :
    WordAt code w := by
  obtain ⟨s, scanned, rfl⟩ := List.mem_map.mp h
  exact (fits_of_mem_scanSites (List.mem_of_mem_filter scanned)).wordAt

/-- Where the marker is missing. -/
def ends (code : List Char) : List Nat := (bareKeywords code).map (·.stop)

theorem pairwise_ends (code : List Char) : (ends code).Pairwise (· < ·) := by
  rw [ends, bareKeywords, List.map_map, List.pairwise_map]
  refine List.Pairwise.imp_of_mem ?_ ((scanSites_separated code).filter _)
  intro s t _ ht separated
  have := (fits_of_mem_scanSites (List.mem_of_mem_filter ht)).wordAt.start_lt
  simp only [Function.comp]
  omega

theorem bareKeywords_insertAt (code : List Char) :
    bareKeywords (insertAt ['$'] (ends code) code) = [] := by
  have outside : AtPlaces (ends code) (·.any isWordChar = false) 0 code := by
    intro i place
    rw [Nat.zero_add] at place
    obtain ⟨w, found, rfl⟩ := List.mem_map.mp place
    exact (wordAt_of_mem found).isolated.2
  have all : ∀ s ∈ scanSitesFrom 0 [] [] code, isBareKeyword s = true → s.word.stop ∈ ends code :=
    fun s hs bare => List.mem_map_of_mem (List.mem_map_of_mem (List.mem_filter.mpr ⟨hs, bare⟩))
  refine List.map_eq_nil_iff.mpr (List.filter_eq_nil_iff.mpr fun s member => ?_)
  exact Bool.eq_false_iff.mp (not_isBareKeyword_insertFrom all outside 0 [] member)

/-- Behind a word the lexer is in code, and shows the marker. -/
theorem codeView_insertAt_ends (text : List Char) :
    codeView (insertAt ['$'] (ends (codeView text)) text) =
      insertAt ['$'] (ends (codeView text)) (codeView text) := by
  refine codeView_insertAt fun p place => ?_
  obtain ⟨w, found, rfl⟩ := List.mem_map.mp place
  have word := wordAt_of_mem found
  have lt := word.start_lt
  have last := word.isWordChar_at (i := w.stop - 1) (by omega) (by omega)
  obtain ⟨c, stands, isWord⟩ := (Option.any_eq_true ..).mp last
  have state := before_succ_of_isWordChar_codeView stands isWord
  rw [Nat.sub_add_cancel (by omega)] at state
  rw [state]
  exact ⟨by decide, fun _ _ => rfl, fun _ _ => rfl⟩

end KeywordSuffix

namespace BuiltinCalls

theorem continuesCall_lineRest_cons (c : Char) (rest : List Char) :
    continuesCall (lineRest (c :: rest)) =
      if c = '\n' then false
      else if isBlank c then continuesCall (lineRest rest)
      else c == '(' || c == '"' || c == '\'' := by
  rw [lineRest]
  by_cases newline : c = '\n'
  · simp [newline, continuesCall, trimStart]
  · by_cases blank : isBlank c = true
    · simp [newline, blank, continuesCall, trimStart, lineRest]
    · simp [newline, blank, continuesCall, trimStart]

/-- A mark before words makes no call of what stands before it. -/
theorem continuesCall_lineRest_insertFrom {places : List Nat} {offset : Nat} {text : List Char}
    (inside : AtPlaces places (·.any isWordChar = true) offset text)
    (h : continuesCall (lineRest (insertFrom [':', ':'] places offset text)) = true) :
    continuesCall (lineRest text) = true := by
  have colon (rest : List Char) : continuesCall (lineRest (':' :: rest)) = false := by
    have visible : isBlank ':' = false := by decide
    simp [continuesCall_lineRest_cons, visible]
  induction text generalizing offset with
  | nil =>
    have unmarked : offset ∉ places := fun marked => absurd (inside.first marked) (by decide)
    rwa [insertFrom, if_neg unmarked] at h
  | cons c rest ih =>
    rw [insertFrom] at h
    split at h
    · rw [List.cons_append, colon] at h
      cases h
    · rw [List.nil_append, continuesCall_lineRest_cons] at h
      rw [continuesCall_lineRest_cons]
      split
      · rename_i newline
        rwa [if_pos newline] at h
      · rename_i newline
        rw [if_neg newline] at h
        split
        · rename_i blank
          rw [if_pos blank] at h
          exact ih inside.tail h
        · rename_i blank
          rwa [if_neg blank] at h

/-- What stands before a run of word characters, without the marks and with them: a call starts
with them only if it does without, and then the run bears no mark. -/
structure MarkedBefore (places : List Nat) (offset : Nat) (run before before' : List Char) :
    Prop where
  whole : run ≠ [] → offset ∉ places
  starts : startsCall before' = true → startsCall before = true
  head : run = [] → before'.head? = before.head?
  unmarked : run ≠ [] → startsCall before' = true → offset - run.length ∉ places

namespace MarkedBefore

variable {places : List Nat} {offset : Nat} {c : Char} {run before before' : List Char}

/-- One more character of a word. -/
theorem word (h : MarkedBefore places offset run before before') (here : offset ∉ places)
    (next : offset + 1 ∉ places) : MarkedBefore places (offset + 1) (c :: run) before before' where
  whole := fun _ => next
  starts := h.starts
  head := fun empty => by cases empty
  unmarked := fun _ starts => by
    have start : offset + 1 - (c :: run).length = offset - run.length := by
      rw [List.length_cons]
      omega
    rw [start]
    cases run with
    | nil => exact here
    | cons d more => exact h.unmarked (by simp) starts

/-- The first character of a word with a mark before it. -/
theorem marked (next : offset + 1 ∉ places) :
    MarkedBefore places (offset + 1) [c] before (':' :: ':' :: before') where
  whole := fun _ => next
  starts := fun starts => by cases starts
  head := fun empty => by cases empty
  unmarked := fun _ starts => by cases starts

/-- A character that belongs to no word. -/
theorem other (h : MarkedBefore places offset run before before') :
    MarkedBefore places (offset + 1) [] (c :: (run ++ before)) (c :: (run ++ before')) where
  whole := fun nonempty => absurd rfl nonempty
  starts := fun starts => by
    have heads : (run ++ before').head? = (run ++ before).head? := by
      cases run with
      | nil => exact h.head rfl
      | cons d more => rfl
    rwa [startsCall_cons, heads, ← startsCall_cons] at starts
  head := fun _ => rfl
  unmarked := fun nonempty => absurd rfl nonempty

end MarkedBefore

/-- With the mark before each built-in that is called without it, none is. -/
theorem not_isBareBuiltin_insertFrom {places : List Nat} {offset : Nat}
    {before run text : List Char}
    (all : ∀ s ∈ scanSitesFrom offset before run text, isBareBuiltin s = true →
      s.word.start ∈ places)
    (inside : AtPlaces places (·.any isWordChar = true) offset text)
    (edge : AtPlaces places (·.any isWordChar = false) (offset + 1) text)
    (offset' : Nat) {before' : List Char} (marks : MarkedBefore places offset run before before')
    {s : WordSite}
    (member : s ∈ scanSitesFrom offset' before' run (insertFrom [':', ':'] places offset text)) :
    isBareBuiltin s = false := by
  have colon : isWordChar ':' = false := by decide
  induction text generalizing offset before run offset' before' with
  | nil =>
    have unmarked : offset ∉ places := fun marked => absurd (inside.first marked) (by decide)
    rw [insertFrom, if_neg unmarked] at member
    have after := (mem_runSite_elsewhere member).2.2.1
    simp [isBareBuiltin, after, lineRest, continuesCall, trimStart]
  | cons c rest ih =>
    have unchanged (unmarked : offset ∉ places) :
        insertFrom [':', ':'] places offset (c :: rest) =
          c :: insertFrom [':', ':'] places (offset + 1) rest := by
      rw [insertFrom, if_neg unmarked, List.nil_append]
    cases word : isWordChar c with
    | true =>
      have next : offset + 1 ∉ places := fun marked => by
        have other : isWordChar c = false := edge.first marked
        rw [word] at other
        cases other
      rw [scanSitesFrom_cons_word word] at all
      by_cases marked : offset ∈ places
      · obtain rfl : run = [] := by
          by_contra nonempty
          exact marks.whole nonempty marked
        rw [insertFrom, if_pos marked, List.cons_append, List.singleton_append,
          scanSitesFrom_cons_other colon, scanSitesFrom_cons_other colon,
          scanSitesFrom_cons_word word] at member
        exact ih all inside.tail edge.tail _ (.marked next) member
      · rw [unchanged marked, scanSitesFrom_cons_word word] at member
        exact ih all inside.tail edge.tail _ (marks.word marked next) member
    | false =>
      have unmarked : offset ∉ places := fun marked => by
        have inWord : isWordChar c = true := inside.first marked
        rw [word] at inWord
        cases inWord
      rw [scanSitesFrom_cons_end word] at all
      rw [unchanged unmarked, scanSitesFrom_cons_end word] at member
      rcases List.mem_append.mp member with ends | behind
      · -- The same word, before the edit, would be a call without a mark, and bears one now.
        obtain ⟨nonempty, before, after, elsewhere⟩ := mem_runSite_elsewhere ends
        have original := all _ (List.mem_append_left _ (elsewhere offset _ (c :: rest)))
        refine Bool.eq_false_iff.mpr fun bare => ?_
        simp only [isBareBuiltin, Bool.and_eq_true, before, after] at bare original
        obtain ⟨⟨name, starts⟩, continues⟩ := bare
        rw [← unchanged unmarked] at continues
        exact marks.unmarked nonempty starts (original
          ⟨⟨name, marks.starts starts⟩, continuesCall_lineRest_insertFrom inside continues⟩)
      · exact ih (fun s hs => all s (List.mem_append_right _ hs)) inside.tail edge.tail _
          marks.other behind

theorem wordAt_of_mem_bareWords {code : List Char} {w : Word} (h : w ∈ bareWords code) :
    WordAt code w := by
  obtain ⟨s, scanned, rfl⟩ := List.mem_map.mp h
  exact (fits_of_mem_scanSites (List.mem_of_mem_filter scanned)).wordAt

/-- Where the namespace mark is missing. -/
def starts (code : List Char) : List Nat := (bareWords code).map (·.start)

theorem pairwise_starts (code : List Char) : (starts code).Pairwise (· < ·) :=
  List.pairwise_map.mpr (bareWords_ordered code)

theorem bareWords_insertAt (code : List Char) :
    bareWords (insertAt [':', ':'] (starts code) code) = [] := by
  have inside : AtPlaces (starts code) (·.any isWordChar = true) 0 code := by
    intro i place
    rw [Nat.zero_add] at place
    obtain ⟨w, found, rfl⟩ := List.mem_map.mp place
    have word := wordAt_of_mem_bareWords found
    exact word.isWordChar_at (Nat.le_refl _) word.start_lt
  have edge : AtPlaces (starts code) (·.any isWordChar = false) (0 + 1) code := by
    intro i place
    obtain ⟨w, found, start⟩ := List.mem_map.mp place
    rcases (wordAt_of_mem_bareWords found).isolated.1 with atStart | other
    · simp only at atStart
      omega
    · have before : w.start - 1 = i := by omega
      rwa [before] at other
  have none : MarkedBefore (starts code) 0 [] [] [] :=
    ⟨fun nonempty => absurd rfl nonempty, id, fun _ => rfl, fun nonempty => absurd rfl nonempty⟩
  have all : ∀ s ∈ scanSitesFrom 0 [] [] code, isBareBuiltin s = true →
      s.word.start ∈ starts code :=
    fun s hs bare => List.mem_map_of_mem (List.mem_map_of_mem (List.mem_filter.mpr ⟨hs, bare⟩))
  refine List.map_eq_nil_iff.mpr (List.filter_eq_nil_iff.mpr fun s member => ?_)
  exact Bool.eq_false_iff.mp (not_isBareBuiltin_insertFrom all inside edge 0 none member)

/-- Before a word the lexer is in code and shows the mark. A backslash there escapes the mark and
no longer the word, which is read the same. -/
theorem codeView_insertAt_starts (text : List Char) :
    codeView (insertAt [':', ':'] (starts (codeView text)) text) =
      insertAt [':', ':'] (starts (codeView text)) (codeView text) := by
  refine codeView_insertAt fun p place => ?_
  obtain ⟨w, found, rfl⟩ := List.mem_map.mp place
  have word := wordAt_of_mem_bareWords found
  obtain ⟨c, stands, isWord⟩ :=
    (Option.any_eq_true ..).mp (word.isWordChar_at (Nat.le_refl _) word.start_lt)
  obtain ⟨inText, code⟩ := before_of_isWordChar_codeView stands isWord
  obtain ⟨escaped, state⟩ : ∃ escaped, LexState.before text w.start = ⟨.code, escaped⟩ :=
    ⟨_, by rw [← code]⟩
  rw [state, inText]
  refine ⟨by cases escaped <;> decide, fun d same => ?_, fun d same => ?_⟩
  · rfl
  · obtain rfl := Option.some.inj same
    rw [LexState.read_word rfl isWord, LexState.read_word rfl isWord]

end BuiltinCalls

/-- With a mark put at a place of each finding that carries the code, the code view shows these
marks and is unchanged otherwise, and the checker emits nothing. The places all differ. -/
def Checker.RepairedBy (checker : Checker) (code : Code) (mark : List Char)
    (place : Finding → Int) : Prop :=
  ∀ (source : Source) (options : Options) (declared : List String), ∃ findings,
    (checker.emit ⟨source, options⟩).outcome declared = (.ok findings, declared) ∧
    let places := (findings.filter (·.code == code.text)).map fun f => (place f).toNat
    let repaired : Source := ⟨source.name, insertAt mark places source.text⟩
    places.Pairwise (· < ·) ∧
    (checker.emit ⟨repaired, options⟩).outcome declared = (.ok [], declared) ∧
    repaired.code = insertAt mark places source.code

/-- A checker that reports some words of the code view is repaired by marks at these words, if they
show in the view as they are and leave no such word. -/
theorem Checker.repairedBy_ofSites {name title description : String} {code : Code}
    {sites : Source → Options → List Site} {words : List Char → List Word} {site : Word → Site}
    {at_ : Word → Nat} {mark : List Char} {place : Finding → Int}
    (apt : ∀ source options, ∀ s ∈ sites source options, s.Apt source.text [code])
    (sites_eq : ∀ source options, sites source options = (words source.code).map site)
    (site_code : ∀ w, (site w).code = code.text)
    (placed : ∀ (checker : Checker) w, place (checker.placed (site w)) = at_ w)
    (ordered : ∀ view, ((words view).map at_).Pairwise (· < ·))
    (shown : ∀ text, codeView (insertAt mark ((words (codeView text)).map at_) text) =
      insertAt mark ((words (codeView text)).map at_) (codeView text))
    (repaired : ∀ view, words (insertAt mark ((words view).map at_) view) = []) :
    (ofSites name title description [code] sites).RepairedBy code mark place := by
  intro source options declared
  let checker := ofSites name title description [code] sites
  have emits (source : Source) : (checker.emit ⟨source, options⟩).outcome declared =
      (.ok (((words source.code).map site).map checker.placed), declared) := by
    rw [← sites_eq source options]
    exact outcome_emit_placed (apt source options) declared
  have places : ((((words source.code).map site).map checker.placed).filter
      (·.code == code.text)).map (fun f => (place f).toNat) = (words source.code).map at_ := by
    have all : (((words source.code).map site).map checker.placed).filter (·.code == code.text) =
        ((words source.code).map site).map checker.placed := by
      refine List.filter_eq_self.mpr fun f member => ?_
      obtain ⟨s, hs, rfl⟩ := List.mem_map.mp member
      obtain ⟨w, -, rfl⟩ := List.mem_map.mp hs
      exact beq_iff_eq.mpr (site_code w)
    rw [all, List.map_map, List.map_map]
    refine List.map_congr_left fun w _ => ?_
    simp only [Function.comp, placed, Int.toNat_natCast]
  refine ⟨_, emits source, ?_⟩
  simp only [places]
  refine ⟨ordered source.code, ?_, shown source.text⟩
  have none : words (codeView (insertAt mark ((words source.code).map at_) source.text)) = [] := by
    rw [Source.code, shown source.text, repaired]
  rw [emits, Source.code, none]
  rfl

/-- **The fixes that messages suggest work.** With `$` at the end of every keyword reported to lack
it, no keyword is reported, and with `::` at the start of every call of a built-in reported to lack
it, no call is. -/
theorem suggested_fixes_work :
    KeywordSuffix.checker.RepairedBy .missingKeywordSuffix ['$'] (·.stop) ∧
    BuiltinCalls.checker.RepairedBy .missingBuiltinPrefix [':', ':'] (·.start) := by
  constructor
  · exact Checker.repairedBy_ofSites KeywordSuffix.apt_sites (fun _ _ => rfl) (fun _ => rfl)
      (fun _ _ => rfl) KeywordSuffix.pairwise_ends KeywordSuffix.codeView_insertAt_ends
      KeywordSuffix.bareKeywords_insertAt
  · have byWords (source : Source) (options : Options) : BuiltinCalls.sites source options =
        (BuiltinCalls.bareWords source.code).map BuiltinCalls.site := by
      rw [BuiltinCalls.sites, BuiltinCalls.bareCalls_eq_words]
    exact Checker.repairedBy_ofSites BuiltinCalls.apt_sites byWords (fun _ => rfl)
      (fun _ _ => rfl) BuiltinCalls.pairwise_starts BuiltinCalls.codeView_insertAt_starts
      BuiltinCalls.bareWords_insertAt

end LexLint
