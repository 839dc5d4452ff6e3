import LexLint.Proofs.Checker.Ranges
import LexLint.Proofs.Scan.Braces

/-!
# Unclosed braces, seen by two checkers

The checks of brackets and of dictionary literals tell on their own which braces are unclosed. They
agree as long as no bracket is closed by one of another kind (`unclosed_braces_agree`): a dictionary
literal is reported as unclosed exactly if its brace is.
-/

namespace LexLint

namespace Brackets

theorem code_site_eq_mismatched {e : BracketEvent} :
    (site e).code = Code.mismatchedBracket.text ↔
      ∃ found expected, e.fault = .mismatch found expected := by
  obtain ⟨fault, offset⟩ := e
  cases fault with
  | mismatch found expected => exact ⟨fun _ => ⟨found, expected, rfl⟩, fun _ => rfl⟩
  | unexpected found => simp [site, Site.at, Code.text]
  | unclosed opened => simp [site, Site.at, Code.text]

theorem code_site_eq_unclosed {e : BracketEvent} :
    (site e).code = Code.unclosedBracket.text ↔ ∃ opened, e.fault = .unclosed opened := by
  obtain ⟨fault, offset⟩ := e
  cases fault with
  | mismatch found expected => simp [site, Site.at, Code.text]
  | unexpected found => simp [site, Site.at, Code.text]
  | unclosed opened => exact ⟨fun _ => ⟨opened, rfl⟩, fun _ => rfl⟩

/-- An event is found where it happens. -/
theorem range_finding {source : Source} {options : Options} {view : List Char}
    (viewed : sites source options = (scanBrackets view).map site) {e : BracketEvent}
    (h : e ∈ scanBrackets view) :
    (checker.finding source.length (site e)).start = e.offset ∧
      (checker.finding source.length (site e)).stop = e.offset + 1 := by
  have member : site e ∈ sites source options := viewed ▸ List.mem_map_of_mem h
  exact ((apt_sites source options (site e) member).finding rfl).2

end Brackets

namespace Dictionaries

/-- The braces of dictionary literals that nothing closes. -/
theorem unclosed_mem_faults {code : List Char} {window : Nat} {span : Span} :
    .unclosed span ∈ faults code window ↔ ∃ s ∈ scanSites code, s.word.text = "dict" ∧
      ∃ distance, braceWithin? window s.after = some distance ∧
        isClosed (pairBraces code) (s.word.stop + distance) = false ∧
        span = ⟨s.word.start, s.word.stop + distance + 1⟩ := by
  simp only [faults, List.mem_filterMap, List.mem_filter, beq_iff_eq, and_assoc]
  refine exists_congr fun s => and_congr_right fun _ => and_congr_right fun _ => ?_
  unfold fault?
  cases braceWithin? window s.after with
  | none => simp
  | some distance =>
    cases closed : isClosed (pairBraces code) (s.word.stop + distance) with
    | true => simp [closed]
    | false =>
      simp only [closed, Bool.false_eq_true, if_false, Option.some.injEq, Fault.unclosed.injEq,
        exists_eq_left', true_and]
      exact eq_comm

/-- The brace looked for after a word stands where it is found. -/
theorem getElem?_brace {code : List Char} {s : WordSite} (scanned : s ∈ scanSites code)
    {window distance : Nat} (within : braceWithin? window s.after = some distance) :
    code[s.word.stop + distance]? = some '\x7b' := by
  have fits := fits_of_mem_scanSites scanned
  obtain ⟨blanks, rest, -, rfl, after⟩ := braceWithin?_eq_some within
  have split : code = (s.before.reverse ++ (s.word.text.toList ++ blanks)) ++ '\x7b' :: rest := by
    rw [fits.split, after]
    simp only [List.append_assoc]
  have place : s.word.stop + blanks.length =
      (s.before.reverse ++ (s.word.text.toList ++ blanks)).length := by
    simp only [fits.stop, List.length_append, List.length_reverse, Nat.add_assoc]
  rw [place, split, List.getElem?_append_right (Nat.le_refl _), Nat.sub_self]
  rfl

/-- A literal is reported as unclosed with the range of its fault. -/
theorem exists_fault_of_mem_sites {source : Source} {options : Options} {s : Site}
    (h : s ∈ sites source options) (code : s.code = Code.unclosedDict.text) :
    ∃ span, .unclosed span ∈ faults source.code options.lookaheadChars ∧
      s.start = span.start ∧ s.stop = span.stop := by
  obtain ⟨span, ⟨-, reported⟩ | ⟨found, reported⟩⟩ := exists_span_of_mem_sites h
  · obtain rfl := Option.some.inj reported
    have same : Code.missingDictBrace.text = Code.unclosedDict.text := code
    exact absurd (Code.text_injective same) (by decide)
  · obtain rfl := Option.some.inj reported
    exact ⟨span, found, rfl, rfl⟩

theorem exists_site_of_mem_faults {source : Source} {options : Options} {span : Span}
    (h : .unclosed span ∈ faults source.code options.lookaheadChars) :
    ∃ s ∈ sites source options, s.code = Code.unclosedDict.text ∧ s.start = span.start ∧
      s.stop = span.stop := by
  refine ⟨_, List.mem_append_right _ (List.mem_filterMap.mpr ⟨.unclosed span, h, rfl⟩), ?_⟩
  exact ⟨rfl, rfl, rfl⟩

end Dictionaries

/-- At a brace, an unclosed bracket is a brace. -/
theorem unclosed_curly_of_mem {text : List Char} {o : Nat} {opened : Bracket}
    (h : ⟨.unclosed opened, o⟩ ∈ scanBrackets text) (brace : text[o]? = some '\x7b') :
    opened = .curly := by
  have stands := getElem?_of_mem_scanBrackets h
  rw [brace] at stands
  have opener : '\x7b' = opened.opener := Option.some.inj stands
  revert opener
  cases opened <;> decide

/-- Where brackets fit, the pair of a brace lacks its end exactly if the brace is unclosed. -/
theorem exists_pair_and_unclosed_iff {text : List Char} (h : NoMismatch (scanBrackets text))
    {o : Nat} (brace : text[o]? = some '\x7b') :
    ∃ closed, (∀ pair, pair ∈ pairBraces text ∧ pair.opened = o ↔ pair = ⟨o, closed⟩) ∧
      (closed = none ↔ ∃ opened, ⟨.unclosed opened, o⟩ ∈ scanBrackets text) := by
  obtain ⟨closed, unique⟩ := exists_unique_pair brace
  refine ⟨closed, unique, ?_⟩
  constructor
  · rintro rfl
    have member := ((unique ⟨o, none⟩).mpr rfl).1
    exact ⟨.curly, (mem_pairBraces_none_iff h o).mp member⟩
  · rintro ⟨opened, event⟩
    obtain rfl := unclosed_curly_of_mem event brace
    have open_ := (mem_pairBraces_none_iff h o).mpr event
    exact (BracePair.mk.inj ((unique _).mp ⟨open_, rfl⟩)).2.symm

theorem isClosed_eq_false_iff_unclosed {text : List Char} (h : NoMismatch (scanBrackets text))
    {o : Nat} (brace : text[o]? = some '\x7b') :
    isClosed (pairBraces text) o = false ↔
      ∃ opened, ⟨.unclosed opened, o⟩ ∈ scanBrackets text := by
  obtain ⟨closed, unique, unclosed⟩ := exists_pair_and_unclosed_iff h brace
  rw [isClosed_eq_false_iff unique, unclosed]

/-- **Two checkers agree on unclosed braces.** Where no bracket of the code is closed by one of
another kind, every brace has one pair, which lacks its end exactly if the brace is unclosed. So an
unclosed dictionary literal comes with the unclosed bracket at its end, and an unclosed bracket that
is the brace of a dictionary literal comes with that literal. -/
theorem unclosed_braces_agree (source : Source) :
    (NoMismatch (scanBrackets source.code) → ∀ o, source.code[o]? = some '\x7b' →
      ∃ closed, (∀ pair, pair ∈ pairBraces source.code ∧ pair.opened = o ↔ pair = ⟨o, closed⟩) ∧
        (closed = none ↔ ∃ opened, ⟨.unclosed opened, o⟩ ∈ scanBrackets source.code)) ∧
    ∀ (options : Options) (declared : List String), options.ignoreStrings = true →
      ∃ brackets literals,
        (Brackets.checker.emit ⟨source, options⟩).outcome declared = (.ok brackets, declared) ∧
        (Dictionaries.checker.emit ⟨source, options⟩).outcome declared =
          (.ok literals, declared) ∧
        ((∀ f ∈ brackets, f.code ≠ Code.mismatchedBracket.text) →
          (∀ f ∈ literals, f.code = Code.unclosedDict.text →
            ∃ g ∈ brackets, g.code = Code.unclosedBracket.text ∧ g.start = f.stop - 1 ∧
              g.stop = f.stop) ∧
          ∀ s ∈ scanSites source.code, s.word.text = "dict" → ∀ distance,
            Dictionaries.braceWithin? options.lookaheadChars s.after = some distance →
            ∀ g ∈ brackets, g.code = Code.unclosedBracket.text →
              g.start = s.word.stop + distance →
              ∃ f ∈ literals, f.code = Code.unclosedDict.text ∧ f.start = s.word.start ∧
                f.stop = g.start + 1) := by
  refine ⟨fun fitting o brace => exists_pair_and_unclosed_iff fitting brace, ?_⟩
  intro options declared ignore
  have viewed : Brackets.sites source options = (scanBrackets source.code).map Brackets.site := by
    rw [Brackets.sites, if_pos ignore]
  refine ⟨(Brackets.sites source options).map (Brackets.checker.finding source.length),
    (Dictionaries.sites source options).map (Dictionaries.checker.finding source.length),
    Checker.outcome_emit_ofSites .., Checker.outcome_emit_ofSites .., fun noMismatch => ?_⟩
  rw [viewed] at noMismatch
  have fitting : NoMismatch (scanBrackets source.code) := by
    intro e member found expected mismatch
    have site := noMismatch _ (List.mem_map_of_mem (List.mem_map_of_mem member))
    exact site (Brackets.code_site_eq_mismatched.mpr ⟨found, expected, mismatch⟩)
  have inRange (s : Site) (hs : s ∈ Dictionaries.sites source options) :
      (Dictionaries.checker.finding source.length s).start = s.start ∧
        (Dictionaries.checker.finding source.length s).stop = s.stop :=
    ((Dictionaries.apt_sites source options s hs).finding rfl).2
  constructor
  · intro f hf unclosedDict
    obtain ⟨s, inSites, rfl⟩ := List.mem_map.mp hf
    obtain ⟨span, fault, -, stop⟩ := Dictionaries.exists_fault_of_mem_sites inSites unclosedDict
    obtain ⟨w, scanned, -, distance, within, isOpen, rfl⟩ :=
      Dictionaries.unclosed_mem_faults.mp fault
    have brace := Dictionaries.getElem?_brace scanned within
    obtain ⟨opened, event⟩ := (isClosed_eq_false_iff_unclosed fitting brace).mp isOpen
    have range := Brackets.range_finding viewed event
    refine ⟨_, List.mem_map_of_mem (viewed ▸ List.mem_map_of_mem event), rfl, ?_, ?_⟩
    · rw [(inRange s inSites).2, stop]
      exact range.1.trans (by simp)
    · rw [(inRange s inSites).2, stop]
      exact range.2
  · intro w scanned isDict distance within g hg unclosedBracket place
    rw [viewed, List.map_map] at hg
    obtain ⟨e, member, rfl⟩ := List.mem_map.mp hg
    obtain ⟨opened, fault⟩ := Brackets.code_site_eq_unclosed.mp unclosedBracket
    have offset : e.offset = w.word.stop + distance := by
      have := (Brackets.range_finding viewed member).1.symm.trans place
      omega
    have event : ⟨.unclosed opened, w.word.stop + distance⟩ ∈ scanBrackets source.code := by
      rw [← fault, ← offset]
      exact member
    have brace := Dictionaries.getElem?_brace scanned within
    have isOpen := (isClosed_eq_false_iff_unclosed fitting brace).mpr ⟨opened, event⟩
    obtain ⟨s, inSites, code, start, stop⟩ := Dictionaries.exists_site_of_mem_faults
      (Dictionaries.unclosed_mem_faults.mpr ⟨w, scanned, isDict, distance, within, isOpen, rfl⟩)
    refine ⟨_, List.mem_map_of_mem inSites, code, ?_, ?_⟩
    · rw [(inRange s inSites).1, start]
    · rw [(inRange s inSites).2, stop, place]
      simp

/-- A dictionary literal left open around one that is closed, between a stray closing brace and an
open bracket. -/
theorem unclosed_braces_agree_nested :
    let source : Source := .ofString "a" "\x7d dict \x7bk: dict\x7b\x7d, (# \x7d"
    let options : Options := {}
    NoMismatch (scanBrackets source.code) ∧ source.code[7]? = some '\x7b' ∧
      options.ignoreStrings = true ∧
      (∃ closed, ⟨7, closed⟩ ∈ pairBraces source.code ∧
        (closed = none ↔ ∃ opened, ⟨.unclosed opened, 7⟩ ∈ scanBrackets source.code)) ∧
      ∃ brackets literals,
        (Brackets.checker.emit ⟨source, options⟩).outcome [] = (.ok brackets, []) ∧
        (Dictionaries.checker.emit ⟨source, options⟩).outcome [] = (.ok literals, []) ∧
        brackets.map (fun f => (f.code, f.start)) =
          [("unexpectedBracket", 0), ("unclosedBracket", 7), ("unclosedBracket", 19)] ∧
        ∃ f ∈ literals, f.code = "unclosedDict" ∧ f.start = 2 ∧ f.stop = 8 := by
  intro source options
  have events : scanBrackets source.code =
      [⟨.unexpected .curly, 0⟩, ⟨.unclosed .curly, 7⟩, ⟨.unclosed .round, 19⟩] := by
    decide +kernel
  have fitting : NoMismatch (scanBrackets source.code) := by
    rw [events]
    simp [NoMismatch]
  have brace : source.code[7]? = some '\x7b' := by decide +kernel
  obtain ⟨pairs, checks⟩ := unclosed_braces_agree source
  obtain ⟨closed, unique, unclosed⟩ := pairs fitting 7 brace
  obtain ⟨brackets, literals, emitsBrackets, emitsLiterals, agree⟩ := checks options [] rfl
  have reported : brackets.map (fun f => (f.code, f.start)) =
      [("unexpectedBracket", 0), ("unclosedBracket", 7), ("unclosedBracket", 19)] := by
    rw [Except.ok.inj (congrArg Prod.fst emitsBrackets.symm)]
    decide +kernel
  have noMismatch : ∀ f ∈ brackets, f.code ≠ Code.mismatchedBracket.text := by
    rw [Except.ok.inj (congrArg Prod.fst emitsBrackets.symm)]
    decide +kernel
  obtain ⟨g, hg, same⟩ := List.mem_map.mp
    (show ("unclosedBracket", (7 : Int)) ∈ brackets.map (fun f => (f.code, f.start)) by
      simp [reported])
  obtain ⟨code, start⟩ := Prod.mk.inj same
  obtain ⟨s, scanned, isDict, first, last, within⟩ : ∃ s ∈ scanSites source.code,
      s.word.text = "dict" ∧ s.word.start = 2 ∧ s.word.stop = 6 ∧
      Dictionaries.braceWithin? options.lookaheadChars s.after = some 1 := by
    decide +kernel
  obtain ⟨f, hf, unclosedDict, begins, ends⟩ :=
    (agree noMismatch).2 s scanned isDict 1 within g hg code (by rw [start, last]; rfl)
  refine ⟨fitting, brace, rfl, ⟨closed, ((unique _).mpr rfl).1, unclosed⟩, brackets, literals,
    emitsBrackets, emitsLiterals, reported, f, hf, unclosedDict, ?_, ?_⟩
  · rw [begins, first]
    rfl
  · rw [ends, start]
    rfl

end LexLint
