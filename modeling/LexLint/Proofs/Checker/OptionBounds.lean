import LexLint.Proofs.Checker.FirstUses

/-!
# Options act monotonically

A wider look finds more of what is looked for. With more lines to look at, more headers have a body
and fewer are reported; with more characters, more angle brackets are closed and more runs are
reported, and more dictionaries have a brace. Each place is judged by itself, so that what is
reported with the narrower look and with the wider one is a sublist of the other. A name that is
always declared takes its own findings away and changes no other, whatever the turns of the
checkers (`takeTurns_withNames`).
-/

namespace LexLint

/-- The findings with a code. -/
def ofCode (code : Code) (findings : List Finding) : List Finding :=
  findings.filter (·.code == code.text)

/-! ### Lines below a header -/

namespace Constructs

theorem hasBody_mono {index : LineIndex} {lines : List Line} {k k' stop : Nat} (le : k ≤ k')
    (h : hasBody index lines k stop = true) : hasBody index lines k' stop = true := by
  unfold hasBody at h ⊢
  split
  · rename_i none
    rw [none] at h
    cases h
  · rename_i line below rest
    simp only [rest, Bool.or_eq_true, List.any_eq_true] at h ⊢
    refine h.imp_right fun ⟨l, member, opens⟩ => ⟨l, ?_, opens⟩
    exact (List.take_sublist_take_left le).subset member

/-- A header without a body within many lines has none within few. -/
theorem sites_sublist {k k' : Nat} (le : k ≤ k') (source : Source) (options : Options) :
    (sites source { options with lookaheadLines := k' }).Sublist
      (sites source { options with lookaheadLines := k }) := by
  have fewer (headers : List Header) :
      (headers.filter fun h => !hasBody source.index source.lines k' h.stop).Sublist
        (headers.filter fun h => !hasBody source.index source.lines k h.stop) := by
    refine List.monotone_filter_right headers fun h without => ?_
    rw [Bool.not_eq_true'] at without ⊢
    exact Bool.eq_false_iff.mpr fun body => Bool.eq_false_iff.mp without (hasBody_mono le body)
  exact (((fewer _).map _).append ((fewer _).map _)).append ((fewer _).map _)

end Constructs

/-! ### Characters between angle brackets -/

theorem angleInner?_mono {k k' : Nat} (le : k ≤ k') {s inner : List Char}
    (h : angleInner? k s = some inner) : angleInner? k' s = some inner := by
  obtain ⟨short, plain, split⟩ := angleInner?_eq_some_iff.mp h
  exact angleInner?_eq_some_iff.mpr ⟨Nat.lt_of_lt_of_le short le, plain, split⟩

/-- A bracket that is closed within few characters is closed there within many. -/
theorem scanAnglesFrom_sublist {k k' : Nat} (le : k ≤ k') (offset : Nat) (text : List Char) :
    (scanAnglesFrom k offset text).Sublist (scanAnglesFrom k' offset text) := by
  induction text generalizing offset with
  | nil => exact List.Sublist.refl _
  | cons c rest ih =>
    simp only [scanAnglesFrom]
    split
    · cases closed : angleInner? k rest with
      | some inner =>
        simp only [angleInner?_mono le closed]
        exact (ih (offset + 1)).cons_cons _
      | none =>
        simp only
        split
        · exact (ih (offset + 1)).cons _
        · exact ih (offset + 1)
    · exact ih (offset + 1)

theorem DataTypes.sites_sublist {k k' : Nat} (le : k ≤ k') (source : Source) (options : Options) :
    (sites source { options with typeSpanLimit := k }).Sublist
      (sites source { options with typeSpanLimit := k' }) :=
  (scanAnglesFrom_sublist le 0 source.code).filterMap site?

/-! ### Characters before a dictionary's brace -/

namespace Dictionaries

theorem braceWithin?_mono {k k' : Nat} (le : k ≤ k') {s : List Char} {distance : Nat}
    (h : braceWithin? k s = some distance) : braceWithin? k' s = some distance := by
  induction k generalizing k' s distance with
  | zero => cases h
  | succ k ih =>
    obtain ⟨k', rfl⟩ := Nat.exists_eq_succ_of_ne_zero (Nat.ne_zero_of_lt le)
    cases s with
    | nil => cases h
    | cons c rest =>
      rw [braceWithin?] at h ⊢
      split
      · rwa [if_pos ‹_›] at h
      · rw [if_neg ‹_›] at h
        split
        · rw [if_pos ‹_›] at h
          obtain ⟨closer, found, rfl⟩ := Option.map_eq_some_iff.mp h
          rw [ih (Nat.le_of_succ_le_succ le) found, Option.map_some]
        · rwa [if_neg ‹_›] at h

theorem lt_of_braceWithin? {window distance : Nat} {s : List Char}
    (h : braceWithin? window s = some distance) : distance < window := by
  induction window generalizing s distance with
  | zero => cases h
  | succ window ih =>
    cases s with
    | nil => cases h
    | cons c rest =>
      simp only [braceWithin?] at h
      split at h
      · obtain rfl := Option.some.inj h
        exact Nat.succ_pos window
      · split at h
        · obtain ⟨closer, found, rfl⟩ := Option.map_eq_some_iff.mp h
          exact Nat.succ_lt_succ (ih found)
        · cases h

/-- The literals of a code view. -/
def literals (code : List Char) : List WordSite :=
  (scanSites code).filter (·.word.text == "dict")

/-- What is reported of the faults of one kind. -/
def reports (report : Fault → Option Site) (code : List Char) (window : Nat) : List Finding :=
  ((faults code window).filterMap report).map checker.placed

theorem reports_eq (report : Fault → Option Site) (code : List Char) (window : Nat) :
    reports report code window = (literals code).filterMap fun s =>
      ((fault? (pairBraces code) window s).bind report).map checker.placed := by
  rw [reports, faults, List.filterMap_filterMap, List.map_filterMap]
  rfl

theorem emits_reports (source : Source) (options : Options) (declared : List String) :
    checker.Emits ⟨source, options⟩ declared
      (reports missingSite? source.code options.lookaheadChars ++
        reports unclosedSite? source.code options.lookaheadChars) := by
  have emitted : (checker.emit ⟨source, options⟩).outcome declared =
      (.ok ((sites source options).map checker.placed), declared) :=
    Checker.outcome_emit_placed (apt_sites source options) declared
  rw [Checker.Emits, emitted, reports, reports, ← List.map_append]
  rfl

theorem code_of_mem_reports {code : List Char} {window : Nat} {f : Finding} :
    (f ∈ reports missingSite? code window → f.code = Code.missingDictBrace.text) ∧
      (f ∈ reports unclosedSite? code window → f.code = Code.unclosedDict.text) := by
  constructor
  · intro member
    obtain ⟨site, reported, rfl⟩ := List.mem_map.mp member
    obtain ⟨fault, -, found⟩ := List.mem_filterMap.mp reported
    cases fault with
    | missing span => rw [← Option.some.inj found]; rfl
    | unclosed span => cases found
  · intro member
    obtain ⟨site, reported, rfl⟩ := List.mem_map.mp member
    obtain ⟨fault, -, found⟩ := List.mem_filterMap.mp reported
    cases fault with
    | missing span => cases found
    | unclosed span => rw [← Option.some.inj found]; rfl

/-- The codes tell the two kinds of faults apart. -/
theorem ofCode_reports (code : List Char) (window : Nat) :
    let found := reports missingSite? code window ++ reports unclosedSite? code window
    ofCode .missingDictBrace found = reports missingSite? code window ∧
      ofCode .unclosedDict found = reports unclosedSite? code window := by
  intro found
  have differ : Code.missingDictBrace.text ≠ Code.unclosedDict.text := by decide
  have missing {f : Finding} (h : f ∈ reports missingSite? code window) :=
    code_of_mem_reports.1 h
  have unclosed {f : Finding} (h : f ∈ reports unclosedSite? code window) :=
    code_of_mem_reports.2 h
  simp only [ofCode, found, List.filter_append]
  constructor
  · rw [List.filter_eq_self.mpr fun f h => by simp [missing h],
      List.filter_eq_nil_iff.mpr fun f h => by simp [unclosed h, differ.symm], List.append_nil]
  · rw [List.filter_eq_nil_iff.mpr fun f h => by simp [missing h, differ],
      List.filter_eq_self.mpr fun f h => by simp [unclosed h], List.nil_append]

/-- Parts of a list that are found by less are a sublist of those found by more. -/
theorem filterMap_sublist_filterMap {α β : Type} {f g : α → Option β}
    (h : ∀ x y, f x = some y → g x = some y) (xs : List α) :
    (xs.filterMap f).Sublist (xs.filterMap g) := by
  induction xs with
  | nil => exact List.Sublist.refl _
  | cons x rest ih =>
    cases found : f x with
    | some y =>
      rw [List.filterMap_cons_some found, List.filterMap_cons_some (h x y found)]
      exact ih.cons_cons y
    | none =>
      rw [List.filterMap_cons_none found]
      exact ih.trans ((List.sublist_cons_self x rest).filterMap g)

/-- A brace that is missing within many characters is missing within few. -/
theorem missing_sublist {k k' : Nat} (le : k ≤ k') (code : List Char) :
    (reports missingSite? code k').Sublist (reports missingSite? code k) := by
  rw [reports_eq, reports_eq]
  refine filterMap_sublist_filterMap (fun s f reported => ?_) _
  cases within' : braceWithin? k' s.after with
  | none =>
    have within : braceWithin? k s.after = none := by
      refine Option.eq_none_iff_forall_ne_some.mpr fun distance found => ?_
      rw [braceWithin?_mono le found] at within'
      cases within'
    simpa only [fault?, within, within'] using reported
  | some distance =>
    simp only [fault?, within'] at reported
    split at reported <;> cases reported

/-- A brace that is found within few characters and never closed is so within many. -/
theorem unclosed_sublist {k k' : Nat} (le : k ≤ k') (code : List Char) :
    (reports unclosedSite? code k).Sublist (reports unclosedSite? code k') := by
  rw [reports_eq, reports_eq]
  refine filterMap_sublist_filterMap (fun s f reported => ?_) _
  cases within : braceWithin? k s.after with
  | none =>
    simp only [fault?, within] at reported
    cases reported
  | some distance => simpa only [fault?, within, braceWithin?_mono le within] using reported

/-- Within a window behind an offset, and behind nothing but blanks, a brace opens that is
closed. -/
def ClosedBraceBehind (code : List Char) (offset window : Nat) : Prop :=
  ∃ blanks rest, AllBlank blanks ∧ blanks.length < window ∧
    code.drop offset = blanks ++ '\x7b' :: rest ∧
    ∃ closing, ⟨offset + blanks.length, some closing⟩ ∈ pairBraces code

/-- A literal whose brace is missing with one window and not with another has a brace within that
one, which is reported as unclosed or is closed. -/
theorem brace_of_not_missing {code : List Char} {k k' : Nat} {f : Finding}
    (missing : f ∈ reports missingSite? code k) (found : f ∉ reports missingSite? code k') :
    (∃ g ∈ reports unclosedSite? code k', g.start = f.start) ∨
      ClosedBraceBehind code f.stop.toNat k' := by
  rw [reports_eq] at missing found
  obtain ⟨s, literal, reported⟩ := List.mem_filterMap.mp missing
  have same : f = checker.placed (.at .missingDictBrace
      "Dictionary declaration should be followed by \x7b (e.g., dict\x7bkey: value\x7d)"
      s.word.start s.word.stop) := by
    cases within : braceWithin? k s.after with
    | none =>
      simp only [fault?, within] at reported
      exact (Option.some.inj reported).symm
    | some distance =>
      simp only [fault?, within] at reported
      split at reported <;> cases reported
  cases within : braceWithin? k' s.after with
  | none =>
    refine absurd (List.mem_filterMap.mpr ⟨s, literal, ?_⟩) found
    simp only [fault?, within, same]
    rfl
  | some distance =>
    cases closed : isClosed (pairBraces code) (s.word.stop + distance) with
    | false =>
      refine .inl ⟨checker.placed (.at .unclosedDict "Unclosed dictionary. Missing closing \x7d"
        s.word.start (s.word.stop + distance + 1)), ?_, by rw [same]; rfl⟩
      rw [reports_eq]
      refine List.mem_filterMap.mpr ⟨s, literal, ?_⟩
      simp only [fault?, within, closed, Bool.false_eq_true, if_false]
      rfl
    | true =>
      obtain ⟨blanks, rest, blank, size, after⟩ := braceWithin?_eq_some within
      have fits := fits_of_mem_scanSites (List.mem_of_mem_filter literal)
      have behind : code.drop s.word.stop = s.after := by
        have split : code = s.before.reverse ++ s.word.text.toList ++ s.after := by
          rw [List.append_assoc]
          exact fits.split
        have stop : s.word.stop = (s.before.reverse ++ s.word.text.toList).length := by
          rw [fits.stop, List.length_append, List.length_reverse]
        rw [stop, split, List.drop_left]
      obtain ⟨⟨opened, closing⟩, paired, matched⟩ := List.any_eq_true.mp closed
      obtain ⟨place, closes⟩ := Bool.and_eq_true_iff.mp matched
      obtain ⟨closing, rfl⟩ := Option.isSome_iff_exists.mp closes
      obtain rfl := beq_iff_eq.mp place
      rw [same]
      exact .inr ⟨blanks, rest, blank, size ▸ lt_of_braceWithin? within, behind.trans after,
        closing, by rw [size]; exact paired⟩

end Dictionaries

/-! ### Names that are always declared -/

namespace Undeclared

/-- The finding says of one of the names that it is not defined. -/
def speaksOf (names : List String) (f : Finding) : Bool :=
  names.any fun name => f.message == s!"Variable '{name}' is used but not defined"

theorem speaksOf_undefinedVariable (names : List String) (w : Word) :
    speaksOf names (undefinedVariable w) = decide (w.text ∈ names) := by
  rw [Bool.eq_iff_iff, decide_eq_true_iff, speaksOf, List.any_eq_true]
  constructor
  · rintro ⟨name, member, same⟩
    have text := text_eq_of_message_eq (v := w) (w := ⟨0, 0, name⟩) (beq_iff_eq.mp same)
    rw [text]
    exact member
  · intro member
    exact ⟨w.text, member, beq_self_eq_true _⟩

/-- More names are known, but none besides those given. -/
structure KnowsAlso (more known known' : List String) : Prop where
  kept : ∀ name ∈ known, name ∈ known'
  added : ∀ name ∈ known', name ∈ known ∨ name ∈ more

/-- One turn of the checker with more names that are always declared. -/
theorem outcome_emit_withNames (source : Source) {options : Options} {more names : List String}
    (adds : ∀ name, name ∈ names ↔ name ∈ options.implicitNames ∨ name ∈ more)
    {known known' : List String} (also : KnowsAlso more known known') :
    ∃ found after after',
      (checker.emit ⟨source, options⟩).outcome known = (.ok found, after) ∧
      (checker.emit ⟨source, { options with implicitNames := names }⟩).outcome known' =
        (.ok (found.filter fun f => !speaksOf more f), after') ∧
      KnowsAlso more after after' := by
  let scope := (seed ⟨source, options⟩).foldl (fun ns n => insertNew n ns) known
  let scope' := (seed ⟨source, { options with implicitNames := names }⟩).foldl
    (fun ns n => insertNew n ns) known'
  have inScope (name : String) : name ∈ scope' ↔ name ∈ scope ∨ name ∈ more := by
    simp only [scope, scope', mem_foldl_insertNew, seed, List.mem_append, adds]
    have kept := also.kept name
    have added := also.added name
    grind
  have words := firstUses_eq_filter inScope (codeUses source.code)
  have reported : ((firstUses scope (codeUses source.code)).1.map undefinedVariable).filter
      (fun f => !speaksOf more f) =
        (firstUses scope' (codeUses source.code)).1.map undefinedVariable := by
    rw [words, List.filter_map]
    congr 1
    refine List.filter_congr fun w _ => ?_
    rw [Function.comp_apply, speaksOf_undefinedVariable, ← decide_not]
  refine ⟨_, _, (firstUses scope' (codeUses source.code)).2,
    outcome_emit_firstUses ⟨source, options⟩ known, ?_, ?_⟩
  · rw [outcome_emit_firstUses]
    exact congrArg (fun found => (Except.ok found, (firstUses scope' (codeUses source.code)).2))
      reported.symm
  · show KnowsAlso more (firstUses scope (codeUses source.code)).2
      (firstUses scope' (codeUses source.code)).2
    rw [firstUses_snd, firstUses_snd, words]
    constructor
    · intro name member
      rw [List.mem_append, inScope]
      rcases List.mem_append.mp member with old | used
      · exact .inl (.inl old)
      · obtain ⟨w, first, rfl⟩ := List.mem_map.mp used
        by_cases given : w.text ∈ more
        · exact .inl (.inr given)
        · exact .inr (List.mem_map_of_mem (List.mem_filter.mpr ⟨first, by simpa using given⟩))
    · intro name member
      rw [List.mem_append]
      rcases List.mem_append.mp member with old | used
      · exact ((inScope name).mp old).imp_left .inl
      · obtain ⟨w, first, rfl⟩ := List.mem_map.mp used
        exact .inl (.inr (List.mem_map_of_mem (List.mem_of_mem_filter first)))

end Undeclared

/-- The other checkers of the language do not ask which names are always declared. -/
theorem outcome_emit_withNames_of_builtin {checker : Checker}
    (h : checker ∈ Registry.builtinCheckers) :
    checker = Undeclared.checker ∨ checker.name ≠ Undeclared.checker.name ∧
      ∀ (source : Source) (options : Options) (names : List String), ∃ found, ∀ known,
        (checker.emit ⟨source, options⟩).outcome known = (.ok found, known) ∧
        (checker.emit ⟨source, { options with implicitNames := names }⟩).outcome known =
          (.ok found, known) := by
  simp only [Registry.builtinCheckers, List.mem_cons, List.not_mem_nil, or_false] at h
  rcases h with rfl | rfl | rfl | rfl | rfl | rfl | rfl | rfl | rfl
  case inr.inr.inr.inr.inl => exact .inl rfl
  all_goals exact .inr ⟨by decide, fun source options names => ⟨_, fun known => ⟨rfl, rfl⟩⟩⟩

/-- What is left of a turn's findings once names are declared. -/
def withoutNames (names : List String) (turn : String × List Finding) : String × List Finding :=
  if turn.1 = Undeclared.checker.name then
    (turn.1, turn.2.filter fun f => !Undeclared.speaksOf names f)
  else turn

/-- Names that are always declared take away the findings about them, at whatever turn and under
whatever rules, and change no other. -/
theorem takeTurns_withNames {source : Source} {options : Options} {more names : List String}
    (adds : ∀ name, name ∈ names ↔ name ∈ options.implicitNames ∨ name ∈ more)
    (rules : Suppressions) {known known' : List String}
    (also : Undeclared.KnowsAlso more known known') {checkers : List Checker}
    (builtin : ∀ c ∈ checkers, c ∈ Registry.builtinCheckers) :
    takeTurns ⟨source, { options with implicitNames := names }⟩ rules known' checkers =
      (takeTurns ⟨source, options⟩ rules known checkers).map (withoutNames more) := by
  induction checkers generalizing known known' with
  | nil => rfl
  | cons checker rest ih =>
    obtain ⟨here, others⟩ := List.forall_mem_cons.mp builtin
    rcases outcome_emit_withNames_of_builtin here with rfl | ⟨named, same⟩
    · obtain ⟨found, after, after', emitted, emitted', next⟩ :=
        Undeclared.outcome_emit_withNames source adds also
      simp only [takeTurns, Checker.report_eq, emitted, emitted', Checker.reported, ih next others,
        List.map_cons, withoutNames, if_true, Suppressions.filter, List.filter_filter]
      congr 3
      funext f
      exact Bool.and_comm _ _
    · obtain ⟨found, emits⟩ := same source options names
      simp only [takeTurns, Checker.report_eq, emits, Checker.reported, ih also others,
        List.map_cons, withoutNames, if_neg named]

/-- **Options act monotonically.** More lines below a header leave a sublist of the incomplete
constructs, and more characters between angle brackets give more data types, of which the others
are a sublist. With more characters behind `dict` fewer braces are missing and more are unclosed,
and a brace that is missing no longer is reported as unclosed or is closed. Names added to those
that are always declared take away the findings about undefined variables that name them, and
leave every turn of the checkers otherwise as it was. -/
theorem options_act_monotonically (source : Source) (options : Options) (declared : List String) :
    (∀ k k', k ≤ k' → ∃ found found',
      Constructs.checker.Emits ⟨source, { options with lookaheadLines := k }⟩ declared found ∧
      Constructs.checker.Emits ⟨source, { options with lookaheadLines := k' }⟩ declared found' ∧
      found'.Sublist found) ∧
    (∀ k k', k ≤ k' → ∃ found found',
      DataTypes.checker.Emits ⟨source, { options with typeSpanLimit := k }⟩ declared found ∧
      DataTypes.checker.Emits ⟨source, { options with typeSpanLimit := k' }⟩ declared found' ∧
      found.Sublist found') ∧
    (∀ k k', k ≤ k' → ∃ found found',
      Dictionaries.checker.Emits ⟨source, { options with lookaheadChars := k }⟩ declared found ∧
      Dictionaries.checker.Emits ⟨source, { options with lookaheadChars := k' }⟩ declared found' ∧
      (ofCode .missingDictBrace found').Sublist (ofCode .missingDictBrace found) ∧
      (ofCode .unclosedDict found).Sublist (ofCode .unclosedDict found') ∧
      ∀ f ∈ ofCode .missingDictBrace found, f ∉ found' →
        (∃ g ∈ ofCode .unclosedDict found', g.start = f.start) ∨
          Dictionaries.ClosedBraceBehind source.code f.stop.toNat k') ∧
    ∀ more names, (∀ name, name ∈ names ↔ name ∈ options.implicitNames ∨ name ∈ more) →
      (∃ found, Undeclared.checker.Emits ⟨source, options⟩ declared found ∧
        Undeclared.checker.Emits ⟨source, { options with implicitNames := names }⟩ declared
          (found.filter fun f => !Undeclared.speaksOf more f)) ∧
      ∀ rules checkers, (∀ c ∈ checkers, c ∈ Registry.builtinCheckers) →
        takeTurns ⟨source, { options with implicitNames := names }⟩ rules declared checkers =
          (takeTurns ⟨source, options⟩ rules declared checkers).map (withoutNames more) := by
  refine ⟨fun k k' le => ⟨_, _, rfl, rfl, (Constructs.sites_sublist le source options).map _⟩,
    fun k k' le => ⟨_, _, rfl, rfl, (DataTypes.sites_sublist le source options).map _⟩,
    fun k k' le => ?_, fun more names adds => ?_⟩
  · refine ⟨_, _, Dictionaries.emits_reports source _ declared,
      Dictionaries.emits_reports source _ declared, ?_⟩
    rw [(Dictionaries.ofCode_reports _ _).1, (Dictionaries.ofCode_reports _ _).1,
      (Dictionaries.ofCode_reports _ _).2, (Dictionaries.ofCode_reports _ _).2]
    refine ⟨Dictionaries.missing_sublist le _, Dictionaries.unclosed_sublist le _, ?_⟩
    intro f missing found
    exact Dictionaries.brace_of_not_missing missing fun still =>
      found (List.mem_append_left _ still)
  · have same : Undeclared.KnowsAlso more declared declared := ⟨fun _ => id, fun _ => .inl⟩
    obtain ⟨found, after, after', emitted, emitted', -⟩ :=
      Undeclared.outcome_emit_withNames source adds same
    exact ⟨⟨found, congrArg Prod.fst emitted, congrArg Prod.fst emitted'⟩,
      fun rules checkers builtin => takeTurns_withNames adds rules same builtin⟩

/-- A brace that comes too late for one window and in time for another, and a name declared. -/
theorem options_act_monotonically_late_brace :
    let source : Source := .ofString "a" "dict  \x7b\x7d + x + y"
    let names := ["x", "self", "result", "args"]
    ((∀ name, name ∈ names ↔ name ∈ ({} : Options).implicitNames ∨ name ∈ ["x"]) ∧
      ∃ found, Undeclared.checker.Emits ⟨source, {}⟩ [] found ∧
        found.map (·.start) = [11, 15] ∧
        Undeclared.checker.Emits ⟨source, { implicitNames := names }⟩ []
          (found.filter fun f => !Undeclared.speaksOf ["x"] f)) ∧
    ∃ found found',
      Dictionaries.checker.Emits ⟨source, { lookaheadChars := 2 }⟩ [] found ∧
      Dictionaries.checker.Emits ⟨source, { lookaheadChars := 3 }⟩ [] found' ∧
      (ofCode .missingDictBrace found).map (·.stop) = [4] ∧ found' = [] ∧
      Dictionaries.ClosedBraceBehind source.code 4 3 := by
  intro source names
  have adds : ∀ name, name ∈ names ↔ name ∈ ({} : Options).implicitNames ∨ name ∈ ["x"] := by
    intro name
    show name ∈ ["x", "self", "result", "args"] ↔ name ∈ ["self", "args", "result"] ∨ name ∈ ["x"]
    simp only [List.mem_cons, List.not_mem_nil]
    grind
  obtain ⟨-, -, dictionaries, declares⟩ := options_act_monotonically source {} []
  constructor
  · obtain ⟨⟨found, emits, emits'⟩, -⟩ := declares ["x"] names adds
    have starts : ((Undeclared.checker.emit ⟨source, {}⟩).outcome []).1.toOption.map
        (·.map (·.start)) = some [11, 15] := by decide +kernel
    rw [emits] at starts
    exact ⟨adds, found, emits, Option.some.inj starts, emits'⟩
  · obtain ⟨found, found', emits, emits', -, -, becomes⟩ := dictionaries 2 3 (by decide)
    have missing : ((Dictionaries.checker.emit ⟨source, { lookaheadChars := 2 }⟩).outcome
        []).1.toOption.map (fun found => (ofCode .missingDictBrace found).map (·.stop)) =
          some [4] := by decide +kernel
    have none : ((Dictionaries.checker.emit ⟨source, { lookaheadChars := 3 }⟩).outcome
        []).1.toOption = some [] := by decide +kernel
    rw [emits] at missing
    rw [emits'] at none
    have missing : (ofCode .missingDictBrace found).map (·.stop) = [4] := Option.some.inj missing
    obtain rfl : found' = [] := Option.some.inj none
    obtain ⟨f, member, stop⟩ := List.mem_map.mp (missing ▸ List.mem_singleton_self (4 : Int))
    rcases becomes f member List.not_mem_nil with ⟨g, unclosed, -⟩ | closed
    · cases unclosed
    · rw [stop] at closed
      exact ⟨found, [], emits, emits', missing, rfl, closed⟩

end LexLint
