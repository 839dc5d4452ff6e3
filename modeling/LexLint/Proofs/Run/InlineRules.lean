import LexLint.Proofs.Checker.CodeView
import LexLint.Proofs.Run.Suppression
import LexLint.Proofs.Scan.Markers
import LexLint.Proofs.View.Comments

/-!
# Rules from comments

A document's rules come from the comments of its lines: the first marker in a line's comment
(`Source.MarkerOn`) says which codes are suppressed there. What stands in strings gives no rule and
takes none away (`inline_rules_come_from_comments`). A marker suppresses the codes that it names,
and if it names none every code, whatever follows it (`every_code_unless_named`).
-/

namespace LexLint

/-- What follows the marker of a line, which is the first one in the line's comment. -/
def Source.MarkerOn (source : Source) (n : Nat) (after : List Char) : Prop :=
  ∃ text, source.CommentText n text ∧ Marker.First text after

theorem Line.suppressedCodes?_eq (line : Line) :
    line.suppressedCodes? = line.comment?.bind Marker.firstCodes? := by
  unfold suppressedCodes? comment?
  simp only
  split
  · rfl
  · rfl

/-- A line's marker tells the codes that are suppressed there. -/
theorem Source.suppressedCodes?_eq_some_iff {source : Source} {n : Nat} {codes : List String} :
    (source.lines[n]?).bind Line.suppressedCodes? = some codes ↔
      ∃ after, source.MarkerOn n after ∧ Marker.Tells after codes := by
  have read : Line.suppressedCodes? = fun line => line.comment?.bind Marker.firstCodes? :=
    funext Line.suppressedCodes?_eq
  simp only [read, ← Option.bind_assoc, Option.bind_eq_some_iff (f := Marker.firstCodes?),
    ← commentText_iff, Marker.firstCodes?_eq_some_iff, MarkerOn]
  grind

theorem Source.mem_inlineCodes_iff {source : Source} {n : Nat} {code : String} :
    code ∈ source.inlineCodes n ↔
      ∃ after codes, source.MarkerOn n after ∧ Marker.Tells after codes ∧ code ∈ codes := by
  have listed (told : Option (List String)) :
      code ∈ told.getD [] ↔ ∃ codes, told = some codes ∧ code ∈ codes := by
    cases told <;> simp
  rw [inlineCodes, listed]
  simp only [suppressedCodes?_eq_some_iff]
  grind

theorem Source.everyCode_mem_inlineCodes_iff {source : Source} {n : Nat} :
    everyCode ∈ source.inlineCodes n ↔
      ∃ after, source.MarkerOn n after ∧ ¬ Marker.NameFollows '=' after := by
  rw [mem_inlineCodes_iff]
  constructor
  · rintro ⟨after, codes, on, tells, every⟩
    exact ⟨after, on, tells.mem_everyCode_iff.mp every⟩
  · rintro ⟨after, on, unnamed⟩
    obtain ⟨codes, tells⟩ := Marker.exists_tells after
    exact ⟨after, codes, on, tells, tells.mem_everyCode_iff.mpr unnamed⟩

/-- The marker of a line stands on it, and is not read inside of a string. -/
theorem Source.MarkerOn.exists_begins {source : Source} {n : Nat} {after : List Char}
    (h : source.MarkerOn n after) :
    ∃ line i, source.index.spans[n]? = some line ∧ line.start ≤ i ∧ i < line.stop ∧
      Marker.Begins (slice source.text ⟨i, line.stop⟩) after ∧
      (LexState.before source.text i).mode ≠ .string := by
  obtain ⟨_, ⟨comment, on, rfl⟩, i, begins, -⟩ := h
  obtain ⟨line, onLine, lo, hi, last⟩ := on.onLine
  have rest : (slice source.text comment).drop i =
      slice source.text ⟨comment.start + i, line.stop⟩ := by
    rw [slice, slice, List.drop_take, List.drop_drop, last, Nat.sub_sub]
  have inside : comment.start + i < line.stop := by
    by_contra past
    obtain ⟨_, _, -, -, nonempty⟩ := begins
    rw [rest, slice, Nat.sub_eq_zero_of_le (Nat.le_of_not_lt past), List.take_zero] at nonempty
    cases nonempty
  refine ⟨line, comment.start + i, onLine, by omega, inside, rest ▸ begins, ?_⟩
  cases i with
  | zero =>
    rw [Nat.add_zero, on.begins.2]
    decide
  | succ i =>
    rw [on.mode_eq (by omega) (by omega)]
    decide

/-! ### The rules of a document -/

/-- The rule that a line's comment gives. -/
def Line.rule? (line : Line) : Option InlineRule :=
  line.suppressedCodes?.map fun codes =>
    ⟨line.number, codes.foldl (fun cs c => insertNew c cs) []⟩

theorem addInlineRule_of_forall_ne {line : Nat} {rules : List InlineRule}
    (h : ∀ r ∈ rules, r.line ≠ line) (codes : List String) :
    addInlineRule line codes rules =
      rules ++ [⟨line, codes.foldl (fun cs c => insertNew c cs) []⟩] := by
  induction rules with
  | nil => rfl
  | cons r rest ih =>
    obtain ⟨other, others⟩ := List.forall_mem_cons.mp h
    rw [addInlineRule, if_neg other, ih others, List.cons_append]

/-- No line has a rule before it is read, so that each makes its own. -/
theorem foldl_addInlineRule {lines : List Line} {rules : List InlineRule}
    (distinct : (lines.map Line.number).Nodup)
    (fresh : ∀ line ∈ lines, ∀ r ∈ rules, r.line ≠ line.number) :
    lines.foldl (fun rules line =>
        match line.suppressedCodes? with
        | some codes => addInlineRule line.number codes rules
        | none => rules) rules = rules ++ lines.filterMap Line.rule? := by
  induction lines generalizing rules with
  | nil => simp
  | cons line rest ih =>
    obtain ⟨single, distinct⟩ := List.nodup_cons.mp distinct
    obtain ⟨freshHere, freshLater⟩ := List.forall_mem_cons.mp fresh
    rw [List.foldl_cons, List.filterMap_cons]
    cases told : line.suppressedCodes? with
    | none =>
      rw [show line.rule? = none by simp [Line.rule?, told]]
      exact ih distinct freshLater
    | some codes =>
      have rule : line.rule? = some ⟨line.number, codes.foldl (fun cs c => insertNew c cs) []⟩ := by
        simp [Line.rule?, told]
      simp only [rule, addInlineRule_of_forall_ne freshHere]
      rw [ih distinct, List.append_assoc, List.singleton_append]
      intro later member r hr
      rcases List.mem_append.mp hr with old | new
      · exact freshLater later member r old
      · obtain rfl := List.mem_singleton.mp new
        intro same
        apply single
        rw [show line.number = later.number from same]
        exact List.mem_map_of_mem member

theorem Source.nodup_number_lines (source : Source) : (source.lines.map Line.number).Nodup := by
  rw [lines_eq, List.map_map]
  change (source.index.spans.zipIdx.map Prod.snd).Nodup
  rw [List.zipIdx_map_snd]
  exact List.nodup_range' ..

/-- The rules of a document are those of its lines. -/
theorem Suppressions.mem_inline_forSource (s : Suppressions) {source : Source}
    {rule : InlineRule} :
    rule ∈ (s.forSource source).inline ↔
      ∃ codes, (source.lines[rule.line]?).bind Line.suppressedCodes? = some codes ∧
        rule.codes = codes.foldl (fun cs c => insertNew c cs) [] := by
  have inline : (s.forSource source).inline = [] ++ source.lines.filterMap Line.rule? :=
    foldl_addInlineRule source.nodup_number_lines (by simp)
  rw [inline, List.nil_append, List.mem_filterMap]
  constructor
  · rintro ⟨line, member, given⟩
    obtain ⟨codes, told, rfl⟩ := Option.map_eq_some_iff.mp given
    obtain ⟨n, at_n⟩ := List.getElem?_of_mem member
    obtain rfl := Source.number_of_getElem?_lines at_n
    exact ⟨codes, by simp [at_n, told], rfl⟩
  · rintro ⟨codes, told, same⟩
    obtain ⟨line, at_n, told⟩ := Option.bind_eq_some_iff.mp told
    have number := Source.number_of_getElem?_lines at_n
    refine ⟨line, List.mem_of_getElem? at_n, ?_⟩
    rw [Line.rule?, told, Option.map_some, number, ← same]

/-! ### Rules and comments -/

section

variable {source : Source} {rule : InlineRule}

theorem Suppressions.exists_mem_inline_iff (s : Suppressions) (n : Nat) :
    (∃ rule ∈ (s.forSource source).inline, rule.line = n) ↔ ∃ after, source.MarkerOn n after := by
  constructor
  · rintro ⟨rule, member, rfl⟩
    obtain ⟨codes, told, -⟩ := s.mem_inline_forSource.mp member
    obtain ⟨after, on, -⟩ := Source.suppressedCodes?_eq_some_iff.mp told
    exact ⟨after, on⟩
  · rintro ⟨after, on⟩
    obtain ⟨codes, tells⟩ := Marker.exists_tells after
    refine ⟨⟨n, codes.foldl (fun cs c => insertNew c cs) []⟩, ?_, rfl⟩
    exact s.mem_inline_forSource.mpr
      ⟨codes, Source.suppressedCodes?_eq_some_iff.mpr ⟨after, on, tells⟩, rfl⟩

/-- A rule holds the codes that the line's marker tells. -/
theorem Suppressions.mem_codes_iff {s : Suppressions} (h : rule ∈ (s.forSource source).inline)
    {after : List Char} {codes : List String} (on : source.MarkerOn rule.line after)
    (tells : Marker.Tells after codes) (code : String) : code ∈ rule.codes ↔ code ∈ codes := by
  obtain ⟨read, told, same⟩ := s.mem_inline_forSource.mp h
  rw [Source.suppressedCodes?_eq_some_iff.mpr ⟨after, on, tells⟩] at told
  obtain rfl := Option.some.inj told
  rw [same, mem_foldl_insertNew]
  simp

/-- A line has one rule at most. -/
theorem Suppressions.rule_unique {s : Suppressions} (h : rule ∈ (s.forSource source).inline)
    {other : InlineRule} (h' : other ∈ (s.forSource source).inline)
    (same : rule.line = other.line) : rule = other := by
  obtain ⟨codes, told, listed⟩ := s.mem_inline_forSource.mp h
  obtain ⟨codes', told', listed'⟩ := s.mem_inline_forSource.mp h'
  rw [same, told'] at told
  obtain rfl := Option.some.inj told
  cases rule
  cases other
  cases same
  rw [InlineRule.mk.injEq]
  exact ⟨rfl, listed.trans listed'.symm⟩

end

/-- The codes of a line depend on its comment alone. -/
theorem Source.suppressedCodes?_congr {a b : Source} {n : Nat}
    (h : ∀ text, a.CommentText n text ↔ b.CommentText n text) :
    (a.lines[n]?).bind Line.suppressedCodes? = (b.lines[n]?).bind Line.suppressedCodes? := by
  apply Option.ext
  intro codes
  simp only [suppressedCodes?_eq_some_iff, MarkerOn, h]

theorem Suppressions.isSuppressed_congr (s : Suppressions) {a b : Source}
    (comments : ∀ n text, a.CommentText n text ↔ b.CommentText n text) (code : a.code = b.code)
    (f : Finding) : (s.forSource a).isSuppressed f = (s.forSource b).isSuppressed f := by
  have codes : a.inlineCodes = b.inlineCodes := by
    funext n
    rw [Source.inlineCodes, Source.suppressedCodes?_congr (comments n), Source.inlineCodes]
  have line : lineAt a.text f.start.toNat = lineAt b.text f.start.toNat := by
    rw [← position_line_eq_lineAt, ← position_line_eq_lineAt,
      Constructs.position_line_eq_of_code_eq code]
  have inline : (s.forSource a).suppressedInline f = (s.forSource b).suppressedInline f := by
    rw [Bool.eq_iff_iff, suppressedInline_forSource, suppressedInline_forSource, Source.Silences,
      Source.Silences, codes, line]
  rw [isSuppressed, isSuppressed, inline]
  rfl

/-- **Rules come from comments.** In a document that is read afresh a line has a rule exactly if its
comment holds a marker, it has no other, and the rule is what the first marker of the comment
tells. A marker that is read inside of a string gives no rule. The rule of a line depends on
nothing but the line's comment: texts with the same comments have the same rules, and if they also
have the same code they suppress the same findings, whatever their strings hold. -/
theorem inline_rules_come_from_comments (s : Suppressions) (source : Source) :
    (∀ n, (∃ rule ∈ (s.forSource source).inline, rule.line = n) ↔
      ∃ after, source.MarkerOn n after) ∧
    (∀ rule ∈ (s.forSource source).inline, ∀ after codes, source.MarkerOn rule.line after →
      Marker.Tells after codes → ∀ code, code ∈ rule.codes ↔ code ∈ codes) ∧
    (∀ rule ∈ (s.forSource source).inline, ∀ other ∈ (s.forSource source).inline,
      rule.line = other.line → rule = other) ∧
    (∀ n line, source.index.spans[n]? = some line →
      (∀ i after, line.start ≤ i → i < line.stop →
        Marker.Begins (slice source.text ⟨i, line.stop⟩) after →
        (LexState.before source.text i).mode = .string) →
      ∀ rule ∈ (s.forSource source).inline, rule.line ≠ n) ∧
    ∀ other : Source,
      (∀ n, (∀ text, source.CommentText n text ↔ other.CommentText n text) →
        ∀ rule, rule.line = n →
          (rule ∈ (s.forSource source).inline ↔ rule ∈ (s.forSource other).inline)) ∧
      ((∀ n text, source.CommentText n text ↔ other.CommentText n text) →
        source.code = other.code →
        ∀ f, (s.forSource source).isSuppressed f = (s.forSource other).isSuppressed f) := by
  refine ⟨s.exists_mem_inline_iff, ?_, ?_, ?_, fun other => ⟨?_, s.isSuppressed_congr⟩⟩
  · intro rule member after codes on tells
    exact Suppressions.mem_codes_iff member on tells
  · intro rule member other member' same
    exact Suppressions.rule_unique member member' same
  · intro n line onLine strings rule member same
    obtain ⟨after, on⟩ := (s.exists_mem_inline_iff n).mp ⟨rule, member, same⟩
    obtain ⟨line', i, onLine', lo, hi, begins, outside⟩ := on.exists_begins
    obtain rfl := Option.some.inj (onLine.symm.trans onLine')
    exact outside (strings i after lo hi begins)
  · intro n comments rule same
    subst same
    rw [s.mem_inline_forSource, s.mem_inline_forSource, Source.suppressedCodes?_congr comments]

/-- Markers in strings before a comment with a marker of its own, behind an unpaired quote. -/
theorem inline_rules_come_from_comments_after_strings :
    let source : Source :=
      .ofString "a" "\"#tesseract-lint:disable\" \"#\" #\" #tesseract-lint:disable=x"
    let other : Source :=
      .ofString "a" "\"                       \" \"y\" #\" #tesseract-lint:disable=x"
    let string : Source := .ofString "a" "\"#tesseract-lint:disable"
    source.MarkerOn 0 "=x".toList ∧ Marker.Tells "=x".toList ["x"] ∧
      (∀ n text, source.CommentText n text ↔ other.CommentText n text) ∧
      source.code = other.code ∧
      (∃ rule ∈ (Suppressions.forSource {} source).inline, rule.line = 0 ∧
        ∀ code, code ∈ rule.codes ↔ code ∈ ["x"]) ∧
      (∀ f, (Suppressions.forSource {} source).isSuppressed f =
        (Suppressions.forSource {} other).isSuppressed f) ∧
      ∀ rule ∈ (Suppressions.forSource {} string).inline, rule.line ≠ 0 := by
  intro source other string
  obtain ⟨exists_iff, mem_iff, -, -, others⟩ := inline_rules_come_from_comments {} source
  obtain ⟨-, -, -, inStrings, -⟩ := inline_rules_come_from_comments {} string
  have on : source.MarkerOn 0 "=x".toList := by
    refine ⟨"#\" #tesseract-lint:disable=x".toList, ?_, 3, ?_, ?_⟩
    · exact Source.commentText_iff.mpr (by decide +kernel)
    · exact Marker.tail?_eq_some_iff.mp (by decide +kernel)
    · have none : ∀ j < 3, Marker.tail?
          ("#\" #tesseract-lint:disable=x".toList.drop j) = none := by
        decide +kernel
      intro j hj after begins
      rw [← Marker.tail?_eq_some_iff, none j hj] at begins
      cases begins
  have tells : Marker.Tells "=x".toList ["x"] :=
    Marker.tells_iff.mpr (by decide +kernel)
  have comments : ∀ n text, source.CommentText n text ↔ other.CommentText n text := by
    have same : ∀ n : Nat, (source.lines[n]?).bind Line.comment? =
        (other.lines[n]?).bind Line.comment? := by
      have single : source.lines.length = 1 ∧ other.lines.length = 1 := by decide +kernel
      intro n
      cases n with
      | zero => decide +kernel
      | succ n =>
        rw [List.getElem?_eq_none (by omega), List.getElem?_eq_none (by omega)]
    intro n text
    rw [Source.commentText_iff, Source.commentText_iff, same]
  have code : source.code = other.code := by decide +kernel
  have marker : ∀ i < 24, (Marker.tail? (slice string.text ⟨i, 24⟩)).isSome →
      (LexState.before string.text i).mode = .string := by
    decide +kernel
  obtain ⟨rule, member, first⟩ := (exists_iff 0).mpr ⟨_, on⟩
  refine ⟨on, tells, comments, code, ⟨rule, member, first, ?_⟩, (others other).2 comments code,
    inStrings 0 ⟨0, 24⟩ (by decide +kernel) fun i after _ inside begins => ?_⟩
  · exact mem_iff rule member _ _ (first ▸ on) tells
  · apply marker i inside
    rw [Marker.tail?_eq_some_iff.mpr begins]
    rfl

/-! ### What a marker suppresses -/

/-- A marker stands alone: no word constituent follows it, and no `=` behind blanks. -/
def Marker.Bare (after : List Char) : Prop :=
  after.head?.any isWordConstituent = false ∧
    ∀ gap rest, AllBlank gap → after ≠ gap ++ '=' :: rest

theorem Source.MarkerOn.unique {source : Source} {n : Nat} {after other : List Char}
    (h : source.MarkerOn n after) (h' : source.MarkerOn n other) : after = other := by
  obtain ⟨_, ⟨comment, on, rfl⟩, first⟩ := h
  obtain ⟨_, ⟨comment', on', rfl⟩, first'⟩ := h'
  obtain rfl := on.unique on'
  exact first.unique first'

theorem Suppressions.isSuppressed_load_iff (s : Suppressions) (source : Source) (f : Finding) :
    (s.load source).isSuppressed f = true ↔ (f.code ∈ s.globals ∨ everyCode ∈ s.globals) ∨
      ∃ n ∈ speakingLines (lineAt source.text f.start.toNat),
        (s.load source).Records n f.code ∨ (s.load source).Records n everyCode := by
  rw [isSuppressed, Bool.or_eq_true, suppressedInline_load_iff, covers_iff]
  rfl

/-- **A marker suppresses every code unless it names one.** Reading a document records on each line
what its marker tells, and so every code exactly if no name follows the marker, whatever else does;
a code that is recorded is suppressed there and on the line below. That only a marker which stands
alone suppresses every code holds of a line exactly if its marker stands alone or names a code. -/
theorem every_code_unless_named (s : Suppressions) (source : Source) :
    (∀ n code, (s.load source).Records n code ↔ s.Records n code ∨
      ∃ after codes, source.MarkerOn n after ∧ Marker.Tells after codes ∧ code ∈ codes) ∧
    (∀ n, (s.load source).Records n everyCode ↔ s.Records n everyCode ∨
      ∃ after, source.MarkerOn n after ∧ ¬ Marker.NameFollows '=' after) ∧
    (∀ f, (s.load source).isSuppressed f = true ↔ (f.code ∈ s.globals ∨ everyCode ∈ s.globals) ∨
      ∃ n ∈ speakingLines (lineAt source.text f.start.toNat),
        (s.load source).Records n f.code ∨ (s.load source).Records n everyCode) ∧
    ∀ n, ((Suppressions.load {} source).Records n everyCode →
        ∃ after, source.MarkerOn n after ∧ Marker.Bare after) ↔
      ∀ after, source.MarkerOn n after → Marker.Bare after ∨ Marker.NameFollows '=' after := by
  have every (t : Suppressions) (n : Nat) :
      (t.load source).Records n everyCode ↔ t.Records n everyCode ∨
        ∃ after, source.MarkerOn n after ∧ ¬ Marker.NameFollows '=' after := by
    rw [t.records_load, Source.everyCode_mem_inlineCodes_iff]
  have empty (n : Nat) : ¬ Suppressions.Records {} n everyCode := by
    rintro ⟨r, member, -⟩
    cases member
  refine ⟨fun n code => ?_, every s, s.isSuppressed_load_iff source, fun n => ?_⟩
  · rw [s.records_load, Source.mem_inlineCodes_iff]
  · rw [every, or_iff_right (empty n)]
    constructor
    · intro bare after on
      by_cases named : Marker.NameFollows '=' after
      · exact .inr named
      · obtain ⟨other, on', alone⟩ := bare ⟨after, on, named⟩
        exact .inl (on.unique on' ▸ alone)
    · rintro each ⟨after, on, unnamed⟩
      exact ⟨after, on, (each after on).resolve_right unnamed⟩

theorem Suppressions.records_everyCode_of_unnamed (s : Suppressions) {source : Source} {n : Nat}
    {after : List Char} (on : source.MarkerOn n after)
    (unnamed : ¬ Marker.NameFollows '=' after) : (s.load source).Records n everyCode := by
  rw [s.records_load, Source.everyCode_mem_inlineCodes_iff]
  exact .inr ⟨after, on, unnamed⟩

/-- In a text of one line, a marker that names no code suppresses all findings. -/
theorem Suppressions.isSuppressed_of_unnamed (s : Suppressions) {source : Source}
    (single : '\n' ∉ source.text) {after : List Char} (on : source.MarkerOn 0 after)
    (unnamed : ¬ Marker.NameFollows '=' after) (f : Finding) :
    (s.load source).isSuppressed f = true := by
  have first : lineAt source.text f.start.toNat = 0 :=
    List.count_eq_zero.mpr fun newline => single (List.mem_of_mem_take newline)
  rw [isSuppressed_load_iff, first]
  exact .inr ⟨0, List.mem_singleton_self 0, .inr (s.records_everyCode_of_unnamed on unnamed)⟩

/-- Behind an `=` no name follows, or the verb goes on: neither marker stands alone, and both
suppress every finding. -/
theorem unfinished_markers_suppress_every_code :
    let list : Source := .ofString "a" "let$ x = 1 # tesseract-lint: disable="
    let verb : Source := .ofString "a" "let$ x = 1 # tesseract-lint: disabled"
    ((∀ after, list.MarkerOn 0 after → ¬ Marker.Bare after) ∧
      (Suppressions.load {} list).Records 0 everyCode ∧
      ∀ f, (Suppressions.load {} list).isSuppressed f = true) ∧
    (∀ after, verb.MarkerOn 0 after → ¬ Marker.Bare after) ∧
      (Suppressions.load {} verb).Records 0 everyCode ∧
      ∀ f, (Suppressions.load {} verb).isSuppressed f = true := by
  intro list verb
  have onList : list.MarkerOn 0 ['='] := by
    refine ⟨"# tesseract-lint: disable=".toList, ?_, Marker.Begins.first ?_⟩
    · exact Source.commentText_iff.mpr (by decide +kernel)
    · exact Marker.tail?_eq_some_iff.mp (by decide +kernel)
  have onVerb : verb.MarkerOn 0 ['d'] := by
    refine ⟨"# tesseract-lint: disabled".toList, ?_, Marker.Begins.first ?_⟩
    · exact Source.commentText_iff.mpr (by decide +kernel)
    · exact Marker.tail?_eq_some_iff.mp (by decide +kernel)
  have notBareList : ¬ Marker.Bare ['='] := fun bare => bare.2 [] [] nofun rfl
  have notBareVerb : ¬ Marker.Bare ['d'] := by
    rintro ⟨ends, -⟩
    revert ends
    decide
  have unnamed {after : List Char} (none : Marker.codeList after = []) :
      ¬ Marker.NameFollows '=' after :=
    Marker.names_eq_nil_iff.mp (Marker.codeList_eq_iff.mp none)
  have unnamedList : ¬ Marker.NameFollows '=' ['='] := unnamed (by decide +kernel)
  have unnamedVerb : ¬ Marker.NameFollows '=' ['d'] := unnamed (by decide +kernel)
  refine ⟨⟨fun after on => on.unique onList ▸ notBareList, ?_, ?_⟩,
    fun after on => on.unique onVerb ▸ notBareVerb, ?_, ?_⟩
  · exact Suppressions.records_everyCode_of_unnamed {} onList unnamedList
  · exact Suppressions.isSuppressed_of_unnamed {} (by decide +kernel) onList unnamedList
  · exact Suppressions.records_everyCode_of_unnamed {} onVerb unnamedVerb
  · exact Suppressions.isSuppressed_of_unnamed {} (by decide +kernel) onVerb unnamedVerb

end LexLint
