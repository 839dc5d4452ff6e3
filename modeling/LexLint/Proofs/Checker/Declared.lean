import LexLint.Proofs.Checker.CodeView
import LexLint.Proofs.Run.Turns
import LexLint.Proofs.Scan.Occurrence
import LexLint.Proofs.Scan.TrailingBlanks

/-!
# What strings and comments declare

Names are used in the code view alone (`codeUses`), but they are declared in the text, strings and
comments included. That is the only way in which strings and comments can change which undeclared
names are found (`hidden_text_matters_by_declarations`), and they do change it
(`hidden_declarations_change_findings`): a comment can declare a name, and it can swallow the header
that declares one.
-/

namespace LexLint.Undeclared

/-- The first uses in a text made of two parts. -/
theorem firstUses_append (declared : List String) (earlier later : List Word) :
    firstUses declared (earlier ++ later) =
      ((firstUses declared earlier).1 ++ (firstUses (firstUses declared earlier).2 later).1,
       (firstUses (firstUses declared earlier).2 later).2) := by
  induction earlier generalizing declared with
  | nil => rfl
  | cons w rest ih =>
    simp only [List.cons_append, firstUses]
    split
    · exact ih declared
    · simp only [ih, List.cons_append]

theorem firstUses_map_shift (declared : List String) (n : Nat) (words : List Word) :
    firstUses declared (words.map (shift n)) =
      ((firstUses declared words).1.map (shift n), (firstUses declared words).2) := by
  induction words generalizing declared with
  | nil => rfl
  | cons w rest ih =>
    simp only [List.map_cons, firstUses]
    change (if declared.contains w.text = true then _ else _) = _
    split
    · exact ih declared
    · have later := ih (declared ++ [w.text])
      simp only [shift] at later ⊢
      simp only [later, List.map_cons]
      rfl

theorem subset_firstUses (declared : List String) (words : List Word) :
    declared ⊆ (firstUses declared words).2 := by
  induction words generalizing declared with
  | nil => exact List.Subset.refl _
  | cons w rest ih =>
    simp only [firstUses]
    split
    · exact ih declared
    · exact List.Subset.trans (List.subset_append_left declared [w.text]) (ih _)

/-- A name that is declared besides others takes its first use away and no other. -/
theorem firstUses_eq_filter {known base more : List String}
    (h : ∀ name, name ∈ known ↔ name ∈ base ∨ name ∈ more) (words : List Word) :
    (firstUses known words).1 = (firstUses base words).1.filter fun w => w.text ∉ more := by
  induction words generalizing known base with
  | nil => rfl
  | cons w rest ih =>
    simp only [firstUses, List.contains_iff_mem]
    by_cases inBase : w.text ∈ base
    · rw [if_pos ((h w.text).mpr (.inl inBase)), if_pos inBase]
      exact ih h
    · rw [if_neg inBase]
      by_cases inMore : w.text ∈ more
      · -- The name counts as declared from here on, on either side.
        rw [if_pos ((h w.text).mpr (.inr inMore)), List.filter_cons_of_neg (by simpa using inMore)]
        refine ih fun name => ?_
        rw [h, List.mem_append, List.mem_singleton]
        grind
      · have fresh : w.text ∉ known := fun member => ((h w.text).mp member).elim inBase inMore
        rw [if_neg fresh, List.filter_cons_of_pos (by simpa using inMore)]
        simp only
        congr 1
        refine ih fun name => ?_
        rw [List.mem_append, List.mem_append, h]
        grind

theorem foldl_insertNew_of_subset {names known : List String} (h : names ⊆ known) :
    names.foldl (fun ns n => insertNew n ns) known = known := by
  induction names with
  | nil => rfl
  | cons name rest ih =>
    obtain ⟨here, later⟩ := List.cons_subset.mp h
    rw [List.foldl_cons, insertNew, if_pos here, ih later]

/-- The uses in a row, placed in the text. -/
def rowUses (row : Nat × List Char) : List Word := (uses row.2).map (shift row.1)

/-- All uses of names in a code view, in text order. -/
def codeUses (code : List Char) : List Word := (codeRows 0 (splitAtChar '\n' code)).flatMap rowUses

theorem map_shift_uses (line : Line) :
    (uses line.code).map (shift line.span.start) = rowUses line.row := by
  obtain ⟨blanks, blank, split⟩ := exists_trimEnd_append line.code
  have same := uses_append_blank blank (trimEnd line.code)
  rw [split] at same
  rw [same]
  rfl

/-- Where the lines declare nothing new, their first uses are those of one long line. -/
theorem survey_eq_firstUses {known : List String} {lines : List Line}
    (comments : ∀ line ∈ lines, line.isComment = true → rowUses line.row = [])
    (lets : ∀ line ∈ lines, letNames line.raw ⊆ known) :
    survey known lines = firstUses known (lines.flatMap fun line => rowUses line.row) := by
  induction lines generalizing known with
  | nil => rfl
  | cons line rest ih =>
    obtain ⟨commentHere, commentsLater⟩ := List.forall_mem_cons.mp comments
    obtain ⟨letsHere, letsLater⟩ := List.forall_mem_cons.mp lets
    rw [survey, List.flatMap_cons, firstUses_append]
    split
    · rename_i comment
      rw [commentHere comment]
      exact ih commentsLater letsLater
    · have later : survey (firstUses known (uses line.code)).2 rest = _ := ih commentsLater
        fun l hl => List.Subset.trans (letsLater l hl) (subset_firstUses known _)
      rw [← map_shift_uses, firstUses_map_shift]
      simp only [foldl_insertNew_of_subset letsHere, later]

/-- A variable declared on a line is declared in the text. -/
theorem letNames_subset {source : Source} {line : Line} (h : line ∈ source.lines) :
    letNames line.raw ⊆ declaredIn source.text := by
  intro name member
  obtain ⟨m, found, rfl⟩ := List.mem_map.mp member
  obtain ⟨pre, rest, after, split, recognised, -⟩ := occurs_of_mem_findAll found
  obtain ⟨n, front, piece, back, text, -, rfl, -⟩ := Source.exists_split_of_mem_lines h
  obtain ⟨tail, piece_eq⟩ := cutReturn_prefix piece
  have whole : source.text = front ++ pre ++ (rest ++ (tail ++ back)) := by
    rw [text, ← piece_eq, show cutReturn piece = pre ++ rest from split]
    simp only [List.append_assoc]
  have nonempty : rest ++ (tail ++ back) ≠ [] := by
    rintro empty
    rw [(List.append_eq_nil_iff.mp empty).1] at recognised
    cases recognised
  obtain ⟨m', found', same⟩ := exists_mem_findAll apart_letHeader (front ++ pre)
    (letHeader_append recognised (tail ++ back)) nonempty
  rw [← whole] at found'
  rw [declaredIn, ← same]
  exact List.mem_append_left _ (List.mem_append_left _ (List.mem_map_of_mem found'))

theorem rowUses_of_isComment {source : Source} {line : Line} (member : line ∈ source.lines)
    (comment : line.isComment = true) : rowUses line.row = [] := by
  rw [rowUses, Line.row, Source.trimEnd_code_of_isComment member comment]
  rfl

theorem codeUses_eq (source : Source) :
    codeUses source.code = source.lines.flatMap fun line => rowUses line.row := by
  rw [codeUses, ← Source.map_row_lines, List.flatMap_map]

/-- The lines of a document declare nothing that its text has not declared before. -/
theorem survey_seed (context : Context) (declared : List String) :
    let known := (seed context).foldl (fun ns n => insertNew n ns) declared
    survey known context.source.lines = firstUses known (codeUses context.source.code) := by
  intro known
  have lets : ∀ line ∈ context.source.lines, letNames line.raw ⊆ known := by
    intro line member name inLine
    exact mem_foldl_insertNew.mpr (.inl (List.mem_append_left _ (letNames_subset member inLine)))
  rw [survey_eq_firstUses (fun line => rowUses_of_isComment) lets, codeUses_eq]

/-- The undeclared names of a document, by its code view and the names that its text declares. -/
theorem survey_eq_filter (context : Context) (declared : List String) :
    (survey ((seed context).foldl (fun ns n => insertNew n ns) declared) context.source.lines).1 =
      (firstUses (declared ++ context.options.implicitNames)
        (codeUses context.source.code)).1.filter fun w =>
          w.text ∉ declaredIn context.source.text := by
  rw [survey_seed]
  refine firstUses_eq_filter (fun name => ?_) (codeUses context.source.code)
  rw [mem_foldl_insertNew, seed, List.mem_append, List.mem_append]
  grind

/-- What is found on a document, by its code view and the names that its text declares. -/
theorem outcome_emit (context : Context) (declared : List String) :
    ((checker.emit context).outcome declared).1 =
      .ok (((firstUses (declared ++ context.options.implicitNames)
        (codeUses context.source.code)).1.filter fun w =>
          w.text ∉ declaredIn context.source.text).map fun w =>
            checker.finding context.source.length (site w)) := by
  rw [Checker.outcome_emit, outcome_diagnosis]
  simp only [survey_eq_filter, List.map_map]
  rfl

theorem text_eq_of_message_eq {v w : Word} (h : (site v).message = (site w).message) :
    v.text = w.text := by
  have lists := congrArg String.toList h
  simp only [site, Site.at, String.toList_append, toString] at lists
  exact String.toList_inj.mp (List.append_cancel_left (List.append_cancel_right lists))

/-- A use is reported unless its name is among those to leave out. -/
theorem exists_message_iff {words : List Word} {w : Word} (member : w ∈ words) (length : Nat)
    (names : List String) :
    (∃ f ∈ (words.filter fun w => w.text ∉ names).map fun w => checker.finding length (site w),
      f.message = (site w).message) ↔ w.text ∉ names := by
  constructor
  · rintro ⟨f, found, message⟩
    obtain ⟨v, reported, rfl⟩ := List.mem_map.mp found
    rw [← text_eq_of_message_eq message]
    simpa using (List.mem_filter.mp reported).2
  · intro absent
    exact ⟨_, List.mem_map_of_mem (List.mem_filter.mpr ⟨member, by simpa using absent⟩), rfl⟩

/-- **Strings and comments matter by what they declare.** On documents with the same code view the
findings are those first uses in the code whose names the text does not declare. They agree
exactly if the texts declare the same of these names; so they do if each text declares what its
code view declares. -/
theorem hidden_text_matters_by_declarations {a b : Source} (h : a.code = b.code)
    (options : Options) (declared : List String) :
    let words := (firstUses (declared ++ options.implicitNames) (codeUses a.code)).1
    let found (source : Source) := ((checker.emit ⟨source, options⟩).outcome declared).1
    (∀ source, source = a ∨ source = b → found source =
      .ok ((words.filter fun w => w.text ∉ declaredIn source.text).map fun w =>
        checker.finding source.length (site w))) ∧
    (found a = found b ↔
      ∀ w ∈ words, w.text ∈ declaredIn a.text ↔ w.text ∈ declaredIn b.text) ∧
    ((∀ source, source = a ∨ source = b →
        ∀ name, name ∈ declaredIn source.text ↔ name ∈ declaredIn source.code) →
      found a = found b) := by
  intro words found
  have emitted : ∀ source, source = a ∨ source = b → found source =
      .ok ((words.filter fun w => w.text ∉ declaredIn source.text).map fun w =>
        checker.finding source.length (site w)) := by
    rintro source (rfl | rfl)
    · exact outcome_emit ⟨source, options⟩ declared
    · have here := outcome_emit ⟨source, options⟩ declared
      simp only [← h] at here
      exact here
  have agree : found a = found b ↔
      ∀ w ∈ words, w.text ∈ declaredIn a.text ↔ w.text ∈ declaredIn b.text := by
    rw [emitted a (.inl rfl), emitted b (.inr rfl), Source.length_eq_of_code_eq h]
    constructor
    · intro same w member
      rw [← not_iff_not, ← exists_message_iff member b.length (declaredIn a.text),
        ← exists_message_iff member b.length (declaredIn b.text), Except.ok.inj same]
    · intro same
      have filters : (words.filter fun w => w.text ∉ declaredIn a.text) =
          words.filter fun w => w.text ∉ declaredIn b.text :=
        List.filter_congr fun w member => by simp only [same w member]
      rw [filters]
  refine ⟨emitted, agree, fun visible => agree.mpr fun w _ => ?_⟩
  rw [visible a (.inl rfl), visible b (.inr rfl), h]

/-- A name that only a comment declares and nothing uses. -/
theorem hidden_text_matters_by_declarations_unused :
    let a : Source := .ofString "a" "x+\"z\"#let$y=1"
    let b : Source := .ofString "b" "x+\" \"#y, y..."
    let context (source : Source) : Context := ⟨source, {}⟩
    a.code = b.code ∧ "y" ∈ declaredIn a.text ∧ "y" ∉ declaredIn b.text ∧
      ((checker.emit (context a)).outcome []).1 = ((checker.emit (context b)).outcome []).1 := by
  intro a b context
  have same : a.code = b.code := by decide +kernel
  obtain ⟨-, agree, -⟩ := hidden_text_matters_by_declarations same {} []
  exact ⟨same, by decide +kernel, by decide +kernel, agree.mpr (by decide +kernel)⟩

/-- Comments that differ where the code does not: one declares the name that the code uses, and
one opens a parameter list that ends with that of the next line's function. -/
theorem hidden_declarations_change_findings :
    let found (text : String) : Option (List Finding) :=
      ((checker.emit ⟨.ofString "a" text, {}⟩).outcome []).1.toOption
    codeView "x #let$x=1".toList = codeView "x #       ".toList ∧
      found "x #let$x=1" = some [] ∧
      found "x #       " = some
        [⟨0, 1, "Variable 'x' is used but not defined", .warning, "undefinedVariable",
          "undeclared"⟩] ∧
      codeView "#func$ f(\nfunc$ g(b)".toList = codeView "#        \nfunc$ g(b)".toList ∧
      found "#func$ f(\nfunc$ g(b)" = some
        [⟨18, 19, "Variable 'b' is used but not defined", .warning, "undefinedVariable",
          "undeclared"⟩] ∧
      found "#        \nfunc$ g(b)" = some [] := by
  decide +kernel

end LexLint.Undeclared
