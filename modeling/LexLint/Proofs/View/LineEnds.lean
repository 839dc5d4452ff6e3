import LexLint.Proofs.Scan.TrailingBlanks
import LexLint.Proofs.View.Comments
import LexLint.Proofs.View.Insertion
import LexLint.Proofs.View.UnclosedString

/-!
# How lines begin and end

A line is read from a fresh start, so that up to its first string or comment its text and its code
are the same: a word or a literal at the start of one is at the start of the other
(`identifier?_view`, `afterLiteral?_view`). The same holds of its last character if the line ends
in code (`LexState.getLast?_trimEnd_view`), as it does without a comment and without an unclosed
string (`Source.endsInCode`).
-/

namespace LexLint

namespace LexState

/-! ### Beginnings -/

/-- A visible character that is read in code without any effect. -/
def IsPlain (c : Char) : Prop := start.read c = start ∧ c ≠ ' '

instance (c : Char) : Decidable (IsPlain c) := inferInstanceAs (Decidable (_ ∧ _))

theorem start_shown {c : Char} (hash : c ≠ '#') : start.shown c = c := by
  simp [shown, shows, start, hash]

theorem IsPlain.shown {c : Char} (h : IsPlain c) : start.shown c = c := by
  refine start_shown ?_
  rintro rfl
  exact absurd h.1 (by decide)

theorem isPlain_of_isWordChar {c : Char} (word : isWordChar c = true) : IsPlain c :=
  ⟨read_word rfl word, isWordChar_ne word (by decide)⟩

/-- A blank takes the place of what is hidden. -/
theorem shown_eq_or (s : LexState) (c : Char) : s.shown c = c ∨ s.shown c = ' ' := by
  unfold shown
  split
  · exact .inl rfl
  · exact .inr rfl

/-- What a line begins with, its code begins with. -/
theorem afterLiteral?_view {literal : List Char} (plain : ∀ c ∈ literal, IsPlain c)
    (s : List Char) :
    afterLiteral? literal (start.view s) = (afterLiteral? literal s).map start.view := by
  induction literal generalizing s with
  | nil => rfl
  | cons p ps ih =>
    obtain ⟨here, others⟩ := List.forall_mem_cons.mp plain
    cases s with
    | nil => rfl
    | cons c cs =>
      by_cases same : p = c
      · subst same
        simp only [view, here.shown, here.1, afterLiteral?, if_true, ih others]
      · have differs : p ≠ start.shown c := by
          rcases start.shown_eq_or c with shown | hidden
          · rwa [shown]
          · rw [hidden]
            exact here.2
        simp only [view, afterLiteral?, if_neg same, if_neg differs, Option.map_none]

theorem isWordChar_shown (c : Char) : isWordChar (start.shown c) = isWordChar c := by
  by_cases hash : c = '#'
  · subst hash
    rfl
  · rw [start_shown hash]

/-- A run of word characters is the same in the code. -/
theorem takeWhile_view_word (s : List Char) :
    (start.view s).takeWhile isWordChar = s.takeWhile isWordChar ∧
      (start.view s).dropWhile isWordChar = start.view (s.dropWhile isWordChar) := by
  induction s with
  | nil => exact ⟨rfl, rfl⟩
  | cons c rest ih =>
    by_cases word : isWordChar c = true
    · have plain := isPlain_of_isWordChar word
      simp only [view, plain.shown, plain.1, List.takeWhile_cons_of_pos word,
        List.dropWhile_cons_of_pos word, ih, and_self]
    · have other : ¬ isWordChar (start.shown c) = true := by rwa [isWordChar_shown]
      simp only [view, List.takeWhile_cons_of_neg word, List.takeWhile_cons_of_neg other,
        List.dropWhile_cons_of_neg word, List.dropWhile_cons_of_neg other, and_self]

/-- The name that a line begins with, its code begins with. -/
theorem identifier?_view (s : List Char) :
    identifier? (start.view s) = (identifier? s).map fun r => (r.1, start.view r.2) := by
  cases s with
  | nil => rfl
  | cons c rest =>
    by_cases word : isWordStart c = true
    · have plain := isPlain_of_isWordChar (isWordChar_of_isWordStart word)
      obtain ⟨run, after⟩ := takeWhile_view_word rest
      simp only [view, plain.shown, plain.1, identifier?, if_pos word, run, after,
        Option.map_some]
    · have other : ¬ isWordStart (start.shown c) = true := by
        rcases start.shown_eq_or c with shown | hidden
        · rwa [shown]
        · rw [hidden]
          decide
      simp only [view, identifier?, if_neg word, if_neg other, Option.map_none]

/-- Behind its first blanks, a line has the code of what it begins with, or a comment and
no code. -/
theorem trimStart_view {s : List Char} (line : '\n' ∉ s) :
    trimStart (start.view s) =
      if (trimStart s).head? = some '#' then [] else start.view (trimStart s) := by
  obtain ⟨blanks, blank, split⟩ := exists_trimStart_append s
  have behind : trimStart (start.view s) = trimStart (start.view (trimStart s)) := by
    conv_lhs => rw [split]
    rw [view_append, foldl_read_of_allBlank blank, trimStart,
      List.dropWhile_append_of_pos fun c hc => allBlank_view blank start c hc]
    rfl
  rw [behind]
  cases rest : trimStart s with
  | nil => rfl
  | cons c tail =>
    have visible : isBlank c = false := isBlank_of_head?_trimStart (s := s) (by rw [rest]; rfl)
    rw [List.head?_cons]
    split
    · rename_i comment
      obtain rfl := Option.some.inj comment
      have noNewline : '\n' ∉ tail := by
        intro newline
        apply line
        rw [split, rest]
        exact List.mem_append_right _ (List.mem_cons_of_mem _ newline)
      have none : AllBlank [] := by simp [AllBlank]
      exact trimStart_of_allBlank (allBlank_view_hash none noNewline)
    · rename_i other
      have hash : c ≠ '#' := fun same => other (by rw [same])
      rw [view, start_shown hash, trimStart, List.dropWhile_cons_of_neg (by simp [visible])]

/-- What reads a line from its first visible character on, and neither a comment nor the blanks at
the end, reads the same in the code of the line. -/
theorem trim_codeView_congr {α : Type} {f : List Char → α}
    (append : ∀ s blanks, AllBlank blanks → f (s ++ blanks) = f s)
    (comment : ∀ rest, f ('#' :: rest) = f []) (view : ∀ s, f (start.view s) = f s)
    {text : List Char} (line : '\n' ∉ text) : f (trim (codeView text)) = f (trim text) := by
  have ends (s : List Char) : f (trimEnd s) = f s := by
    obtain ⟨blanks, blank, split⟩ := exists_trimEnd_append s
    rw [← append (trimEnd s) blanks blank, split]
  rw [trim, trim, ends, ends, codeView_eq_view, trimStart_view line]
  split
  · rename_i begins
    obtain ⟨rest, split⟩ := List.head?_eq_some_iff.mp begins
    rw [split, comment]
  · exact view _

/-! ### Ends -/

/-- A blank within a line leaves what the reader stands in. -/
theorem mode_read_of_isBlank {c : Char} (blank : isBlank c = true) (newline : c ≠ '\n')
    (s : LexState) : (s.read c).mode = s.mode := by
  have hash : c ≠ '#' := by rintro rfl; revert blank; decide
  have slash : c ≠ '\\' := by rintro rfl; revert blank; decide
  have quote : c ≠ '"' := by rintro rfl; revert blank; decide
  simp only [read, newline, hash, slash, quote, and_false, false_and, if_false]
  split <;> rfl

theorem mode_foldl_read_of_allBlank {blanks : List Char} (blank : AllBlank blanks)
    (line : '\n' ∉ blanks) (s : LexState) : (blanks.foldl read s).mode = s.mode := by
  induction blanks generalizing s with
  | nil => rfl
  | cons c rest ih =>
    obtain ⟨newline, others⟩ := not_or.mp (mt List.mem_cons.mpr line)
    rw [List.foldl_cons, ih (fun d hd => blank d (List.mem_cons_of_mem c hd)) others,
      mode_read_of_isBlank (blank c List.mem_cons_self) (Ne.symm newline)]

/-- Where a reader stands in code behind a character, the character is shown: one that it hides
would leave it in a comment or in a string. -/
theorem shown_of_mode_read_code {s : LexState} {c : Char} (newline : c ≠ '\n')
    (code : (s.read c).mode = .code) : s.shown c = c := by
  obtain ⟨mode, escaped⟩ := s
  have shows : (LexState.mk mode escaped).shows c = true := by
    simp only [read, newline, if_false] at code
    cases mode with
    | comment => simp at code
    | code =>
      have hash : c ≠ '#' := by
        rintro rfl
        simp at code
      simp [shows, hash]
    | string =>
      have closes : c = '"' ∧ escaped = false := by
        refine Decidable.byContradiction fun open_ => ?_
        simp only [reduceCtorEq, false_and, if_false, if_neg open_] at code
        split at code <;> cases code
      simp [shows, closes]
  rw [shown, if_pos shows]

/-- The last character of a line that ends in code is the last one of its code. -/
theorem getLast?_trimEnd_view {text : List Char} (line : '\n' ∉ text)
    (code : (text.foldl read start).mode = .code) :
    (trimEnd (start.view text)).getLast? = (trimEnd text).getLast? := by
  obtain ⟨blanks, blank, split⟩ := exists_trimEnd_append text
  rw [← split, List.mem_append, not_or] at line
  have view : trimEnd (start.view text) = trimEnd (start.view (trimEnd text)) := by
    rw [← split, view_append, trimEnd_append_blank (allBlank_view blank _), split]
  rw [view]
  rcases List.eq_nil_or_concat (trimEnd text) with empty | ⟨front, c, last⟩
  · rw [empty]
    rfl
  · rw [List.concat_eq_append] at last
    have visible : isBlank c = false :=
      isBlank_of_getLast?_trimEnd (s := text) (by rw [last, List.getLast?_concat])
    have newline : c ≠ '\n' := fun same => line.1 (by rw [last, same]; simp)
    rw [← split, List.foldl_append, mode_foldl_read_of_allBlank blank line.2, last,
      List.foldl_append, List.foldl_cons, List.foldl_nil] at code
    rw [last, view_append, LexState.view, shown_of_mode_read_code newline code, LexState.view,
      trimEnd_concat visible, List.getLast?_concat, List.getLast?_concat]

end LexState

/-! ### Lines -/

theorem code_pieceLine (number start : Nat) (piece : List Char) :
    (pieceLine number start piece).code = codeView (cutReturn piece) := by
  obtain ⟨tail, whole⟩ := cutReturn_prefix piece
  have code := take_codeView_append (cutReturn piece) tail
  rwa [whole] at code

/-- The code of a line is the code view of its text. -/
theorem Source.code_of_mem_lines {source : Source} {line : Line} (h : line ∈ source.lines) :
    line.code = codeView line.raw := by
  obtain ⟨number, start, piece, -, rfl⟩ := mem_pieceLines (source.lines_eq_pieceLines ▸ h)
  exact code_pieceLine number start piece

theorem Source.noNewline_of_mem_lines {source : Source} {line : Line} (h : line ∈ source.lines) :
    '\n' ∉ line.raw := by
  obtain ⟨-, -, -, noNewline, -⟩ := Source.exists_read_of_mem_lines h
  exact noNewline

/-- At the end of the line the reader stands in code. -/
def Line.EndsInCode (line : Line) : Prop :=
  (line.raw.foldl LexState.read .start).mode = .code

theorem LexState.code_of_read_comment {s : LexState} {c : Char}
    (h : (s.read c).mode = .comment) : s.mode = .comment ∨ s.mode = .code ∧ c = '#' := by
  obtain ⟨mode, escaped⟩ := s
  cases mode with
  | comment => exact .inl rfl
  | code | string =>
    unfold LexState.read at h
    grind [LexState.start, LexMode.toggle]

/-- Whoever stands in a comment has read its `#`. -/
theorem LexState.exists_hash {s : LexState} {text : List Char} (outside : s.mode ≠ .comment)
    (inside : (text.foldl read s).mode = .comment) :
    ∃ i, text[i]? = some '#' ∧ ((text.take i).foldl read s).mode = .code := by
  induction text generalizing s with
  | nil => exact absurd inside outside
  | cons c rest ih =>
    by_cases begins : s.mode = .code ∧ c = '#'
    · exact ⟨0, by rw [begins.2]; rfl, begins.1⟩
    · have stays : (s.read c).mode ≠ .comment := fun comment =>
        (code_of_read_comment comment).elim outside begins
      obtain ⟨i, hash, code⟩ := ih stays inside
      exact ⟨i + 1, hash, code⟩

/-- A string that is open where a line ends, before its return if it has one, is unclosed. -/
theorem OpenString.exists_isUnclosed {text : List Char} {start stop : Nat}
    (h : OpenString text start stop) (le : stop ≤ text.length) (ends : EndsLine text stop) :
    ∃ last, IsUnclosed text ⟨start, last⟩ := by
  have lineEnd {i : Nat} {rest : List Char} (hi : i ≤ text.length) (behind : text.drop i = rest)
      (newline : rest = [] ∨ rest.head? = some '\n') : text[i]? = some '\n' ∨ i = text.length := by
    subst behind
    rcases newline with atEnd | newline
    · have := List.drop_eq_nil_iff.mp atEnd
      exact .inr (by omega)
    · rw [List.head?_drop] at newline
      exact .inl newline
  obtain ⟨rest, newline, behind | behind⟩ := ends
  · exact ⟨stop, h, lineEnd le behind newline⟩
  · obtain ⟨returned, lt, tail⟩ := drop_eq_cons behind
    have inString := h.inside stop h.lt (Nat.le_refl _)
    refine ⟨stop + 1, h.step ?_, lineEnd lt tail newline⟩
    rw [LexState.before_succ returned]
    simp [LexState.read, inString]

/-- A line ends in code if no comment begins on it and no string is left open on it. -/
theorem Source.endsInCode {source : Source} {n : Nat} {line : Line}
    (h : source.lines[n]? = some line) (noComment : ∀ comment, ¬ source.CommentOn n comment)
    (closed : ∀ span ∈ scanUnclosedStrings source.text,
      (source.index.position span.start).line ≠ n) : line.EndsInCode := by
  have member := List.mem_of_getElem? h
  have stands := Source.stands_of_mem_lines member
  obtain ⟨pre, post, text, noNewline, span, masked, fresh⟩ :=
    Source.exists_read_of_mem_lines member
  have state : LexState.before source.text line.span.stop =
      line.raw.foldl LexState.read .start := by
    rw [span, LexState.before, text, List.take_length_add_append, List.foldl_append, fresh,
      List.take_left]
  cases mode : (line.raw.foldl LexState.read .start).mode with
  | code => exact mode
  | comment =>
    obtain ⟨i, hash, code⟩ := LexState.exists_hash (by decide) mode
    obtain ⟨place, inside⟩ :=
      (hash_read_as_code_iff (s := .start) ⟨rfl, rfl, rfl⟩ noNewline i).mp ⟨hash, code⟩
    have first : i = (line.masked.takeWhile (· != '#')).length := by
      rw [place, masked]
      rfl
    exact absurd ((Source.commentOn_iff h).mpr ⟨first ▸ inside, rfl⟩) (noComment _)
  | string =>
    obtain ⟨start, isOpen⟩ := exists_openString stands.stop_le (by rw [state, mode])
    obtain ⟨last, unclosed⟩ := isOpen.exists_isUnclosed stands.stop_le stands.ends
    have inLine : line.span.start ≤ start := by
      refine Nat.le_of_not_lt fun earlier => ?_
      have inside := isOpen.inside _ earlier stands.start_le
      rw [span, LexState.before, text, List.take_left, fresh] at inside
      cases inside
    refine absurd ?_ (closed _ ((mem_scanUnclosedStrings _ _).mpr unclosed))
    rw [position_line_eq_lineAt, Int.toNat_natCast,
      Source.lineAt_of_mem_lines member inLine (Nat.le_of_lt isOpen.lt),
      Source.number_of_getElem?_lines h]

end LexLint
