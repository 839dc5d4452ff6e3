import LexLint.Proofs.View.UnclosedString

/-!
# Views of views

A view read again gives the same view. The second reading does not stand where the first one did:
blanks have taken the place of the backslashes inside strings, so that nothing is pending there, and
of comments, which look like code. `remask_step` and `remask_view_step` say for one character how
the two readings stand to each other, and `views_are_stable` that neither view shows or hides
anything when it is read again.
-/

namespace LexLint

/-- What is pending for a reader of the masked view. -/
def stillPending (inString escaped : Bool) : Bool := !inString && escaped

/-- One character: what the first pass writes is written again, and the second pass still stands
where the first one does, up to what is pending inside strings. -/
theorem remask_step (inString escaped : Bool) (c : Char) :
    ∃ d inString' escaped',
      (∀ rest, maskFrom inString escaped (c :: rest) = d :: maskFrom inString' escaped' rest) ∧
      ∀ rest, maskFrom inString (stillPending inString escaped) (d :: rest) =
        d :: maskFrom inString' (stillPending inString' escaped') rest := by
  by_cases newline : c = '\n'
  · subst newline
    exact ⟨'\n', false, false, by simp [maskFrom], by simp [maskFrom, stillPending]⟩
  by_cases slash : c = '\\'
  · subst slash
    cases inString with
    | true => exact ⟨' ', true, !escaped, by simp [maskFrom], by simp [maskFrom, stillPending]⟩
    | false => exact ⟨'\\', false, !escaped, by simp [maskFrom], by simp [maskFrom, stillPending]⟩
  by_cases quote : c = '"' ∧ escaped = false
  · obtain ⟨rfl, rfl⟩ := quote
    exact ⟨'"', !inString, false, by simp [maskFrom], by simp [maskFrom, stillPending]⟩
  · cases inString with
    | true =>
      exact ⟨' ', true, false, by simp [maskFrom, newline, slash, quote],
        by simp [maskFrom, stillPending]⟩
    | false =>
      exact ⟨c, false, false, by simp [maskFrom, newline, slash, quote],
        by simp [maskFrom, stillPending, newline, slash, quote]⟩

theorem maskFrom_maskFrom (inString escaped : Bool) (text : List Char) :
    maskFrom inString (stillPending inString escaped) (maskFrom inString escaped text) =
      maskFrom inString escaped text := by
  induction text generalizing inString escaped with
  | nil => rfl
  | cons c rest ih =>
    obtain ⟨d, inString', escaped', written, again⟩ := remask_step inString escaped c
    rw [written, again, ih]

/-- The masked view has no string contents left to blank. -/
theorem mask_mask (text : List Char) : mask (mask text) = mask text :=
  maskFrom_maskFrom false false text

/-- Where the first pass stands in the code view, while the reader of the text is in a state. Off
the code nothing is pending, since the view has blanks there, and a comment looks like code. -/
def Remasks (s : LexState) (inString escaped : Bool) : Prop :=
  match s.mode with
  | .code => inString = false ∧ escaped = s.escaped
  | .string => inString = true ∧ escaped = false
  | .comment => inString = false ∧ escaped = false

/-- One character of the code view is written as it stands. -/
theorem remask_view_step {s : LexState} {inString escaped : Bool} (h : Remasks s inString escaped)
    (c : Char) :
    ∃ inString' escaped', Remasks (s.read c) inString' escaped' ∧
      ∀ rest, maskFrom inString escaped (s.shown c :: rest) =
        s.shown c :: maskFrom inString' escaped' rest := by
  obtain ⟨mode, e⟩ := s
  by_cases newline : c = '\n'
  · subst newline
    have shown : LexState.shown ⟨mode, e⟩ '\n' = '\n' := LexState.shown_eq_newline.mpr rfl
    refine ⟨false, false, ?_, fun rest => ?_⟩
    · rw [LexState.read_newline]
      exact ⟨rfl, rfl⟩
    · simp [shown, maskFrom]
  cases mode with
  | comment =>
    obtain ⟨rfl, rfl⟩ : inString = false ∧ escaped = false := h
    refine ⟨false, false, ?_, fun rest => ?_⟩
    · simp [Remasks, LexState.read, newline]
    · simp [maskFrom, LexState.shown, LexState.shows, newline]
  | code =>
    obtain ⟨rfl, rfl⟩ : inString = false ∧ escaped = e := h
    by_cases hash : c = '#'
    · subst hash
      refine ⟨false, false, ?_, fun rest => ?_⟩
      · simp [Remasks, LexState.read]
      · simp [maskFrom, LexState.shown, LexState.shows]
    have shown : LexState.shown ⟨.code, escaped⟩ c = c := by
      simp [LexState.shown, LexState.shows, hash]
    rw [shown]
    by_cases slash : c = '\\'
    · subst slash
      exact ⟨false, !escaped, by simp [Remasks, LexState.read], by simp [maskFrom]⟩
    by_cases quote : c = '"' ∧ escaped = false
    · obtain ⟨rfl, rfl⟩ := quote
      exact ⟨true, false, by simp [Remasks, LexState.read, LexMode.toggle], by simp [maskFrom]⟩
    · refine ⟨false, false, ?_, fun rest => ?_⟩
      · simp [Remasks, LexState.read, newline, hash, slash, quote]
      · simp [maskFrom, newline, slash, quote]
  | string =>
    obtain ⟨rfl, rfl⟩ : inString = true ∧ escaped = false := h
    by_cases quote : c = '"' ∧ e = false
    · obtain ⟨rfl, rfl⟩ := quote
      refine ⟨false, false, ?_, fun rest => ?_⟩
      · simp [Remasks, LexState.read, LexMode.toggle]
      · simp [maskFrom, LexState.shown, LexState.shows]
    · -- Whatever else stands in a string is a blank in the view, a backslash among it.
      have shown : LexState.shown ⟨.string, e⟩ c = ' ' := by
        simp only [LexState.shown, LexState.shows]
        grind
      refine ⟨true, false, ?_, fun rest => ?_⟩
      · simp only [Remasks, LexState.read]
        grind
      · simp [maskFrom, shown]

theorem maskFrom_view {s : LexState} {inString escaped : Bool} (h : Remasks s inString escaped)
    (text : List Char) : maskFrom inString escaped (s.view text) = s.view text := by
  induction text generalizing s inString escaped with
  | nil => rfl
  | cons c rest ih =>
    obtain ⟨inString', escaped', later, written⟩ := remask_view_step h c
    rw [LexState.view, written, ih later]

/-- The code view has no string contents left to blank. -/
theorem mask_codeView (text : List Char) : mask (codeView text) = codeView text := by
  have start : Remasks .start false false := ⟨rfl, rfl⟩
  rw [codeView_eq_view]
  exact maskFrom_view start text

theorem LexState.shown_ne_hash (s : LexState) (c : Char) : s.shown c ≠ '#' := by
  unfold shown shows
  grind

theorem LexState.hash_notMem_view (s : LexState) (text : List Char) : '#' ∉ s.view text := by
  induction text generalizing s with
  | nil => exact List.not_mem_nil
  | cons c rest ih =>
    rw [view, List.mem_cons, not_or]
    exact ⟨(s.shown_ne_hash c).symm, ih (s.read c)⟩

theorem blankComments_of_notMem {text : List Char} (h : '#' ∉ text) :
    blankComments text = text := by
  induction text with
  | nil => rfl
  | cons c rest ih =>
    obtain ⟨hash, later⟩ := not_or.mp (mt List.mem_cons.mpr h)
    have kept : blankCommentsFrom false rest = rest := ih later
    simp [blankComments, blankCommentsFrom, Ne.symm hash, kept]

/-- The code view has no comments left to blank. -/
theorem blankComments_codeView (text : List Char) :
    blankComments (codeView text) = codeView text := by
  apply blankComments_of_notMem
  rw [codeView_eq_view]
  exact LexState.start.hash_notMem_view text

/-- **A view read again is the same view.** Masking changes neither the masked view nor the code
view, the code view is its own code view, and it has the unclosed strings of the text. Reading the
masked view in place of the text makes no difference either. -/
theorem views_are_stable (text : List Char) :
    mask (mask text) = mask text ∧
    blankComments (mask (codeView text)) = codeView text ∧
    scanUnclosedStrings (codeView text) = scanUnclosedStrings text ∧
    mask (codeView text) = codeView text ∧
    codeView (mask text) = codeView text ∧
    scanUnclosedStrings (mask text) = scanUnclosedStrings text := by
  have viewed : codeView (mask text) = codeView text := by rw [codeView, mask_mask, codeView]
  refine ⟨mask_mask text, ?_, scanUnclosedStrings_codeView text, mask_codeView text, viewed, ?_⟩
  · rw [mask_codeView, blankComments_codeView]
  · calc scanUnclosedStrings (mask text)
        = scanUnclosedStrings (codeView (mask text)) := (scanUnclosedStrings_codeView _).symm
      _ = scanUnclosedStrings (codeView text) := by rw [viewed]
      _ = scanUnclosedStrings text := scanUnclosedStrings_codeView text

end LexLint
