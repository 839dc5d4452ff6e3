import LexLint.Proofs.Checker.BuiltinWords
import LexLint.Proofs.Scan.Alignment

/-!
# Errors stay in their line

Both views, the scans for unclosed strings and for angle brackets, and the checkers that use them
start afresh after each newline: what they find in a text is what they find above a newline and,
further on, what they find below it (`errors_stay_in_their_line`).
-/

namespace LexLint

/-- What is found in a text is what is found in its parts between newlines, each where it
stands. -/
def LineByLine {α : Type} (shift : Nat → α → α) (find : List Char → List α) : Prop :=
  ∀ above below, find (above ++ '\n' :: below) =
    find above ++ (find below).map (shift (above.length + 1))

/-- Such a pass writes each line by itself. -/
theorem LinePass.append_newline {σ : Type} {pass : σ → List Char → List Char} {fresh : σ}
    (h : LinePass pass fresh) (s : σ) (above below : List Char) :
    pass s (above ++ '\n' :: below) = pass s above ++ '\n' :: pass fresh below := by
  induction above generalizing s with
  | nil => rw [List.nil_append, h.newline, h.nil, List.nil_append]
  | cons c rest ih =>
    by_cases newline : c = '\n'
    · rw [newline, List.cons_append, h.newline, ih, h.newline, List.cons_append]
    · obtain ⟨d, next, -, written⟩ := h.other s c newline
      rw [List.cons_append, written, ih, written, List.cons_append]

theorem mask_append_newline (above below : List Char) :
    mask (above ++ '\n' :: below) = mask above ++ '\n' :: mask below :=
  linePass_mask.append_newline (false, false) above below

theorem codeView_append_newline (above below : List Char) :
    codeView (above ++ '\n' :: below) = codeView above ++ '\n' :: codeView below := by
  simp only [codeView_eq_view]
  exact linePass_view.append_newline .start above below

/-! ### Strings and angle brackets -/

/-- A span moved to the right. -/
def Span.shift (n : Nat) (span : Span) : Span := ⟨n + span.start, n + span.stop⟩

theorem scanUnclosedStringsFrom_append_newline (offset : Nat) (mode : StringMode)
    (above below : List Char) :
    scanUnclosedStringsFrom offset mode (above ++ '\n' :: below) =
      scanUnclosedStringsFrom offset mode above ++
        scanUnclosedStringsFrom (offset + above.length + 1) (.code false) below := by
  induction above generalizing offset mode with
  | nil =>
    rw [List.nil_append, scanUnclosedStringsFrom_cons, if_pos rfl, StringMode.next_newline,
      scanUnclosedStringsFrom_nil, List.length_nil, Nat.add_zero]
  | cons c rest ih =>
    have size : offset + 1 + rest.length + 1 = offset + (c :: rest).length + 1 := by
      rw [List.length_cons]
      omega
    rw [List.cons_append, scanUnclosedStringsFrom_cons, ih, size, scanUnclosedStringsFrom_cons,
      List.append_assoc]

theorem scanUnclosedStringsFrom_shift (n offset : Nat) (mode : StringMode) (text : List Char) :
    scanUnclosedStringsFrom (n + offset) (mode.move (n + ·)) text =
      (scanUnclosedStringsFrom offset mode text).map (Span.shift n) := by
  have unclosed (offset : Nat) (mode : StringMode) :
      (mode.move (n + ·)).unclosedAt (n + offset) =
        (mode.unclosedAt offset).map (Span.shift n) := by
    cases mode <;> rfl
  induction text generalizing offset mode with
  | nil => rw [scanUnclosedStringsFrom_nil, scanUnclosedStringsFrom_nil, unclosed]
  | cons c rest ih =>
    rw [scanUnclosedStringsFrom_cons, scanUnclosedStringsFrom_cons, List.map_append, unclosed,
      ← ih, Nat.add_assoc, mode.next_move (n + ·)]
    congr 1
    split <;> rfl

theorem lineByLine_scanUnclosedStrings : LineByLine Span.shift scanUnclosedStrings := by
  intro above below
  have later := scanUnclosedStringsFrom_shift (above.length + 1) 0 (.code false) below
  rw [scanUnclosedStrings, scanUnclosedStringsFrom_append_newline, Nat.zero_add]
  exact congrArg _ later

/-- An angle bracket is closed on its own line or not at all. -/
theorem angleInner?_append_newline (limit : Nat) (above below : List Char) :
    angleInner? limit (above ++ '\n' :: below) = angleInner? limit above := by
  induction above generalizing limit with
  | nil => cases limit <;> rfl
  | cons c rest ih =>
    cases limit with
    | zero => rfl
    | succ limit => simp only [List.cons_append, angleInner?, ih]

theorem scanAnglesFrom_append_newline (limit offset : Nat) (above below : List Char) :
    scanAnglesFrom limit offset (above ++ '\n' :: below) =
      scanAnglesFrom limit offset above ++
        scanAnglesFrom limit (offset + above.length + 1) below := by
  induction above generalizing offset with
  | nil => rfl
  | cons c rest ih =>
    have size : offset + 1 + rest.length + 1 = offset + (c :: rest).length + 1 := by
      rw [List.length_cons]
      omega
    simp only [List.cons_append, scanAnglesFrom, angleInner?_append_newline, ih, size]
    split
    · split <;> rfl
    · rfl

/-- A run in angle brackets moved to the right. -/
def AngleSpan.shift (n : Nat) : AngleSpan → AngleSpan := AngleSpan.move (n + ·)

theorem lineByLine_scanAngles (limit : Nat) : LineByLine AngleSpan.shift (scanAngles limit) := by
  intro above below
  have later := (Aligned.shift (above.length + 1) 0 below).scanAnglesFrom limit
  rw [scanAngles, scanAnglesFrom_append_newline, Nat.zero_add]
  exact congrArg _ later

/-- Runs in angle brackets are found in the code view line by line. -/
theorem lineByLine_scanAngles_codeView (limit : Nat) :
    LineByLine AngleSpan.shift fun text => scanAngles limit (codeView text) := by
  intro above below
  simp only
  rw [codeView_append_newline, lineByLine_scanAngles, length_codeView]

/-! ### Checkers -/

/-- A site moved to the right. -/
def Site.shift (n : Nat) (site : Site) : Site :=
  { site with start := n + site.start, stop := n + site.stop }

/-- A finding moved to the right. -/
def Finding.shift (n : Nat) (f : Finding) : Finding :=
  { f with start := n + f.start, stop := n + f.stop }

theorem Strings.lineByLine_sites (name : String) (options : Options) :
    LineByLine Site.shift fun text => sites ⟨name, text⟩ options := by
  intro above below
  simp only [sites, lineByLine_scanUnclosedStrings above below, List.map_append, List.map_map]
  rfl

theorem BuiltinCalls.lineByLine_sites (name : String) (options : Options) :
    LineByLine Site.shift fun text => sites ⟨name, text⟩ options := by
  intro above below
  simp only [sites, bareCalls_eq_words, Source.code, codeView_append_newline,
    bareWords_append_newline, List.map_append, List.map_map, length_codeView]
  rfl

theorem DataTypes.lineByLine_sites (name : String) (options : Options) :
    LineByLine Site.shift fun text => sites ⟨name, text⟩ options := by
  intro above below
  have angles := lineByLine_scanAngles_codeView options.typeSpanLimit above below
  simp only [sites, Source.code, angles, List.filterMap_append, List.filterMap_map,
    List.map_filterMap, Function.comp_def, site?_eq_verdict, Option.map_map]
  rfl

/-- What is found on three lines. -/
theorem LineByLine.three {α : Type} {shift : Nat → α → α} {find : List Char → List α}
    (h : LineByLine shift find) (additive : ∀ m n a, shift m (shift n a) = shift (m + n) a)
    (above line below : List Char) :
    find (above ++ '\n' :: (line ++ '\n' :: below)) =
      find above ++ (find line).map (shift (above.length + 1)) ++
        (find below).map (shift (above.length + 1 + (line.length + 1))) := by
  rw [h, h, List.map_append, List.map_map, List.append_assoc]
  simp only [Function.comp_def, additive]

theorem Finding.shift_shift (m n : Nat) (f : Finding) :
    (f.shift n).shift m = f.shift (m + n) := by
  simp only [Finding.shift, Int.natCast_add, Int.add_assoc]

/-- A checker that emits, whatever is declared, what it finds line by line. So whatever stands on
a line, it emits the same for those above and, further on, for those below. -/
def Checker.EmitsLineByLine (checker : Checker) : Prop :=
  ∀ (name : String) (options : Options), ∃ emitted : List Char → List Finding,
    (∀ text declared, (checker.emit ⟨⟨name, text⟩, options⟩).outcome declared =
      (.ok (emitted text), declared)) ∧
    LineByLine Finding.shift emitted ∧
    ∀ above line below, emitted (above ++ '\n' :: (line ++ '\n' :: below)) =
      emitted above ++ (emitted line).map (Finding.shift (above.length + 1)) ++
        (emitted below).map (Finding.shift (above.length + 1 + (line.length + 1)))

theorem Checker.emitsLineByLine_ofSites {name title description : String} {codes : List Code}
    {sites : Source → Options → List Site}
    (apt : ∀ source options, ∀ site ∈ sites source options, site.Apt source.text codes)
    (lines : ∀ source options, LineByLine Site.shift fun text => sites ⟨source, text⟩ options) :
    (ofSites name title description codes sites).EmitsLineByLine := by
  intro source options
  let emitted (text : List Char) : List Finding :=
    (sites ⟨source, text⟩ options).map (ofSites name title description codes sites).placed
  have emittedLines : LineByLine Finding.shift emitted := by
    intro above below
    have parts := lines source options above below
    simp only at parts
    simp only [emitted, parts, List.map_append, List.map_map]
    rfl
  refine ⟨emitted, ?_, emittedLines, emittedLines.three Finding.shift_shift⟩
  intro text declared
  exact outcome_emit_placed (apt ⟨source, text⟩ options) declared

/-- **Errors stay in their line.** Both views are made, and unclosed strings and runs in angle
brackets are found, line by line. The checkers for strings, built-in calls and data types emit on a
text what they emit on the part above a newline and then, further on, what they emit on the part
below it. -/
theorem errors_stay_in_their_line :
    (∀ above below, mask (above ++ '\n' :: below) = mask above ++ '\n' :: mask below) ∧
    (∀ above below, codeView (above ++ '\n' :: below) =
      codeView above ++ '\n' :: codeView below) ∧
    LineByLine Span.shift scanUnclosedStrings ∧
    (∀ limit, LineByLine AngleSpan.shift fun text => scanAngles limit (codeView text)) ∧
    Strings.checker.EmitsLineByLine ∧ BuiltinCalls.checker.EmitsLineByLine ∧
    DataTypes.checker.EmitsLineByLine :=
  ⟨mask_append_newline, codeView_append_newline, lineByLine_scanUnclosedStrings,
    lineByLine_scanAngles_codeView,
    Checker.emitsLineByLine_ofSites Strings.apt_sites Strings.lineByLine_sites,
    Checker.emitsLineByLine_ofSites BuiltinCalls.apt_sites BuiltinCalls.lineByLine_sites,
    Checker.emitsLineByLine_ofSites DataTypes.apt_sites DataTypes.lineByLine_sites⟩

end LexLint
