import LexLint.Proofs.View.Lexer
import LexLint.Scan.StringLiteral
import LexLint.Source.Basic
import Mathlib.Data.List.Sort

/-!
# Unclosed strings

The scan for unclosed strings against the reference lexer: it finds, in text order, one string for
each line at whose end the lexer stands in a string (`mem_scanUnclosedStrings`,
`stops_scanUnclosedStrings`). It finds the same ones in the code view of a text
(`scanUnclosedStrings_codeView`).
-/

namespace LexLint

open LexState (before)

namespace StringMode

/-- The mode after the character at an offset. -/
def next (offset : Nat) (mode : StringMode) (c : Char) : StringMode :=
  match mode with
  | .comment => if c = '\n' then .code false else .comment
  | .code escaped =>
    if c = '#' then .comment
    else if c = '\\' then .code (!escaped)
    else if c = '"' ∧ escaped = false then .string offset false
    else .code false
  | .string start escaped =>
    if c = '\\' then .string start (!escaped)
    else if c = '"' ∧ escaped = false then .code false
    else if c = '\n' then .code false
    else .string start false

/-- The string that is unclosed if a line ends here. -/
def unclosedAt (offset : Nat) : StringMode → List Span
  | .string start _ => [⟨start, offset⟩]
  | _ => []

end StringMode

theorem scanUnclosedStringsFrom_nil (offset : Nat) (mode : StringMode) :
    scanUnclosedStringsFrom offset mode [] = mode.unclosedAt offset := by
  cases mode <;> rfl

theorem scanUnclosedStringsFrom_cons (offset : Nat) (mode : StringMode) (c : Char)
    (rest : List Char) :
    scanUnclosedStringsFrom offset mode (c :: rest) =
      (if c = '\n' then mode.unclosedAt offset else []) ++
        scanUnclosedStringsFrom (offset + 1) (mode.next offset c) rest := by
  cases mode with
  | comment => simp [scanUnclosedStringsFrom, StringMode.next, StringMode.unclosedAt]
  | code escaped =>
    simp only [scanUnclosedStringsFrom, StringMode.next, StringMode.unclosedAt, ite_self,
      List.nil_append]
    split
    · rfl
    · split
      · rfl
      · split <;> rfl
  | string start escaped =>
    simp only [scanUnclosedStringsFrom, StringMode.next, StringMode.unclosedAt]
    by_cases slash : c = '\\'
    · simp [slash]
    by_cases quote : c = '"' ∧ escaped = false
    · simp [quote]
    by_cases newline : c = '\n'
    · simp [newline]
    · simp [slash, quote, newline]

/-- The string opened at `start` is open at `stop`: its quote is read in code and everything
behind it, up to there, inside the string. -/
structure OpenString (text : List Char) (start stop : Nat) : Prop where
  lt : start < stop
  quote : text[start]? = some '"'
  outside : (before text start).mode = .code
  inside : ∀ i, start < i → i ≤ stop → (before text i).mode = .string

/-- A string that is open at the end of its line, or of the text. -/
structure IsUnclosed (text : List Char) (span : Span) : Prop where
  isOpen : OpenString text span.start span.stop
  lineEnd : text[span.stop]? = some '\n' ∨ span.stop = text.length

/-- The offsets at which the lines of a text end, newlines excluded. -/
def lineEnds (text : List Char) : List Nat :=
  (List.range (text.length + 1)).filter fun i => text[i]? = some '\n' ∨ i = text.length

theorem OpenString.start_unique {text : List Char} {a b stop : Nat}
    (ha : OpenString text a stop) (hb : OpenString text b stop) : a = b := by
  have notBefore {a b : Nat} (ha : OpenString text a stop) (hb : OpenString text b stop) :
      ¬ a < b := by
    intro lt
    have hs := ha.inside b lt (Nat.le_of_lt hb.lt)
    rw [hb.outside] at hs
    cases hs
  have := notBefore ha hb
  have := notBefore hb ha
  omega

theorem OpenString.step {text : List Char} {start i : Nat} (h : OpenString text start i)
    (inside : (before text (i + 1)).mode = .string) : OpenString text start (i + 1) := by
  refine ⟨Nat.lt_succ_of_lt h.lt, h.quote, h.outside, fun j hj hle => ?_⟩
  by_cases last : j = i + 1
  · exact last ▸ inside
  · exact h.inside j hj (by omega)

theorem IsUnclosed.stop_le {text : List Char} {span : Span} (h : IsUnclosed text span) :
    span.stop ≤ text.length := by
  rcases h.lineEnd with newline | atEnd
  · obtain ⟨bound, _⟩ := List.getElem?_eq_some_iff.mp newline
    omega
  · omega

/-- A scan at an offset stands where the reader does, and knows where its string began. -/
def StringMode.Tracks (text : List Char) (offset : Nat) : StringMode → Prop
  | .comment => (before text offset).mode = .comment
  | .code escaped => before text offset = ⟨.code, escaped⟩
  | .string start escaped =>
    before text offset = ⟨.string, escaped⟩ ∧ OpenString text start offset

theorem StringMode.tracks_next {text : List Char} {i : Nat} {mode : StringMode} {c : Char}
    (h : mode.Tracks text i) (hc : text[i]? = some c) :
    (mode.next i c).Tracks text (i + 1) := by
  have reads := LexState.before_succ hc
  by_cases newline : c = '\n'
  · subst newline
    rw [LexState.read_newline] at reads
    have restarts : mode.next i '\n' = .code false := by
      cases mode <;> simp [StringMode.next]
    rw [restarts]
    exact reads
  cases mode with
  | comment =>
    have state : (before text i).mode = .comment := h
    simp only [StringMode.next, newline, if_false, StringMode.Tracks]
    simp [reads, LexState.read, newline, state]
  | code escaped =>
    have state : before text i = ⟨.code, escaped⟩ := h
    rw [state] at reads
    simp only [StringMode.next]
    by_cases hash : c = '#'
    · simp [StringMode.Tracks, reads, LexState.read, hash]
    by_cases slash : c = '\\'
    · simp [StringMode.Tracks, reads, LexState.read, slash]
    by_cases quote : c = '"' ∧ escaped = false
    · have opens : before text (i + 1) = ⟨.string, false⟩ := by
        simp [reads, LexState.read, quote, LexMode.toggle]
      simp only [quote, and_self, if_true, StringMode.Tracks]
      refine ⟨opens, Nat.lt_succ_self i, quote.1 ▸ hc, by rw [state], fun j hj hle => ?_⟩
      obtain rfl : j = i + 1 := by omega
      rw [opens]
    · simp [StringMode.Tracks, reads, LexState.read, newline, hash, slash, quote]
  | string start escaped =>
    obtain ⟨state, isOpen⟩ := h
    rw [state] at reads
    simp only [StringMode.next]
    by_cases slash : c = '\\'
    · have stays : before text (i + 1) = ⟨.string, !escaped⟩ := by
        simp [reads, LexState.read, slash]
      simpa only [slash, if_true] using ⟨stays, isOpen.step (by rw [stays])⟩
    by_cases quote : c = '"' ∧ escaped = false
    · simp [StringMode.Tracks, reads, LexState.read, quote, LexMode.toggle]
    · have stays : before text (i + 1) = ⟨.string, false⟩ := by
        simp [reads, LexState.read, newline, slash, quote]
      simp only [slash, quote, newline, if_false]
      exact ⟨stays, isOpen.step (by rw [stays])⟩

/-- Where a line ends, the unclosed string is the one that the scan is in. -/
theorem StringMode.mem_unclosedAt {text : List Char} {i : Nat} {mode : StringMode}
    (h : mode.Tracks text i) (lineEnd : text[i]? = some '\n' ∨ i = text.length) (span : Span) :
    span ∈ mode.unclosedAt i ↔ IsUnclosed text span ∧ span.stop = i := by
  have inString (hs : IsUnclosed text span ∧ span.stop = i) :
      (before text i).mode = .string ∧ OpenString text span.start i := by
    obtain ⟨⟨isOpen, _⟩, rfl⟩ := hs
    exact ⟨isOpen.inside _ isOpen.lt (Nat.le_refl _), isOpen⟩
  cases mode with
  | comment =>
    have state : (before text i).mode = .comment := h
    simp only [StringMode.unclosedAt, List.not_mem_nil, false_iff]
    intro hs
    have := (inString hs).1
    simp [state] at this
  | code escaped =>
    have state : before text i = ⟨.code, escaped⟩ := h
    simp only [StringMode.unclosedAt, List.not_mem_nil, false_iff]
    intro hs
    have := (inString hs).1
    simp [state] at this
  | string start escaped =>
    obtain ⟨_, isOpen⟩ := h
    simp only [StringMode.unclosedAt, List.mem_singleton]
    constructor
    · rintro rfl
      exact ⟨⟨isOpen, lineEnd⟩, rfl⟩
    · intro hs
      have same := (inString hs).2.start_unique isOpen
      obtain ⟨s, e⟩ := span
      obtain rfl : e = i := hs.2
      exact congrArg (Span.mk · e) same

theorem drop_eq_cons {text rest : List Char} {i : Nat} {c : Char} (h : text.drop i = c :: rest) :
    text[i]? = some c ∧ i < text.length ∧ text.drop (i + 1) = rest := by
  have hc : text[i]? = some c := by
    have := congrArg (·[0]?) h
    simpa using this
  refine ⟨hc, (List.getElem?_eq_some_iff.mp hc).1, ?_⟩
  rw [← List.tail_drop, h, List.tail_cons]

/-- From an offset on the scan finds the unclosed strings that end there or later. -/
theorem mem_scanUnclosedStringsFrom {text rest : List Char} {i : Nat} {mode : StringMode}
    (hrest : text.drop i = rest) (hi : i ≤ text.length) (h : mode.Tracks text i) (span : Span) :
    span ∈ scanUnclosedStringsFrom i mode rest ↔ IsUnclosed text span ∧ i ≤ span.stop := by
  induction rest generalizing i mode with
  | nil =>
    have atEnd : i = text.length := by
      have := List.drop_eq_nil_iff.mp hrest
      omega
    rw [scanUnclosedStringsFrom_nil, StringMode.mem_unclosedAt h (.inr atEnd)]
    refine and_congr_right fun hs => ?_
    have := hs.stop_le
    omega
  | cons c rest ih =>
    obtain ⟨hc, hlt, htail⟩ := drop_eq_cons hrest
    have later := ih htail hlt (StringMode.tracks_next h hc)
    rw [scanUnclosedStringsFrom_cons, List.mem_append, later]
    -- What ends here is found here, and what ends later is found later.
    have here : span ∈ (if c = '\n' then mode.unclosedAt i else []) ↔
        IsUnclosed text span ∧ span.stop = i := by
      by_cases newline : c = '\n'
      · rw [if_pos newline, StringMode.mem_unclosedAt h (.inl (newline ▸ hc))]
      · rw [if_neg newline]
        simp only [List.not_mem_nil, false_iff]
        rintro ⟨hs, rfl⟩
        rcases hs.lineEnd with atNewline | atEnd
        · rw [hc] at atNewline
          exact newline (Option.some.inj atNewline)
        · omega
    rw [here]
    grind

/-- The scan finds exactly the strings that are open where their line ends. -/
theorem mem_scanUnclosedStrings (text : List Char) (span : Span) :
    span ∈ scanUnclosedStrings text ↔ IsUnclosed text span := by
  have h : (StringMode.code false).Tracks text 0 := LexState.before_zero text
  rw [scanUnclosedStrings, mem_scanUnclosedStringsFrom List.drop_zero (Nat.zero_le _) h]
  simp

theorem LexState.code_of_read_string {s : LexState} {c : Char} (h : (s.read c).mode = .string) :
    s.mode = .string ∨ s.mode = .code ∧ c = '"' := by
  obtain ⟨mode, escaped⟩ := s
  cases mode with
  | string => exact .inl rfl
  | code | comment =>
    unfold LexState.read at h
    grind [LexState.start, LexMode.toggle]

/-- Whoever stands in a string has read its quote. -/
theorem exists_openString {text : List Char} {i : Nat} (hi : i ≤ text.length)
    (h : (before text i).mode = .string) : ∃ start, OpenString text start i := by
  induction i with
  | zero => cases h
  | succ i ih =>
    have hc : text[i]? = some text[i] := List.getElem?_eq_getElem hi
    have reads := LexState.before_succ hc
    rcases LexState.code_of_read_string (reads ▸ h) with inside | ⟨outside, quote⟩
    · obtain ⟨start, isOpen⟩ := ih (Nat.le_of_lt hi) inside
      exact ⟨start, isOpen.step h⟩
    · refine ⟨i, Nat.lt_succ_self i, quote ▸ hc, outside, fun j hj hle => ?_⟩
      obtain rfl : j = i + 1 := by omega
      exact h

/-- A string that is open behind a newline was opened behind it. -/
theorem OpenString.lt_start_of_newline {text : List Char} {start stop i : Nat}
    (h : OpenString text start stop) (newline : text[i]? = some '\n') (hi : i < stop) :
    i < start := by
  apply Nat.lt_of_not_le
  intro le
  have inside := h.inside (i + 1) (by omega) hi
  rw [LexState.before_succ newline, LexState.read_newline] at inside
  cases inside

theorem scanUnclosedStringsFrom_separated {text rest : List Char} {i : Nat} {mode : StringMode}
    (hrest : text.drop i = rest) (hi : i ≤ text.length) (h : mode.Tracks text i) :
    (scanUnclosedStringsFrom i mode rest).Pairwise fun a b => a.stop < b.start := by
  induction rest generalizing i mode with
  | nil =>
    rw [scanUnclosedStringsFrom_nil]
    cases mode <;> simp [StringMode.unclosedAt]
  | cons c rest ih =>
    obtain ⟨hc, hlt, htail⟩ := drop_eq_cons hrest
    have tracks := StringMode.tracks_next h hc
    rw [scanUnclosedStringsFrom_cons, List.pairwise_append]
    by_cases newline : c = '\n'
    · subst newline
      rw [if_pos rfl]
      refine ⟨by cases mode <;> simp [StringMode.unclosedAt], ih htail hlt tracks, ?_⟩
      intro a ha b hb
      obtain ⟨_, stops⟩ := (StringMode.mem_unclosedAt h (.inl hc) a).mp ha
      obtain ⟨unclosed, later⟩ := (mem_scanUnclosedStringsFrom htail hlt tracks b).mp hb
      rw [stops]
      exact unclosed.isOpen.lt_start_of_newline hc later
    · rw [if_neg newline]
      exact ⟨.nil, ih htail hlt tracks, by simp⟩

/-- Unclosed strings are found in text order, each on a line of its own. -/
theorem scanUnclosedStrings_separated (text : List Char) :
    (scanUnclosedStrings text).Pairwise fun a b => a.stop < b.start :=
  scanUnclosedStringsFrom_separated List.drop_zero (Nat.zero_le _) (LexState.before_zero text)

/-- There is one unclosed string for each line at whose end the lexer stands in a string. -/
theorem stops_scanUnclosedStrings (text : List Char) :
    (scanUnclosedStrings text).map (·.stop) =
      (lineEnds text).filter fun e => (before text e).mode = .string := by
  have found : ((scanUnclosedStrings text).map (·.stop)).Pairwise (· < ·) := by
    rw [List.pairwise_map]
    refine (scanUnclosedStrings_separated text).imp_of_mem fun _ hb separated => ?_
    exact Nat.lt_trans separated ((mem_scanUnclosedStrings text _).mp hb).isOpen.lt
  have ends : ((lineEnds text).filter fun e => (before text e).mode = .string).Pairwise (· < ·) :=
    (List.pairwise_lt_range.filter _).filter _
  refine found.eq_of_mem_iff ends fun e => ?_
  simp only [List.mem_map, mem_scanUnclosedStrings, lineEnds, List.mem_filter, List.mem_range,
    decide_eq_true_eq]
  constructor
  · rintro ⟨span, unclosed, rfl⟩
    have isOpen := unclosed.isOpen
    have := unclosed.stop_le
    exact ⟨⟨by omega, unclosed.lineEnd⟩, isOpen.inside _ isOpen.lt (Nat.le_refl _)⟩
  · rintro ⟨⟨bound, lineEnd⟩, inside⟩
    obtain ⟨start, isOpen⟩ := exists_openString (by omega) inside
    exact ⟨⟨start, e⟩, ⟨isOpen, lineEnd⟩, rfl⟩

/-- A scan of the code view stands where the scan of the text does. What a string or a comment
holds is blank there, so that no backslash is pending, and a comment looks like code. -/
def StringMode.Shadows (s : LexState) : StringMode → StringMode → Prop
  | .comment, shadow => s.mode = .comment ∧ shadow = .code false
  | .code escaped, shadow => s = ⟨.code, escaped⟩ ∧ shadow = .code escaped
  | .string start escaped, shadow => s = ⟨.string, escaped⟩ ∧ shadow = .string start false

theorem StringMode.shadows_next {s : LexState} {mode shadow : StringMode}
    (h : mode.Shadows s shadow) (i : Nat) (c : Char) :
    (mode.next i c).Shadows (s.read c) (shadow.next i (s.shown c)) := by
  obtain ⟨m, e⟩ := s
  by_cases newline : c = '\n'
  · subst newline
    have shown := LexState.shown_eq_newline (s := ⟨m, e⟩).mpr rfl
    rw [LexState.read_newline, shown]
    cases mode <;> obtain ⟨_, rfl⟩ := h <;> exact ⟨rfl, rfl⟩
  cases mode with
  | comment =>
    obtain ⟨rfl, rfl⟩ : m = .comment ∧ shadow = .code false := h
    simp [StringMode.Shadows, StringMode.next, LexState.read, LexState.shown, LexState.shows,
      newline]
  | code escaped =>
    obtain ⟨⟨rfl, rfl⟩, rfl⟩ : LexState.mk m e = ⟨.code, escaped⟩ ∧ shadow = .code escaped := h
    by_cases hash : c = '#'
    · subst hash
      simp [StringMode.Shadows, StringMode.next, LexState.read, LexState.shown, LexState.shows]
    have shown : LexState.shown ⟨.code, e⟩ c = c := by
      simp [LexState.shown, LexState.shows, hash]
    rw [shown]
    by_cases slash : c = '\\'
    · simp [StringMode.Shadows, StringMode.next, LexState.read, slash]
    by_cases quote : c = '"' ∧ e = false
    · simp [StringMode.Shadows, StringMode.next, LexState.read, LexMode.toggle, quote]
    · simp [StringMode.Shadows, StringMode.next, LexState.read, newline, hash, slash, quote]
  | string start escaped =>
    obtain ⟨⟨rfl, rfl⟩, rfl⟩ :
      LexState.mk m e = ⟨.string, escaped⟩ ∧ shadow = .string start false := h
    by_cases slash : c = '\\'
    · simp [StringMode.Shadows, StringMode.next, LexState.read, LexState.shown, LexState.shows,
        slash]
    by_cases quote : c = '"' ∧ e = false
    · simp [StringMode.Shadows, StringMode.next, LexState.read, LexState.shown, LexState.shows,
        LexMode.toggle, quote]
    · simp [StringMode.Shadows, StringMode.next, LexState.read, LexState.shown, LexState.shows,
        newline, slash, quote]

theorem StringMode.shadows_unclosedAt {s : LexState} {mode shadow : StringMode}
    (h : mode.Shadows s shadow) (i : Nat) : shadow.unclosedAt i = mode.unclosedAt i := by
  cases mode <;> obtain ⟨_, rfl⟩ := h <;> rfl

theorem scanUnclosedStringsFrom_view {s : LexState} {mode shadow : StringMode}
    (h : mode.Shadows s shadow) (i : Nat) (text : List Char) :
    scanUnclosedStringsFrom i shadow (s.view text) = scanUnclosedStringsFrom i mode text := by
  induction text generalizing s mode shadow i with
  | nil =>
    rw [LexState.view, scanUnclosedStringsFrom_nil, scanUnclosedStringsFrom_nil,
      StringMode.shadows_unclosedAt h]
  | cons c rest ih =>
    rw [LexState.view, scanUnclosedStringsFrom_cons, scanUnclosedStringsFrom_cons,
      ih (StringMode.shadows_next h i c), StringMode.shadows_unclosedAt h]
    simp only [LexState.shown_eq_newline]

/-- The code view has the unclosed strings of its text. -/
theorem scanUnclosedStrings_codeView (text : List Char) :
    scanUnclosedStrings (codeView text) = scanUnclosedStrings text := by
  have start : (StringMode.code false).Shadows .start (.code false) := ⟨rfl, rfl⟩
  rw [codeView_eq_view]
  exact scanUnclosedStringsFrom_view start 0 text

/-- **One lexer explains both scans.** The code view, made in two passes of which the first knows
no comments, shows each character by the state in which the lexer reads it; and the one-pass scan
finds, in order, the string of each line at whose end the lexer stands in a string. -/
theorem code_and_unclosed_strings_follow_lexer (source : Source) :
    source.code.length = source.text.length ∧
    (∀ i, source.code[i]? = (source.text[i]?).map (before source.text i).shown) ∧
    (scanUnclosedStrings source.text).map (·.stop) =
      (lineEnds source.text).filter (fun e => (before source.text e).mode = .string) ∧
    ∀ span, span ∈ scanUnclosedStrings source.text ↔ IsUnclosed source.text span := by
  refine ⟨length_codeView _, fun i => ?_, stops_scanUnclosedStrings _,
    mem_scanUnclosedStrings _⟩
  rw [Source.code, codeView_eq_view, LexState.getElem?_view]
  rfl

end LexLint
