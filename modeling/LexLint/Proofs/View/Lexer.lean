import LexLint.Source.View

/-!
# A reference lexer

One reading of a text that knows strings, comments and escapes at once. `view` blanks what the
reader finds inside strings and comments; `codeView_eq_view` shows that the two passes of the code
view come to the same, although the first of them takes quotes inside comments for strings.
-/

namespace LexLint

inductive LexMode where
  | code
  | string
  | comment
  deriving DecidableEq, Repr

/-- What an unescaped quote does. -/
def LexMode.toggle : LexMode → LexMode
  | .code => .string
  | .string => .code
  | .comment => .comment

/-- What a reader stands in, and whether a backslash is pending. -/
structure LexState where
  mode : LexMode
  escaped : Bool
  deriving DecidableEq, Repr

namespace LexState

def start : LexState := ⟨.code, false⟩

/-- The state after one more character. -/
def read (s : LexState) (c : Char) : LexState :=
  if c = '\n' then start
  else if s.mode = .comment then s
  else if s.mode = .code ∧ c = '#' then { s with mode := .comment }
  else if c = '\\' then { s with escaped := !s.escaped }
  else if c = '"' ∧ s.escaped = false then { s with mode := s.mode.toggle }
  else { s with escaped := false }

/-- A character read in this state belongs to the code: a newline, anything in code but the start
of a comment, and the quote that closes a string. -/
def shows (s : LexState) (c : Char) : Bool :=
  c == '\n' || s.mode == .code && c != '#' || s.mode == .string && c == '"' && !s.escaped

/-- A character as it stands in the code view. -/
def shown (s : LexState) (c : Char) : Char := if s.shows c then c else ' '

/-- The text with all blanked that does not belong to the code. -/
def view (s : LexState) : List Char → List Char
  | [] => []
  | c :: rest => s.shown c :: view (s.read c) rest

theorem read_newline (s : LexState) : s.read '\n' = start := by
  simp [read]

theorem shown_eq_newline {s : LexState} {c : Char} : s.shown c = '\n' ↔ c = '\n' := by
  unfold shown
  split
  · rfl
  · rename_i hidden
    constructor
    · intro h
      simp at h
    · rintro rfl
      simp [shows] at hidden

/-- The state before the character at an offset. -/
def before (text : List Char) (offset : Nat) : LexState := (text.take offset).foldl read start

theorem before_zero (text : List Char) : before text 0 = start := rfl

theorem before_succ {text : List Char} {i : Nat} {c : Char} (h : text[i]? = some c) :
    before text (i + 1) = (before text i).read c := by
  simp only [before, List.take_add_one, h, Option.toList_some, List.foldl_append,
    List.foldl_cons, List.foldl_nil]

/-- A view blanks each character by the state before it. -/
theorem getElem?_view (s : LexState) (text : List Char) (i : Nat) :
    (s.view text)[i]? = (text[i]?).map ((text.take i).foldl read s).shown := by
  induction text generalizing s i with
  | nil => simp [view]
  | cons c rest ih =>
    cases i with
    | zero => rfl
    | succ i => simpa [view] using ih (s.read c) i

end LexState

/-- The two passes stand where the reader does. In a comment the first pass may stand anywhere:
it goes on counting quotes there. -/
def Tracks (s : LexState) (inString escaped inComment : Bool) : Prop :=
  match s.mode with
  | .comment => inComment = true
  | .code => inComment = false ∧ inString = false ∧ escaped = s.escaped
  | .string => inComment = false ∧ inString = true ∧ escaped = s.escaped

/-- Off a newline the first pass writes some character that is no newline either. -/
theorem maskFrom_cons {c : Char} (newline : c ≠ '\n') (inString escaped : Bool) :
    ∃ d inString' escaped', d ≠ '\n' ∧
      ∀ rest, maskFrom inString escaped (c :: rest) = d :: maskFrom inString' escaped' rest := by
  have kept : (if inString then ' ' else c) ≠ '\n' := by
    cases inString
    · exact newline
    · simp
  by_cases slash : c = '\\'
  · exact ⟨_, inString, !escaped, kept, by simp [maskFrom, slash]⟩
  by_cases quote : c = '"' ∧ escaped = false
  · exact ⟨c, !inString, false, newline, by simp [maskFrom, quote]⟩
  · exact ⟨_, inString, false, kept, by simp [maskFrom, newline, slash, quote]⟩

/-- One character: the two passes write what the reader shows, and still stand where it does. -/
theorem tracks_step {s : LexState} {inString escaped inComment : Bool}
    (h : Tracks s inString escaped inComment) (c : Char) :
    ∃ inString' escaped' inComment', Tracks (s.read c) inString' escaped' inComment' ∧
      ∀ rest, blankCommentsFrom inComment (maskFrom inString escaped (c :: rest)) =
        s.shown c :: blankCommentsFrom inComment' (maskFrom inString' escaped' rest) := by
  obtain ⟨mode, e⟩ := s
  by_cases newline : c = '\n'
  · subst newline
    refine ⟨false, false, false, ?_, ?_⟩
    · simp [Tracks, LexState.read, LexState.start]
    · simp [maskFrom, blankCommentsFrom, LexState.shown, LexState.shows]
  cases mode with
  | comment =>
    -- The first pass has drifted, but whatever it writes here is blanked by the second.
    have inside : inComment = true := h
    obtain ⟨d, inString', escaped', hd, masked⟩ := maskFrom_cons newline inString escaped
    refine ⟨inString', escaped', true, ?_, fun rest => ?_⟩
    · simp [Tracks, LexState.read, newline]
    · simp [masked, blankCommentsFrom, hd, inside, LexState.shown, LexState.shows, newline]
  | code =>
    obtain ⟨rfl, rfl, rfl⟩ : inComment = false ∧ inString = false ∧ escaped = e := h
    by_cases hash : c = '#'
    · subst hash
      refine ⟨false, false, true, ?_, fun rest => ?_⟩
      · simp [Tracks, LexState.read]
      · simp [maskFrom, blankCommentsFrom, LexState.shown, LexState.shows]
    by_cases slash : c = '\\'
    · subst slash
      refine ⟨false, !escaped, false, ?_, fun rest => ?_⟩
      · simp [Tracks, LexState.read]
      · simp [maskFrom, blankCommentsFrom, LexState.shown, LexState.shows]
    by_cases quote : c = '"' ∧ escaped = false
    · obtain ⟨rfl, rfl⟩ := quote
      refine ⟨true, false, false, ?_, fun rest => ?_⟩
      · simp [Tracks, LexState.read, LexMode.toggle]
      · simp [maskFrom, blankCommentsFrom, LexState.shown, LexState.shows]
    · refine ⟨false, false, false, ?_, fun rest => ?_⟩
      · simp [Tracks, LexState.read, newline, hash, slash, quote]
      · simp [maskFrom, blankCommentsFrom, LexState.shown, LexState.shows, newline, hash, slash,
          quote]
  | string =>
    obtain ⟨rfl, rfl, rfl⟩ : inComment = false ∧ inString = true ∧ escaped = e := h
    by_cases slash : c = '\\'
    · subst slash
      refine ⟨true, !escaped, false, ?_, fun rest => ?_⟩
      · simp [Tracks, LexState.read]
      · simp [maskFrom, blankCommentsFrom, LexState.shown, LexState.shows]
    by_cases quote : c = '"' ∧ escaped = false
    · obtain ⟨rfl, rfl⟩ := quote
      refine ⟨false, false, false, ?_, fun rest => ?_⟩
      · simp [Tracks, LexState.read, LexMode.toggle]
      · simp [maskFrom, blankCommentsFrom, LexState.shown, LexState.shows]
    · refine ⟨true, false, false, ?_, fun rest => ?_⟩
      · simp [Tracks, LexState.read, newline, slash, quote]
      · simp [maskFrom, blankCommentsFrom, LexState.shown, LexState.shows, newline, slash,
          quote]

theorem blankCommentsFrom_maskFrom {s : LexState} {inString escaped inComment : Bool}
    (h : Tracks s inString escaped inComment) (text : List Char) :
    blankCommentsFrom inComment (maskFrom inString escaped text) = s.view text := by
  induction text generalizing s inString escaped inComment with
  | nil => rfl
  | cons c rest ih =>
    obtain ⟨inString', escaped', inComment', tracks, written⟩ := tracks_step h c
    rw [written, ih tracks, LexState.view]

/-- The two passes of the code view agree with the one reading. -/
theorem codeView_eq_view (text : List Char) : codeView text = LexState.start.view text :=
  blankCommentsFrom_maskFrom (s := .start) ⟨rfl, rfl, rfl⟩ text

end LexLint
