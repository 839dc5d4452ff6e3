/-!
Two views of a text that keep its length, so that an offset into a view is an offset into the
text. The masked view blanks what stands inside string literals, and the code view blanks
comments as well.

A backslash escapes the character after it, and only an unescaped quote opens or closes a string.
A string ends at its line's end at the latest.
-/

namespace LexLint

/-- Blanks string contents from some place on, where the text before left a string open or not
and a backslash pending or not. -/
def maskFrom (inString escaped : Bool) : List Char → List Char
  | [] => []
  | c :: rest =>
    if c = '\n' then c :: maskFrom false false rest
    else if c = '\\' then (if inString then ' ' else c) :: maskFrom inString (!escaped) rest
    else if c = '"' ∧ escaped = false then c :: maskFrom (!inString) false rest
    else (if inString then ' ' else c) :: maskFrom inString false rest

/-- The text with the contents of its strings blanked; the quotes stay. -/
def mask (text : List Char) : List Char := maskFrom false false text

/-- Blanks comments from some place on, inside a comment or not. -/
def blankCommentsFrom (inComment : Bool) : List Char → List Char
  | [] => []
  | c :: rest =>
    if c = '\n' then c :: blankCommentsFrom false rest
    else if inComment then ' ' :: blankCommentsFrom true rest
    else if c = '#' then ' ' :: blankCommentsFrom true rest
    else c :: blankCommentsFrom false rest

/-- The text with every comment blanked, from its `#` to the end of its line. -/
def blankComments (text : List Char) : List Char := blankCommentsFrom false text

/-- The text with string contents and comments blanked. -/
def codeView (text : List Char) : List Char := blankComments (mask text)

theorem length_maskFrom (inString escaped : Bool) (text : List Char) :
    (maskFrom inString escaped text).length = text.length := by
  induction text generalizing inString escaped with
  | nil => rfl
  | cons c rest ih =>
    simp only [maskFrom]
    split
    · simp [ih]
    · split
      · simp [ih]
      · split <;> simp [ih]

theorem length_blankCommentsFrom (inComment : Bool) (text : List Char) :
    (blankCommentsFrom inComment text).length = text.length := by
  induction text generalizing inComment with
  | nil => rfl
  | cons c rest ih =>
    simp only [blankCommentsFrom]
    split
    · simp [ih]
    · split
      · simp [ih]
      · split <;> simp [ih]

theorem length_mask (text : List Char) : (mask text).length = text.length :=
  length_maskFrom false false text

theorem length_codeView (text : List Char) : (codeView text).length = text.length := by
  rw [codeView, blankComments, length_blankCommentsFrom, length_mask]

end LexLint
