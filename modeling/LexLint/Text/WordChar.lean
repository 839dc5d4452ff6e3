/-!
Characters of identifiers: ASCII letters, ASCII digits and the underscore.
-/

namespace LexLint

/-- An ASCII letter or an underscore. -/
def isWordStart (c : Char) : Bool := c.isAlpha || c == '_'

/-- An ASCII letter, an ASCII digit or an underscore. -/
def isWordChar (c : Char) : Bool := isWordStart c || c.isDigit

theorem isWordChar_of_isWordStart {c : Char} (h : isWordStart c = true) :
    isWordChar c = true := by
  simp [isWordChar, h]

/-- The identifier at the start of a text, with what follows it. -/
def identifier? : List Char → Option (List Char × List Char)
  | [] => none
  | c :: rest =>
    if isWordStart c then some (c :: rest.takeWhile isWordChar, rest.dropWhile isWordChar)
    else none

/-- The whole text is one identifier. -/
def isIdentifier : List Char → Bool
  | [] => false
  | c :: rest => isWordStart c && rest.all isWordChar

theorem identifier?_eq_some {s word rest : List Char} (h : identifier? s = some (word, rest)) :
    s = word ++ rest ∧ isIdentifier word = true := by
  cases s with
  | nil => simp [identifier?] at h
  | cons c cs =>
    simp only [identifier?, Option.ite_none_right_eq_some, Option.some.injEq, Prod.mk.injEq] at h
    obtain ⟨hc, rfl, rfl⟩ := h
    constructor
    · simp [List.takeWhile_append_dropWhile]
    · simp [isIdentifier, hc]

end LexLint
