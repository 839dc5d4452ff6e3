import LexLint.Text.Blank

/-!
Cutting texts at a separator character, and joining them again.
-/

namespace LexLint

/-- The pieces between the occurrences of a separator; there is always one more piece than
separators. -/
def splitAtChar (sep : Char) : List Char → List (List Char)
  | [] => [[]]
  | c :: rest =>
    if c = sep then [] :: splitAtChar sep rest
    else
      match splitAtChar sep rest with
      | [] => [[c]]
      | piece :: pieces => (c :: piece) :: pieces

/-- Pieces with a separator character between each two. -/
def joinWithChar (sep : Char) : List (List Char) → List Char
  | [] => []
  | [piece] => piece
  | piece :: next :: pieces => piece ++ sep :: joinWithChar sep (next :: pieces)

theorem splitAtChar_ne_nil (sep : Char) (s : List Char) : splitAtChar sep s ≠ [] := by
  cases s with
  | nil => simp [splitAtChar]
  | cons c rest =>
    simp only [splitAtChar]
    split
    · simp
    · split <;> simp

theorem joinWithChar_splitAtChar (sep : Char) (s : List Char) :
    joinWithChar sep (splitAtChar sep s) = s := by
  induction s with
  | nil => rfl
  | cons c rest ih =>
    have hne := splitAtChar_ne_nil sep rest
    by_cases h : c = sep
    · subst h
      cases hs : splitAtChar c rest with
      | nil => exact absurd hs hne
      | cons piece pieces =>
        rw [hs] at ih
        simp [splitAtChar, hs, joinWithChar, ih]
    · cases hs : splitAtChar sep rest with
      | nil => exact absurd hs hne
      | cons piece pieces =>
        rw [hs] at ih
        cases pieces with
        | nil => simpa [splitAtChar, h, hs, joinWithChar] using ih
        | cons next more => simpa [splitAtChar, h, hs, joinWithChar] using ih

/-- The names of a comma-separated list: trimmed, and empty ones dropped. -/
def commaNames (s : String) : List String :=
  ((splitAtChar ',' s.toList).map trim).filter (!·.isEmpty) |>.map String.ofList

/-- Strings with a separator between each two. -/
def joinStrings (sep : String) (parts : List String) : String := sep.intercalate parts

end LexLint
