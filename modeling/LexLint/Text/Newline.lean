/-!
Line ends of other systems.
-/

namespace LexLint

/-- The text with every return, alone or before a newline, made one newline. -/
def normalizeNewlines : List Char → List Char
  | [] => []
  | '\r' :: '\n' :: rest => '\n' :: normalizeNewlines rest
  | c :: rest => (if c = '\r' then '\n' else c) :: normalizeNewlines rest

end LexLint
