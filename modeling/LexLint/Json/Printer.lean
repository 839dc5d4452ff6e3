import LexLint.Json.Basic

/-!
JSON text. It holds printable ASCII only: every other character of a string is escaped, those
above the basic plane by two escapes.
-/

namespace LexLint.Json

/-- The escape of a sixteen-bit unit. -/
def unitEscape (n : Nat) : List Char := ['\\', 'u'] ++ hexDigits 4 n

/-- One character inside a JSON string. -/
def stringChar (c : Char) : List Char :=
  if c = '"' then ['\\', '"']
  else if c = '\\' then ['\\', '\\']
  else if c = '\n' then ['\\', 'n']
  else if c = '\r' then ['\\', 'r']
  else if c = '\t' then ['\\', 't']
  else if c = '\x08' then ['\\', 'b']
  else if c = '\x0c' then ['\\', 'f']
  else if 0x20 ≤ c.toNat ∧ c.toNat < 0x7F then [c]
  else if c.toNat < 0x10000 then unitEscape c.toNat
  else
    let n := c.toNat - 0x10000
    unitEscape (0xD800 + n / 0x400) ++ unitEscape (0xDC00 + n % 0x400)

/-- A string in double quotes. -/
def stringText (s : String) : List Char :=
  '"' :: s.toList.flatMap stringChar ++ ['"']

/-- A whole number, however many digits it has. A message that quotes a number stops at
`maxIntegerDigits`; documents with longer numbers are taken to be printed all the same. -/
def intText (n : Int) : List Char := (toString n).toList

/-- Texts with a separator between each two. -/
def separated (sep : List Char) : List (List Char) → List Char
  | [] => []
  | [t] => t
  | t :: next :: rest => t ++ sep ++ separated sep (next :: rest)

/-- A floating-point number; one without digits goes by its name. -/
def realText : Binary64 → List Char
  | .infinite negative => (if negative then "-Infinity" else "Infinity").toList
  | .undefined => "NaN".toList
  | x => x.text.toList

mutual

/-- A value on one line. -/
def compact : Json → List Char
  | .null => "null".toList
  | .bool true => "true".toList
  | .bool false => "false".toList
  | .int n => intText n
  | .real x => realText x
  | .str s => stringText s
  | .arr items => ['['] ++ separated [',', ' '] (compactItems items) ++ [']']
  | .obj fields => ['\x7b'] ++ separated [',', ' '] (compactFields fields) ++ ['\x7d']

def compactItems : List Json → List (List Char)
  | [] => []
  | item :: items => item.compact :: compactItems items

def compactFields : List (String × Json) → List (List Char)
  | [] => []
  | (key, value) :: fields =>
    (stringText key ++ [':', ' '] ++ value.compact) :: compactFields fields

end

/-- A line break followed by an indent. -/
def newline (indent : Nat) : List Char := '\n' :: List.replicate indent ' '

mutual

/-- A value over several lines, each level indented by two more spaces. -/
def pretty (indent : Nat) : Json → List Char
  | .arr [] => ['[', ']']
  | .arr (item :: items) =>
    ['['] ++ newline (indent + 2) ++
      separated (',' :: newline (indent + 2)) (prettyItems (indent + 2) (item :: items)) ++
      newline indent ++ [']']
  | .obj [] => ['\x7b', '\x7d']
  | .obj (field :: fields) =>
    ['\x7b'] ++ newline (indent + 2) ++
      separated (',' :: newline (indent + 2)) (prettyFields (indent + 2) (field :: fields)) ++
      newline indent ++ ['\x7d']
  | v => v.compact

def prettyItems (indent : Nat) : List Json → List (List Char)
  | [] => []
  | item :: items => item.pretty indent :: prettyItems indent items

def prettyFields (indent : Nat) : List (String × Json) → List (List Char)
  | [] => []
  | (key, value) :: fields =>
    (stringText key ++ [':', ' '] ++ value.pretty indent) :: prettyFields indent fields

end

def line (v : Json) : String := String.ofList v.compact

def document (v : Json) : String := String.ofList (v.pretty 0)

end LexLint.Json
