import LexLint.Decimal.Shortest
import LexLint.Text.Integer
import LexLint.Text.Quoted
import LexLint.Text.Split

/-!
Values of the JSON data format. Whole numbers and fractional ones are told apart, and an object
keeps the order of its fields.
-/

namespace LexLint

inductive Json where
  | null
  | bool (b : Bool)
  | int (n : Int)
  | real (x : Binary64)
  | str (s : String)
  | arr (items : List Json)
  | obj (fields : List (String × Json))
  deriving Repr

namespace Json

/-- The value of an object's field. -/
def field? (key : String) : Json → Option Json
  | .obj fields => (fields.find? (·.1 == key)).map (·.2)
  | _ => none

/-- Fields with one more: a repeated key keeps its place and takes the later value. -/
def putField (key : String) (value : Json) : List (String × Json) → List (String × Json)
  | [] => [(key, value)]
  | (k, v) :: rest => if k = key then (k, value) :: rest else (k, v) :: putField key value rest

def nat (n : Nat) : Json := .int n

/-- A boolean as a message quotes it. -/
def quoteBoolean (b : Bool) : String := if b then "True" else "False"

mutual

/-- A value as a message quotes it, which takes that its whole numbers can be written out. -/
def quote? : Json → Option String
  | .null => some "None"
  | .bool b => some (quoteBoolean b)
  | .int n => integerText? n
  | .real x => some x.text
  | .str s => some (quoted s)
  | .arr items =>
    (quoteItems? items).map fun texts => "[" ++ joinStrings ", " texts ++ "]"
  | .obj fields =>
    (quoteFields? fields).map fun texts => "\x7b" ++ joinStrings ", " texts ++ "\x7d"

def quoteItems? : List Json → Option (List String)
  | [] => some []
  | item :: items => item.quote?.bind fun text => (quoteItems? items).map (text :: ·)

def quoteFields? : List (String × Json) → Option (List String)
  | [] => some []
  | (key, value) :: fields =>
    value.quote?.bind fun text => (quoteFields? fields).map ((quoted key ++ ": " ++ text) :: ·)

end

/-- A value as plain text: a string is itself, and all else is as quoted. -/
def plain? : Json → Option String
  | .str s => some s
  | v => v.quote?

/-- The plain texts of values, if all have one. -/
def plainItems? : List Json → Option (List String)
  | [] => some []
  | item :: items => item.plain?.bind fun text => (plainItems? items).map (text :: ·)

end Json

end LexLint
