import LexLint.Scan.Match
import LexLint.Text.Blank
import LexLint.Text.WordChar

/-!
Headers of declarations: a variable with its assignment, a function with its parameter list, and
a class.
-/

namespace LexLint

/-- The text after at least one blank and all that follow it. -/
def afterBlanks? : List Char → Option (List Char)
  | [] => none
  | c :: rest => if isBlank c then some (trimStart rest) else none

/-- The keyword `let$`, a name and an assignment, `=` or `:=`. Captures the name. -/
def letHeader : Recogniser String := fun s => do
  let afterLet ← afterLiteral? ['l', 'e', 't', '$'] s
  let (name, afterName) ← identifier? (trimStart afterLet)
  match trimStart afterName with
  | '=' :: rest => some (String.ofList name, rest)
  | ':' :: '=' :: rest => some (String.ofList name, rest)
  | _ => none

/-- A function's name and the text of its parameter list. -/
structure FuncHeader where
  name : String
  params : List Char
  deriving Repr

/-- The keyword `func$`, a name and a parameter list up to the first closing bracket. -/
def funcHeader : Recogniser FuncHeader := fun s => do
  let afterFunc ← afterLiteral? ['f', 'u', 'n', 'c', '$'] s
  let (name, afterName) ← identifier? (← afterBlanks? afterFunc)
  match trimStart afterName with
  | '(' :: list =>
    match list.dropWhile (· != ')') with
    | ')' :: rest => some (⟨String.ofList name, list.takeWhile (· != ')')⟩, rest)
    | _ => none
  | _ => none

/-- The keyword `class$` and a name. Captures the name. -/
def classHeader : Recogniser String := fun s => do
  let afterClass ← afterLiteral? ['c', 'l', 'a', 's', 's', '$'] s
  let (name, rest) ← identifier? (← afterBlanks? afterClass)
  some (String.ofList name, rest)

/-- A declaration keyword with its marker and a name, whatever follows. Captures the name. -/
def declarationSite : Recogniser String := fun s => do
  let afterKeyword ←
    (afterLiteral? ['l', 'e', 't', '$'] s <|> afterLiteral? ['f', 'u', 'n', 'c', '$'] s) <|>
      afterLiteral? ['c', 'l', 'a', 's', 's', '$'] s
  let (name, rest) ← identifier? (trimStart afterKeyword)
  some (String.ofList name, rest)

/-- The first identifier in a text. -/
def firstIdentifier? : List Char → Option String
  | [] => none
  | c :: rest =>
    match identifier? (c :: rest) with
    | some (name, _) => some (String.ofList name)
    | none => firstIdentifier? rest

/-- A name and an opening bracket, with nothing but blanks between. -/
def callHead : Recogniser Unit := fun s => do
  let (_, afterName) ← identifier? s
  match trimStart afterName with
  | '(' :: rest => some ((), rest)
  | _ => none

end LexLint
