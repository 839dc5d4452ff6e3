import LexLint.ConfigError
import LexLint.Text.Integer

/-!
Options of a run. A value comes from the defaults, or from the environment, or from an explicit
override, the later winning; each is read as the kind of value that its option takes.
-/

namespace LexLint

inductive OptionKey where
  | ignoreStrings
  | lookaheadLines
  | lookaheadChars
  | typeSpanLimit
  | implicitNames
  deriving DecidableEq, Repr

namespace OptionKey

/-- All options, in the order in which the environment is read. -/
def all : List OptionKey :=
  [.ignoreStrings, .lookaheadLines, .lookaheadChars, .typeSpanLimit, .implicitNames]

def text : OptionKey → String
  | .ignoreStrings => "brackets_ignore_strings"
  | .lookaheadLines => "construct_lookahead_lines"
  | .lookaheadChars => "dict_lookahead_chars"
  | .typeSpanLimit => "type_span_limit"
  | .implicitNames => "implicit_names"

def ofText? (s : String) : Option OptionKey := all.find? (·.text == s)

/-- The environment variable that sets an option. -/
def environmentName (key : OptionKey) : String := "TESSERACT_LINT_" ++ key.text.toUpper

/-- What an option's values are. -/
@[reducible] def Value : OptionKey → Type
  | .ignoreStrings => Bool
  | .implicitNames => List String
  | _ => Nat

/-- The names of all options, sorted. -/
def sortedNames : List String := sortStrings (all.map text)

end OptionKey

/-- An option with a value. -/
structure Setting where
  key : OptionKey
  value : key.Value

/-- The value of every option. -/
structure Options where
  /-- Brackets inside strings and comments do not count. -/
  ignoreStrings : Bool := true
  /-- How many lines below a header may open its body. -/
  lookaheadLines : Nat := 3
  /-- How many characters after `dict` may hold its brace. -/
  lookaheadChars : Nat := 16
  /-- How far apart the brackets of a type may stand. -/
  typeSpanLimit : Nat := 32
  /-- Names that are always declared. -/
  implicitNames : List String := ["self", "args", "result"]
  deriving DecidableEq, Repr

namespace Options

def get (o : Options) : (key : OptionKey) → key.Value
  | .ignoreStrings => o.ignoreStrings
  | .lookaheadLines => o.lookaheadLines
  | .lookaheadChars => o.lookaheadChars
  | .typeSpanLimit => o.typeSpanLimit
  | .implicitNames => o.implicitNames

def set (o : Options) : (key : OptionKey) → key.Value → Options
  | .ignoreStrings, v => { o with ignoreStrings := v }
  | .lookaheadLines, v => { o with lookaheadLines := v }
  | .lookaheadChars, v => { o with lookaheadChars := v }
  | .typeSpanLimit, v => { o with typeSpanLimit := v }
  | .implicitNames, v => { o with implicitNames := v }

theorem get_set_self (o : Options) (key : OptionKey) (v : key.Value) :
    (o.set key v).get key = v := by
  cases key <;> rfl

theorem get_set_of_ne (o : Options) {key other : OptionKey} (v : key.Value) (h : other ≠ key) :
    (o.set key v).get other = o.get other := by
  cases key <;> cases other <;> first | rfl | exact absurd rfl h

end Options

/-- The words that a boolean option takes for false, in lower case. -/
def falseWords : List String := ["0", "false", "no", "off", ""]

/-- A text is false if it is one of the false words, whatever its case and the blanks around it.
Only ASCII letters have a lower-case form among the letters of these words. -/
def booleanOfText (s : String) : Bool := !falseWords.contains (trimString s).toLower

/-- The whole number that a value stands for. A fraction is cut off. -/
def Json.wholeNumber? : Json → Option Int
  | .bool b => some (if b then 1 else 0)
  | .int n => some n
  | .real x => x.truncate?
  | .str s => integer? s.toList
  | _ => none

/-- The boolean that a value stands for. -/
def Json.boolean? : Json → Option Bool
  | .bool b => some b
  | .str s => some (booleanOfText s)
  | _ => none

/-- The names that a value stands for: those of a comma-separated text, the texts of the items of
an array, if all have one, or the keys of an object. -/
def Json.names? : Json → Option (List String)
  | .str s => some (commaNames s)
  | .arr items => plainItems? items
  | .obj fields => some (fields.map (·.1))
  | _ => none

/-- A count read from a value. -/
def readCount (key : String) (raw : Json) : Except OptionFailure Nat :=
  match raw with
  | .real (.infinite _) => .error (.number .infinite)
  | _ =>
    match raw.wholeNumber? with
    | none => .error (.quoting (.expectedInteger key) raw)
    | some n => if n < 0 then .error (.quoting (.negative key) (.int n)) else .ok n.toNat

/-- The value of an option, read from a value of any kind. -/
def OptionKey.read : (key : OptionKey) → Json → Except OptionFailure key.Value
  | .ignoreStrings, raw =>
    match raw.boolean? with
    | some b => .ok b
    | none => .error (.quoting (.expectedBoolean (OptionKey.text .ignoreStrings)) raw)
  | .implicitNames, raw =>
    match raw.names? with
    | some names => .ok names
    | none => .error (.quoting (.expectedNames (OptionKey.text .implicitNames)) raw)
  | .lookaheadLines, raw => readCount (OptionKey.text .lookaheadLines) raw
  | .lookaheadChars, raw => readCount (OptionKey.text .lookaheadChars) raw
  | .typeSpanLimit, raw => readCount (OptionKey.text .typeSpanLimit) raw

/-- The variables of an environment with their values. -/
abbrev Environment := List (String × String)

def Environment.get? (env : Environment) (name : String) : Option String :=
  (env.find? (·.1 == name)).map (·.2)

/-- The settings that the environment makes, up to the first that cannot be read. -/
def environmentSettings (env : Environment) :
    List OptionKey → List Setting × Option OptionFailure
  | [] => ([], none)
  | key :: keys =>
    match env.get? key.environmentName with
    | none => environmentSettings env keys
    | some raw =>
      match key.read (.str raw) with
      | .error e => ([], some e)
      | .ok value =>
        let (settings, error) := environmentSettings env keys
        (⟨key, value⟩ :: settings, error)

namespace Options

def apply (o : Options) (settings : List Setting) : Options :=
  settings.foldl (fun o s => o.set s.key s.value) o

/-- The defaults with what the environment sets. -/
def ofEnvironment (env : Environment) : Except OptionFailure Options :=
  match environmentSettings env OptionKey.all with
  | (settings, none) => .ok (Options.apply {} settings)
  | (_, some e) => .error e

/-- Options with overrides, read in their order up to the first that is wrong. -/
def override (o : Options) : List (String × Json) → Except OptionFailure Options
  | [] => .ok o
  | (name, raw) :: rest =>
    match OptionKey.ofText? name with
    | none => .error (.config (.unknownOption name OptionKey.sortedNames))
    | some key =>
      match key.read raw with
      | .error e => .error e
      | .ok value => override (o.set key value) rest

/-- The options in force under an environment and overrides. -/
def load (overrides : List (String × Json)) (env : Environment) : Except OptionFailure Options :=
  match ofEnvironment env with
  | .error e => .error e
  | .ok o => o.override overrides

end Options

/-- A value of an option as JSON. -/
def OptionKey.toJson : (key : OptionKey) → key.Value → Json
  | .ignoreStrings, v => .bool v
  | .implicitNames, v => .arr (v.map .str)
  | .lookaheadLines, v => .nat v
  | .lookaheadChars, v => .nat v
  | .typeSpanLimit, v => .nat v

/-- A list of names in round brackets, as a log line quotes it. -/
def quoteNames : List String → String
  | [] => "()"
  | [name] => "(" ++ quoted name ++ ",)"
  | names => "(" ++ joinStrings ", " (names.map quoted) ++ ")"

/-- A setting's value as a log line quotes it. -/
def OptionKey.quoteValue : (key : OptionKey) → key.Value → String
  | .ignoreStrings, v => Json.quoteBoolean v
  | .implicitNames, v => quoteNames v
  | .lookaheadLines, v => toString (show Nat from v)
  | .lookaheadChars, v => toString (show Nat from v)
  | .typeSpanLimit, v => toString (show Nat from v)

/-- A setting's value as a listing shows it. -/
def OptionKey.showValue : (key : OptionKey) → key.Value → String
  | .implicitNames, v => joinStrings "," v
  | key, v => key.quoteValue v

/-- All options with a value each, sorted by name. -/
def Options.items (o : Options) : List Setting :=
  (OptionKey.all.mergeSort fun a b => decide (a.text ≤ b.text)).map fun key => ⟨key, o.get key⟩

end LexLint
