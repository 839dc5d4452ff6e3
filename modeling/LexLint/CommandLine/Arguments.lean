import LexLint.Text.DecimalDigit
import LexLint.Text.Quoted
import LexLint.Text.Split

/-!
Command-line arguments. Options begin with a dash; a long one may be shortened as long as it is
unambiguous, and its value may follow after `=`; short ones may be written together, the last
with its value. After `--` there are only operands. Operands stand together: those that come
after the first group has been taken are not recognised.

Arguments are first told apart into options and operands, all of them, and then acted upon from
left to right, so that asking for help has its effect before later mistakes.
-/

namespace LexLint.CommandLine

/-- The end of a program before it has done its work: its exit code and what it writes. -/
structure Halt where
  exit : Nat
  out : String := ""
  err : String := ""
  deriving DecidableEq, Repr

/-- What an option does to the settings. -/
inductive Effect (σ : Type) where
  | help
  | version
  | flag (apply : σ → σ)
  /-- Takes a value, which is one of the choices if there are any. -/
  | value (choices : List String) (apply : Option String → σ → σ)

/-- An option under all its names. -/
structure OptionSpec (σ : Type) where
  names : List String
  effect : Effect σ

def OptionSpec.takesValue {σ : Type} (o : OptionSpec σ) : Bool :=
  match o.effect with
  | .value .. => true
  | _ => false

/-- What the operands are. -/
inductive Operands (σ : Type) where
  | none
  /-- One or more, which have to be given. -/
  | oneOrMore (label : String) (apply : List String → σ → σ)
  | atMostOne (apply : String → σ → σ)
  /-- The name of a command, which takes all arguments after it. -/
  | command (label : String) (choices : List String)
      (apply : String → List String → σ → Except Halt σ)

/-- What becomes of the text `--` where it is attached to an option. Releases of the parser of
arguments differ in it. -/
inductive DashRule where
  /-- It marks an end there too, and the option is left without a value. -/
  | marksEnd
  /-- It is a value like any other. -/
  | isValue
  deriving DecidableEq, Repr

/-- How a program, or one of its commands, is called. -/
structure CallSpec (σ : Type) where
  dashes : DashRule
  program : String
  usage : String
  help : String
  version : String
  options : List (OptionSpec σ)
  operands : Operands σ

namespace CallSpec

variable {σ : Type}

/-- The end by a mistake in the call. -/
def mistake (spec : CallSpec σ) (message : String) : Halt :=
  { exit := 2, err := spec.usage ++ s!"{spec.program}: error: {message}\n" }

/-- All names of options, each with its option. -/
def optionNames (spec : CallSpec σ) : List (String × OptionSpec σ) :=
  spec.options.flatMap fun o => o.names.map fun n => (n, o)

def option? (spec : CallSpec σ) (name : String) : Option (OptionSpec σ) :=
  (spec.optionNames.find? (·.1 == name)).map (·.2)

end CallSpec

/-- The mistake in an argument, under the name of what it was for. -/
def argumentMessage (label message : String) : String := s!"argument {label}: {message}"

def OptionSpec.label {σ : Type} (o : OptionSpec σ) : String := joinStrings "/" o.names

def choiceMessage (value : String) (choices : List String) : String :=
  s!"invalid choice: {quoted value} (choose from " ++ joinStrings ", " (choices.map quoted) ++ ")"

def ignoredMessage (text : String) : String := "ignored explicit argument " ++ quoted text

/-- An option as found in an argument. -/
structure Found (σ : Type) where
  option : OptionSpec σ
  name : String
  /-- The rest of the argument, after the option and an equals sign. -/
  attached : Option String

/-- What an argument is. -/
inductive Token (σ : Type) where
  | operand (text : String)
  | separator
  /-- An option, known or not. -/
  | option (text : String) (found : Option (Found σ))

namespace Token

variable {σ : Type}

def isOption : Token σ → Bool
  | .option .. => true
  | _ => false

/-- The argument as it was given. -/
def text : Token σ → String
  | .operand t => t
  | .separator => "--"
  | .option t _ => t

end Token

/-- The text before the first equals sign, and the text after it if there is one. -/
def cutAtEquals (s : List Char) : String × Option String :=
  let before := s.takeWhile (· != '=')
  match s.dropWhile (· != '=') with
  | _ :: after => (String.ofList before, some (String.ofList after))
  | [] => (String.ofList before, none)

/-- A dash and a decimal number, which is an operand. A newline may follow it. -/
def isNegativeNumber (s : List Char) : Bool :=
  let isDigit := fun c => (digitValue? c).isSome
  match s with
  | '-' :: body =>
    let number := if body.getLast? = some '\n' then body.dropLast else body
    let whole := number.takeWhile isDigit
    match number.dropWhile isDigit with
    | [] => !whole.isEmpty
    | '.' :: fraction => !fraction.isEmpty && fraction.all isDigit
    | _ => false
  | _ => false

namespace CallSpec

variable {σ : Type}

/-- The options that an argument can stand for: a long one by a beginning of its name, a short one
by its letter with the rest as its value. -/
def candidates (spec : CallSpec σ) (arg : List Char) : List (Found σ) :=
  match arg with
  | '-' :: '-' :: _ =>
    let (start, value) := cutAtEquals arg
    (spec.optionNames.filter fun (n, _) => start.toList.isPrefixOf n.toList).map fun (n, o) =>
      ⟨o, n, value⟩
  | '-' :: c :: rest =>
    spec.optionNames.filterMap fun (n, o) =>
      if n.toList = ['-', c] then some ⟨o, n, some (String.ofList rest)⟩
      else if arg.isPrefixOf n.toList then some ⟨o, n, none⟩
      else none
  | _ => []

/-- Tells an argument before any `--` apart. -/
def classify (spec : CallSpec σ) (arg : String) : Except Halt (Token σ) :=
  let chars := arg.toList
  if chars.head? ≠ some '-' then .ok (.operand arg)
  else
    match spec.option? arg with
    | some o => .ok (.option arg (some ⟨o, arg, none⟩))
    | none =>
      if chars.length = 1 then .ok (.operand arg)
      else
        let (name, value) := cutAtEquals chars
        match value, spec.option? name with
        | some v, some o => .ok (.option arg (some ⟨o, name, some v⟩))
        | _, _ =>
          match spec.candidates chars with
          | [found] => .ok (.option arg (some found))
          | [] =>
            if isNegativeNumber chars || chars.contains ' ' then .ok (.operand arg)
            else .ok (.option arg none)
          | many =>
            .error (spec.mistake (s!"ambiguous option: {arg} could match " ++
              joinStrings ", " (many.map (·.name))))

/-- Tells all arguments apart. -/
def classifyAll (spec : CallSpec σ) : List String → Except Halt (List (Token σ))
  | [] => .ok []
  | arg :: rest =>
    if arg = "--" then .ok (.separator :: rest.map .operand)
    else
      match spec.classify arg with
      | .error h => .error h
      | .ok token => (spec.classifyAll rest).map (token :: ·)

/-- What becomes of an attached value. -/
def attachedValue (spec : CallSpec σ) (text : String) : Option String :=
  if text = "--" ∧ spec.dashes = .marksEnd then none else some text

/-- Options written together in one argument, each with its value. -/
structure Bundle (σ : Type) where
  taken : List (OptionSpec σ × Option String) := []
  /-- The last option waits for its value in the next argument. -/
  waiting : Bool := false

/-- Takes the options of one argument apart, at most `fuel` of them. What is attached to a short
option without a value are further short options. -/
def unbundle (spec : CallSpec σ) : Nat → Found σ → Except Halt (Bundle σ)
  | 0, _ => .ok {}
  | fuel + 1, found =>
    let o := found.option
    match found.attached with
    | none => .ok { taken := [(o, none)], waiting := o.takesValue }
    | some text =>
      if o.takesValue then .ok { taken := [(o, spec.attachedValue text)] }
      else
        let ignored := spec.mistake (argumentMessage o.label (ignoredMessage text))
        match (found.name.toList.drop 1).head?, text.toList with
        | some '-', _ => .error ignored
        | _, [] => .error ignored
        | _, c :: rest =>
          let name := String.ofList ['-', c]
          match spec.option? name with
          | none => .error ignored
          | some next =>
            let attached := if rest.isEmpty then none else some (String.ofList rest)
            (spec.unbundle fuel ⟨next, name, attached⟩).map fun b =>
              { b with taken := (o, none) :: b.taken }

/-- Acts upon one option. A value that is missing is not one of the wrong ones. -/
def act (spec : CallSpec σ) (settings : σ) (o : OptionSpec σ) (value : Option String) :
    Except Halt σ :=
  match o.effect with
  | .help => .error { exit := 0, out := spec.help }
  | .version => .error { exit := 0, out := spec.version ++ "\n" }
  | .flag apply => .ok (apply settings)
  | .value choices apply =>
    match value with
    | none => .ok (apply none settings)
    | some v =>
      if choices.isEmpty || choices.contains v then .ok (apply (some v) settings)
      else .error (spec.mistake (argumentMessage o.label (choiceMessage v choices)))

/-- Acts upon options in order. -/
def actAll (spec : CallSpec σ) (settings : σ) :
    List (OptionSpec σ × Option String) → Except Halt σ
  | [] => .ok settings
  | (o, value) :: rest =>
    match spec.act settings o value with
    | .error h => .error h
    | .ok next => spec.actAll next rest

/-- A call that has been understood up to some argument. -/
structure Progress (σ : Type) where
  settings : σ
  /-- The operands have not been taken yet. -/
  expecting : Bool := true
  /-- Arguments that nothing recognises. -/
  unrecognised : List String := []

/-- Acts upon the option at the front of the tokens, and answers the tokens after it. -/
def takeOption (spec : CallSpec σ) (p : Progress σ) (text : String) (found : Option (Found σ))
    (rest : List (Token σ)) : Except Halt (Progress σ × List (Token σ)) :=
  match found with
  | none => .ok ({ p with unrecognised := p.unrecognised ++ [text] }, rest)
  | some found =>
    match spec.unbundle (text.length + 1) found with
    | .error h => .error h
    | .ok bundle =>
      if bundle.waiting then
        match bundle.taken.getLast?, rest with
        | some (o, _), .operand value :: after =>
          (spec.actAll p.settings (bundle.taken.dropLast ++ [(o, some value)])).map fun s =>
            ({ p with settings := s }, after)
        | some (o, _), _ =>
          .error (spec.mistake (argumentMessage o.label "expected one argument"))
        | none, _ => .ok (p, rest)
      else
        (spec.actAll p.settings bundle.taken).map fun s =>
          ({ p with settings := s }, rest)

/-- Texts without the first `--`. -/
def withoutSeparator (texts : List String) : List String := texts.erase "--"

/-- Takes the operands at the front of the tokens, and answers the tokens after them. -/
def takeOperands (spec : CallSpec σ) (p : Progress σ) (tokens : List (Token σ)) :
    Except Halt (Progress σ × List (Token σ)) :=
  let isSeparator := fun (t : Token σ) => match t with
    | .separator => true
    | _ => false
  let operandsOnly := tokens.takeWhile (!·.isOption)
  let hasOperand := ((tokens.dropWhile isSeparator).head?).any (!·.isOption)
  if !p.expecting then .ok (p, tokens)
  else
    match spec.operands with
    | .none => .ok (p, tokens)
    | .oneOrMore _ apply =>
      if hasOperand then
        let texts := withoutSeparator (operandsOnly.map Token.text)
        .ok ({ p with settings := apply texts p.settings, expecting := false },
          tokens.drop operandsOnly.length)
      else .ok (p, tokens)
    | .atMostOne apply =>
      let separators := tokens.takeWhile isSeparator
      let after := tokens.drop separators.length
      let operand := (after.takeWhile (!·.isOption)).take 1
      let trailing := (after.drop operand.length).takeWhile isSeparator
      let taken := separators ++ operand ++ trailing
      let settings := match withoutSeparator (taken.map Token.text) with
        | value :: _ => apply value p.settings
        | [] => p.settings
      .ok ({ p with settings := settings, expecting := false }, tokens.drop taken.length)
    | .command label choices apply =>
      if hasOperand then
        match tokens.map Token.text with
        | [] => .ok (p, tokens)
        | name :: arguments =>
          if choices.contains name then
            (apply name arguments p.settings).map fun s =>
              ({ p with settings := s, expecting := false }, [])
          else .error (spec.mistake (argumentMessage label (choiceMessage name choices)))
      else .ok (p, tokens)

/-- Acts upon all tokens, in at most `fuel` steps. -/
def proceed (spec : CallSpec σ) : Nat → Progress σ → List (Token σ) →
    Except Halt (Progress σ)
  | 0, p, _ => .ok p
  | fuel + 1, p, tokens =>
    if tokens.any Token.isOption then
      match tokens with
      | .option text found :: rest =>
        match spec.takeOption p text found rest with
        | .error h => .error h
        | .ok (next, after) => spec.proceed fuel next after
      | _ =>
        match spec.takeOperands p tokens with
        | .error h => .error h
        | .ok (next, after) =>
          if after.length < tokens.length then spec.proceed fuel next after
          else
            let strays := tokens.takeWhile (!·.isOption)
            spec.proceed fuel
              { next with unrecognised := next.unrecognised ++ strays.map Token.text }
              (tokens.drop strays.length)
    else
      (spec.takeOperands p tokens).map fun (next, after) =>
        { next with unrecognised := next.unrecognised ++ after.map Token.text }

/-- Understands the arguments of a call: the settings they make, and those that nothing
recognises. -/
def parse (spec : CallSpec σ) (settings : σ) (arguments : List String) :
    Except Halt (σ × List String) :=
  match spec.classifyAll arguments with
  | .error h => .error h
  | .ok tokens =>
    match spec.proceed (2 * tokens.length + 1) { settings := settings } tokens with
    | .error h => .error h
    | .ok p =>
      match spec.operands with
      | .oneOrMore label _ =>
        if p.expecting then
          .error (spec.mistake s!"the following arguments are required: {label}")
        else .ok (p.settings, p.unrecognised)
      | _ => .ok (p.settings, p.unrecognised)

end CallSpec

end LexLint.CommandLine
