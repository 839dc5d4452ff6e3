import LexLint.Options
import LexLint.Proofs.Text.Numeral
import Mathlib.Data.List.Nodup

/-!
# Which configurations are accepted

An option takes some values and no others (`OptionKey.Takes`). Options are refused exactly for a
value of the environment or an override that its option does not take, or for an override of no
option; otherwise overrides come before the environment, and the environment before the defaults.
What is refused is an error of the configuration, unless the first override at fault has a number
that is no whole number at all or cannot be written out, which is a failure of its own
(`load_accepts_what_options_take`).
-/

namespace LexLint

/-! ### What an option takes -/

/-- The boolean that a value stands for: itself, or a text by whether it is a word for false. -/
inductive StandsForBoolean : Json → Bool → Prop
  | bool (b : Bool) : StandsForBoolean (.bool b) b
  | falseText {s : String} (word : (trimString s).toLower ∈ falseWords) :
    StandsForBoolean (.str s) false
  | trueText {s : String} (word : (trimString s).toLower ∉ falseWords) :
    StandsForBoolean (.str s) true

/-- The count that a value stands for: a number that is not negative, without its fraction. -/
inductive StandsForCount : Json → Nat → Prop
  | bool (b : Bool) : StandsForCount (.bool b) b.toNat
  | int (n : Nat) : StandsForCount (.int n) n
  | real {x : Binary64} {n : Nat} (whole : x.truncate? = some n) : StandsForCount (.real x) n
  | text {s : String} {n : Nat} (number : IntegerText s.toList n) : StandsForCount (.str s) n

/-- The names that a value stands for. -/
inductive StandsForNames : Json → List String → Prop
  | text (s : String) : StandsForNames (.str s) (commaNames s)
  | items {items : List Json} {names : List String}
    (texts : List.Forall₂ (fun item name => item.plain? = some name) items names) :
    StandsForNames (.arr items) names
  | keys (fields : List (String × Json)) : StandsForNames (.obj fields) (fields.map (·.1))

/-- An option takes a value, and makes another of it. -/
def OptionKey.Takes : (key : OptionKey) → Json → key.Value → Prop
  | .ignoreStrings => StandsForBoolean
  | .implicitNames => StandsForNames
  | .lookaheadLines => StandsForCount
  | .lookaheadChars => StandsForCount
  | .typeSpanLimit => StandsForCount

/-- An option can make something of a value. -/
def OptionKey.Accepts (key : OptionKey) (raw : Json) : Prop := ∃ value, key.Takes raw value

theorem boolean?_eq_some_iff {raw : Json} {b : Bool} :
    raw.boolean? = some b ↔ StandsForBoolean raw b := by
  constructor
  · intro read
    cases raw with
    | bool b' =>
      cases read
      exact .bool b
    | str s =>
      by_cases word : (trimString s).toLower ∈ falseWords
      · rw [Json.boolean?, booleanOfText, List.contains_iff_mem.2 word] at read
        cases read
        exact .falseText word
      · rw [Json.boolean?, booleanOfText, List.contains_eq_mem, decide_eq_false word] at read
        cases read
        exact .trueText word
    | _ => cases read
  · intro stands
    cases stands with
    | bool => rfl
    | falseText word => simp [Json.boolean?, booleanOfText, word]
    | trueText word => simp [Json.boolean?, booleanOfText, word]

theorem plainItems?_eq_some_iff {items : List Json} {names : List String} :
    Json.plainItems? items = some names ↔
      List.Forall₂ (fun item name => item.plain? = some name) items names := by
  induction items generalizing names with
  | nil => simp [Json.plainItems?, eq_comm]
  | cons item items ih =>
    rw [Json.plainItems?, List.forall₂_cons_left_iff]
    constructor
    · intro read
      obtain ⟨text, first, rest⟩ := Option.bind_eq_some_iff.1 read
      obtain ⟨others, later, rfl⟩ := Option.map_eq_some_iff.1 rest
      exact ⟨text, others, first, ih.1 later, rfl⟩
    · rintro ⟨text, others, first, later, rfl⟩
      rw [first, Option.bind_some, ih.2 later, Option.map_some]

theorem names?_eq_some_iff {raw : Json} {names : List String} :
    raw.names? = some names ↔ StandsForNames raw names := by
  constructor
  · intro read
    cases raw with
    | str s =>
      cases read
      exact .text s
    | arr items => exact .items (plainItems?_eq_some_iff.1 read)
    | obj fields =>
      cases read
      exact .keys fields
    | _ => cases read
  · intro stands
    cases stands with
    | text => rfl
    | items texts => exact plainItems?_eq_some_iff.2 texts
    | keys => rfl

theorem wholeNumber?_eq_some_iff {raw : Json} {n : Nat} :
    raw.wholeNumber? = some (n : Int) ↔ StandsForCount raw n := by
  constructor
  · intro read
    cases raw with
    | bool b =>
      have same : n = b.toNat := by
        have value := Option.some.inj read
        cases b <;> simp at value <;> simp <;> omega
      rw [same]
      exact .bool b
    | int m =>
      cases read
      exact .int n
    | real x => exact .real read
    | str s => exact .text (integer?_eq_some_iff.1 read)
    | _ => cases read
  · intro stands
    cases stands with
    | bool b => cases b <;> rfl
    | int => rfl
    | real whole => exact whole
    | text number => exact integer?_eq_some_iff.2 number

theorem readCount_eq_ok_iff {name : String} {raw : Json} {n : Nat} :
    readCount name raw = .ok n ↔ StandsForCount raw n := by
  rw [← wholeNumber?_eq_some_iff]
  unfold readCount
  split
  · constructor <;> intro h <;> cases h
  · cases whole : raw.wholeNumber? with
    | none => constructor <;> intro h <;> cases h
    | some m =>
      by_cases negative : m < 0
      · simp only [negative, if_true, Option.some.injEq, reduceCtorEq, false_iff]
        omega
      · simp only [negative, if_false, Except.ok.injEq, Option.some.injEq]
        omega

/-- What an option reads is what it takes. -/
theorem OptionKey.read_eq_ok_iff {key : OptionKey} {raw : Json} {value : key.Value} :
    key.read raw = .ok value ↔ key.Takes raw value := by
  cases key with
  | ignoreStrings =>
    change _ ↔ StandsForBoolean raw value
    rw [← boolean?_eq_some_iff, read]
    cases raw.boolean? <;> simp
  | implicitNames =>
    change _ ↔ StandsForNames raw value
    rw [← names?_eq_some_iff, read]
    cases raw.names? <;> simp
  | lookaheadLines => exact readCount_eq_ok_iff
  | lookaheadChars => exact readCount_eq_ok_iff
  | typeSpanLimit => exact readCount_eq_ok_iff

theorem OptionKey.Takes.unique {key : OptionKey} {raw : Json} {a b : key.Value}
    (ha : key.Takes raw a) (hb : key.Takes raw b) : a = b := by
  rw [← read_eq_ok_iff] at ha hb
  exact Except.ok.inj (ha.symm.trans hb)

/-- An option takes its own values as they are written. -/
theorem OptionKey.takes_toJson (key : OptionKey) (value : key.Value) :
    key.Takes (key.toJson value) value := by
  cases key with
  | ignoreStrings => exact .bool value
  | implicitNames =>
    apply StandsForNames.items
    rw [List.forall₂_map_left_iff]
    exact List.forall₂_same.2 fun name _ => rfl
  | lookaheadLines => exact .int value
  | lookaheadChars => exact .int value
  | typeSpanLimit => exact .int value

theorem OptionKey.exists_read_error_iff {key : OptionKey} {raw : Json} :
    (∃ e, key.read raw = .error e) ↔ ¬ key.Accepts raw := by
  unfold Accepts
  simp only [← read_eq_ok_iff]
  cases key.read raw <;> simp

/-! ### Values that cannot be complained about -/

mutual

/-- The whole numbers anywhere in a value. -/
def Json.numbers : Json → List Int
  | .int n => [n]
  | .arr items => Json.numbersOfItems items
  | .obj fields => Json.numbersOfFields fields
  | _ => []

def Json.numbersOfItems : List Json → List Int
  | [] => []
  | item :: items => item.numbers ++ Json.numbersOfItems items

def Json.numbersOfFields : List (String × Json) → List Int
  | [] => []
  | (_, value) :: fields => value.numbers ++ Json.numbersOfFields fields

end

theorem integerText?_eq_none_iff {n : Int} : integerText? n = none ↔ ¬ HasShortText n := by
  rw [integerText?]
  split <;> simp_all

mutual

/-- A value cannot be quoted if there is a number in it that cannot be written out. -/
theorem quote?_eq_none_iff (value : Json) :
    value.quote? = none ↔ ∃ n ∈ value.numbers, ¬ HasShortText n := by
  cases value with
  | int n => simp [Json.quote?, Json.numbers, integerText?_eq_none_iff]
  | arr items => simp [Json.quote?, Json.numbers, quoteItems?_eq_none_iff items]
  | obj fields => simp [Json.quote?, Json.numbers, quoteFields?_eq_none_iff fields]
  | _ => simp [Json.quote?, Json.numbers]

theorem quoteItems?_eq_none_iff (items : List Json) :
    Json.quoteItems? items = none ↔ ∃ n ∈ Json.numbersOfItems items, ¬ HasShortText n := by
  cases items with
  | nil => simp [Json.quoteItems?, Json.numbersOfItems]
  | cons item items =>
    have first := quote?_eq_none_iff item
    have others := quoteItems?_eq_none_iff items
    simp only [Json.quoteItems?, Json.numbersOfItems, List.mem_append, or_and_right, exists_or,
      ← first, ← others]
    cases item.quote? <;> simp

theorem quoteFields?_eq_none_iff (fields : List (String × Json)) :
    Json.quoteFields? fields = none ↔ ∃ n ∈ Json.numbersOfFields fields, ¬ HasShortText n := by
  match fields with
  | [] => simp [Json.quoteFields?, Json.numbersOfFields]
  | (key, value) :: fields =>
    have first := quote?_eq_none_iff value
    have others := quoteFields?_eq_none_iff fields
    simp only [Json.quoteFields?, Json.numbersOfFields, List.mem_append, or_and_right, exists_or,
      ← first, ← others]
    cases value.quote? <;> simp

end

/-- The options whose values are counts. -/
def OptionKey.Counts (key : OptionKey) : Prop := key ≠ .ignoreStrings ∧ key ≠ .implicitNames

/-- An option does not take a value, and there is no error that says so, for a fault with a
number: the value is an infinity where a count is wanted, or what the error would quote cannot be
written out. -/
inductive OptionKey.Escapes (key : OptionKey) (raw : Json) : NumberFault → Prop
  | infinite {negative : Bool} (counts : key.Counts) (given : raw = .real (.infinite negative)) :
    Escapes key raw .infinite
  | quoted {n : Int} (refused : ¬ key.Accepts raw) (within : n ∈ raw.numbers)
    (long : ¬ HasShortText n) : Escapes key raw .tooLong
  | negative {n : Int} (counts : key.Counts) (stands : raw.wholeNumber? = some n) (below : n < 0)
    (long : ¬ HasShortText n) : Escapes key raw .tooLong

theorem OptionFailure.quoting_eq_number_iff {error : String → ConfigError} {value : Json}
    {fault : NumberFault} :
    quoting error value = .number fault ↔
      fault = .tooLong ∧ ∃ n ∈ value.numbers, ¬ HasShortText n := by
  rw [← quote?_eq_none_iff, quoting]
  cases value.quote? <;> simp [eq_comm]

/-- A count is not read for a fault with a number where there is an infinity, no number at all, or a
negative one. -/
theorem readCount_eq_number_iff {name : String} {raw : Json} {fault : NumberFault} :
    readCount name raw = .error (.number fault) ↔
      ((∃ negative, raw = .real (.infinite negative)) ∧ fault = .infinite) ∨
      (fault = .tooLong ∧ raw.wholeNumber? = none ∧ ∃ n ∈ raw.numbers, ¬ HasShortText n) ∨
      (fault = .tooLong ∧ ∃ n, raw.wholeNumber? = some n ∧ n < 0 ∧ ¬ HasShortText n) := by
  unfold readCount
  split
  · rename_i negative
    simp [Json.wholeNumber?, Binary64.truncate?, Json.numbers, eq_comm]
  · rename_i infinite
    have finite : ¬ ∃ negative, raw = .real (.infinite negative) :=
      fun ⟨negative, given⟩ => infinite negative given
    cases whole : raw.wholeNumber? with
    | none => simp [finite, OptionFailure.quoting_eq_number_iff]
    | some n =>
      by_cases below : n < 0
      · simp [finite, below, OptionFailure.quoting_eq_number_iff, Json.numbers]
      · simp [finite, below]

namespace OptionKey

variable {key : OptionKey} {raw : Json} {fault : NumberFault}

theorem accepts_iff_of_counts (counts : key.Counts) :
    key.Accepts raw ↔ ∃ n : Nat, raw.wholeNumber? = some (n : Int) := by
  simp only [wholeNumber?_eq_some_iff]
  cases key with
  | ignoreStrings => exact absurd rfl counts.1
  | implicitNames => exact absurd rfl counts.2
  | _ => rfl

theorem escapes_iff_of_counts (counts : key.Counts) :
    key.Escapes raw fault ↔
      ((∃ negative, raw = .real (.infinite negative)) ∧ fault = .infinite) ∨
      (fault = .tooLong ∧ raw.wholeNumber? = none ∧ ∃ n ∈ raw.numbers, ¬ HasShortText n) ∨
      (fault = .tooLong ∧ ∃ n, raw.wholeNumber? = some n ∧ n < 0 ∧ ¬ HasShortText n) := by
  constructor
  · intro escapes
    cases escapes with
    | infinite _ given => exact .inl ⟨⟨_, given⟩, rfl⟩
    | @quoted n refused within long =>
      rw [accepts_iff_of_counts counts] at refused
      cases raw with
      | int m =>
        obtain rfl := List.mem_singleton.1 within
        refine .inr (.inr ⟨rfl, n, rfl, ?_, long⟩)
        by_contra notBelow
        exact refused ⟨n.toNat, congrArg some (Int.toNat_of_nonneg (Int.not_lt.1 notBelow)).symm⟩
      | arr items => exact .inr (.inl ⟨rfl, rfl, n, within, long⟩)
      | obj fields => exact .inr (.inl ⟨rfl, rfl, n, within, long⟩)
      | _ => cases within
    | negative _ stands below long => exact .inr (.inr ⟨rfl, _, stands, below, long⟩)
  · rintro (⟨⟨negative, given⟩, rfl⟩ | ⟨rfl, none, n, within, long⟩ | ⟨rfl, n, stands, below, long⟩)
    · exact .infinite counts given
    · refine .quoted ?_ within long
      rw [accepts_iff_of_counts counts, none]
      rintro ⟨n, same⟩
      cases same
    · exact .negative counts stands below long

/-- For an option that does not take counts, only what is quoted can be at fault. -/
theorem escapes_iff_of_not_counts (other : ¬ key.Counts) :
    key.Escapes raw fault ↔
      fault = .tooLong ∧ ¬ key.Accepts raw ∧ ∃ n ∈ raw.numbers, ¬ HasShortText n := by
  constructor
  · intro escapes
    cases escapes with
    | infinite counts => exact absurd counts other
    | quoted refused within long => exact ⟨rfl, refused, _, within, long⟩
    | negative counts => exact absurd counts other
  · rintro ⟨rfl, refused, n, within, long⟩
    exact .quoted refused within long

/-- The values for which the reading fails with a number, and not with an error, are those that
escape. -/
theorem read_eq_number_iff : key.read raw = .error (.number fault) ↔ key.Escapes raw fault := by
  cases key with
  | ignoreStrings =>
    rw [escapes_iff_of_not_counts fun counts => counts.1 rfl, Accepts]
    simp only [Takes, ← boolean?_eq_some_iff, read]
    cases raw.boolean? <;> simp [OptionFailure.quoting_eq_number_iff]
  | implicitNames =>
    rw [escapes_iff_of_not_counts fun counts => counts.2 rfl, Accepts]
    simp only [Takes, ← names?_eq_some_iff, read]
    cases raw.names? <;> simp [OptionFailure.quoting_eq_number_iff]
  | lookaheadLines =>
    exact readCount_eq_number_iff.trans (escapes_iff_of_counts ⟨by decide, by decide⟩).symm
  | lookaheadChars =>
    exact readCount_eq_number_iff.trans (escapes_iff_of_counts ⟨by decide, by decide⟩).symm
  | typeSpanLimit =>
    exact readCount_eq_number_iff.trans (escapes_iff_of_counts ⟨by decide, by decide⟩).symm

/-- A text has no number that could not be written out, neither in it nor as what it stands for. -/
theorem not_escapes_str (key : OptionKey) (s : String) (fault : NumberFault) :
    ¬ key.Escapes (.str s) fault := by
  intro escapes
  cases escapes with
  | infinite _ given => cases given
  | quoted _ within _ => cases within
  | negative _ stands _ long => exact long (hasShortText_of_integer? stands)

end OptionKey

/-! ### Settings -/

theorem OptionKey.mem_all (key : OptionKey) : key ∈ all := by
  cases key <;> decide

theorem OptionKey.ofText?_text (key : OptionKey) : ofText? key.text = some key := by
  cases key <;> decide +kernel

theorem OptionKey.text_injective {a b : OptionKey} (same : a.text = b.text) : a = b :=
  Option.some.inj (by rw [← ofText?_text a, same, ofText?_text b])

theorem OptionKey.ofText?_eq_some_iff {key : OptionKey} {name : String} :
    ofText? name = some key ↔ key.text = name := by
  constructor
  · intro found
    have same := List.find?_some found
    exact beq_iff_eq.1 same
  · rintro rfl
    exact key.ofText?_text

namespace Options

theorem ext_get {o o' : Options} (same : ∀ key, o.get key = o'.get key) : o = o' := by
  have ignoreStrings : o.ignoreStrings = o'.ignoreStrings := same .ignoreStrings
  have lookaheadLines : o.lookaheadLines = o'.lookaheadLines := same .lookaheadLines
  have lookaheadChars : o.lookaheadChars = o'.lookaheadChars := same .lookaheadChars
  have typeSpanLimit : o.typeSpanLimit = o'.typeSpanLimit := same .typeSpanLimit
  have implicitNames : o.implicitNames = o'.implicitNames := same .implicitNames
  cases o
  cases o'
  simp_all

theorem get_apply_of_notMem {key : OptionKey} {settings : List Setting}
    (other : key ∉ settings.map (·.key)) (o : Options) :
    (o.apply settings).get key = o.get key := by
  induction settings generalizing o with
  | nil => rfl
  | cons s settings ih =>
    rw [List.map_cons, List.mem_cons, not_or] at other
    exact (ih other.2 (o.set s.key s.value)).trans (get_set_of_ne o s.value other.1)

/-- A setting that is the only one of its option holds afterwards. -/
theorem get_apply_of_mem {s : Setting} {settings : List Setting} (member : s ∈ settings)
    (distinct : (settings.map (·.key)).Nodup) (o : Options) :
    (o.apply settings).get s.key = s.value := by
  induction settings generalizing o with
  | nil => cases member
  | cons first settings ih =>
    rw [List.map_cons, List.nodup_cons] at distinct
    rcases List.mem_cons.1 member with rfl | later
    · exact (get_apply_of_notMem distinct.1 (o.set s.key s.value)).trans
        (get_set_self o s.key s.value)
    · exact ih later distinct.2 (o.set first.key first.value)

end Options

/-! ### The environment -/

/-- Every variable of an option has a value that its option takes. -/
def Environment.Accepted (env : Environment) : Prop :=
  ∀ (key : OptionKey) (raw : String), env.get? key.environmentName = some raw →
    key.Accepts (.str raw)

/-- A setting is the one that the environment makes. -/
def Environment.Sets (env : Environment) (s : Setting) : Prop :=
  ∃ raw, env.get? s.key.environmentName = some raw ∧ s.key.Takes (.str raw) s.value

theorem Environment.accepted_nil : Environment.Accepted [] := by
  intro key raw value
  cases value

/-- The environment is refused for a value that its option does not read. -/
theorem exists_read_error_of_environment {env : Environment} {keys : List OptionKey}
    {settings : List Setting} {e : OptionFailure}
    (run : environmentSettings env keys = (settings, some e)) :
    ∃ key ∈ keys, ∃ raw, env.get? key.environmentName = some raw ∧
      key.read (.str raw) = .error e := by
  fun_induction environmentSettings env keys generalizing settings with
  | case1 => cases run
  | case2 key keys unset ih =>
    obtain ⟨key', member, wrong⟩ := ih run
    exact ⟨key', List.mem_cons_of_mem key member, wrong⟩
  | case3 key keys raw value e' read =>
    cases run
    exact ⟨key, List.mem_cons_self, raw, value, read⟩
  | case4 key keys raw value v read settings' error rest ih =>
    cases run
    obtain ⟨key', member, wrong⟩ := ih rest
    exact ⟨key', List.mem_cons_of_mem key member, wrong⟩

/-- An accepted environment makes one setting for each variable of an option, and no others. -/
theorem sets_of_environment {env : Environment} {keys : List OptionKey} {settings : List Setting}
    (run : environmentSettings env keys = (settings, none)) :
    (settings.map (·.key)).Sublist keys ∧ (∀ s ∈ settings, env.Sets s) ∧
      ∀ key ∈ keys, ∀ raw, env.get? key.environmentName = some raw →
        ∃ value, ⟨key, value⟩ ∈ settings := by
  fun_induction environmentSettings env keys generalizing settings with
  | case1 =>
    cases run
    exact ⟨List.Sublist.refl _, by simp, by simp⟩
  | case2 key keys unset ih =>
    obtain ⟨order, sets, complete⟩ := ih run
    refine ⟨order.cons key, sets, ?_⟩
    intro key' member raw value
    rcases List.mem_cons.1 member with rfl | later
    · rw [unset] at value
      cases value
    · exact complete key' later raw value
  | case3 key keys raw value e' read => cases run
  | case4 key keys raw value v read settings' error rest ih =>
    cases run
    obtain ⟨order, sets, complete⟩ := ih rest
    refine ⟨order.cons_cons key, ?_, ?_⟩
    · rw [List.forall_mem_cons]
      exact ⟨⟨raw, value, OptionKey.read_eq_ok_iff.1 read⟩, sets⟩
    · intro key' member raw' value'
      rcases List.mem_cons.1 member with rfl | later
      · exact ⟨v, List.mem_cons_self⟩
      · obtain ⟨v', made⟩ := complete key' later raw' value'
        exact ⟨v', List.mem_cons_of_mem _ made⟩

namespace Options

theorem exists_settings_of_ofEnvironment {env : Environment} {o : Options}
    (run : ofEnvironment env = .ok o) :
    ∃ settings, environmentSettings env OptionKey.all = (settings, none) ∧
      o = Options.apply {} settings := by
  unfold ofEnvironment at run
  split at run
  · rename_i settings made
    exact ⟨settings, made, (Except.ok.inj run).symm⟩
  · cases run

theorem exists_ofEnvironment_ok_iff {env : Environment} :
    (∃ o, ofEnvironment env = .ok o) ↔ env.Accepted := by
  constructor
  · rintro ⟨o, run⟩ key raw value
    obtain ⟨settings, made, -⟩ := exists_settings_of_ofEnvironment run
    obtain ⟨-, sets, complete⟩ := sets_of_environment made
    obtain ⟨v, member⟩ := complete key key.mem_all raw value
    obtain ⟨raw', value', takes⟩ := sets _ member
    rw [value] at value'
    cases value'
    exact ⟨v, takes⟩
  · intro accepted
    unfold ofEnvironment
    split
    · exact ⟨_, rfl⟩
    · rename_i refused
      obtain ⟨key, -, raw, value, read⟩ := exists_read_error_of_environment refused
      exact absurd (accepted key raw value) (OptionKey.exists_read_error_iff.1 ⟨_, read⟩)

/-- Under an accepted environment an option has the value of its variable, or else the default. -/
theorem get_of_ofEnvironment {env : Environment} {o : Options} (run : ofEnvironment env = .ok o)
    (key : OptionKey) :
    (∀ raw, env.get? key.environmentName = some raw → key.Takes (.str raw) (o.get key)) ∧
    (env.get? key.environmentName = none → o.get key = ({} : Options).get key) := by
  obtain ⟨settings, made, rfl⟩ := exists_settings_of_ofEnvironment run
  obtain ⟨order, sets, complete⟩ := sets_of_environment made
  have distinct : (settings.map (·.key)).Nodup := order.nodup (by decide)
  constructor
  · intro raw value
    obtain ⟨v, member⟩ := complete key key.mem_all raw value
    obtain ⟨raw', value', takes⟩ := sets _ member
    rw [value] at value'
    cases value'
    rwa [get_apply_of_mem member distinct]
  · intro unset
    apply get_apply_of_notMem
    intro member
    obtain ⟨s, hs, rfl⟩ := List.mem_map.1 member
    obtain ⟨raw, value, -⟩ := sets s hs
    rw [unset] at value
    cases value

/-- An environment is refused by an error of the configuration. -/
theorem exists_config_of_ofEnvironment {env : Environment} {failure : OptionFailure}
    (run : ofEnvironment env = .error failure) : ∃ e, failure = .config e := by
  unfold ofEnvironment at run
  split at run
  · cases run
  · rename_i settings e made
    cases run
    obtain ⟨key, -, raw, -, read⟩ := exists_read_error_of_environment made
    cases failure with
    | config e => exact ⟨e, rfl⟩
    | number fault => exact absurd (OptionKey.read_eq_number_iff.1 read) (key.not_escapes_str _ _)

/-! ### Overrides -/

/-- An override of some option, which takes it. -/
def Fits (p : String × Json) : Prop := ∃ key : OptionKey, key.text = p.1 ∧ key.Accepts p.2

/-- What an override that does not fit fails with: its option is unknown, or does not read it. -/
inductive Fails (p : String × Json) : OptionFailure → Prop
  | unknown (none : OptionKey.ofText? p.1 = none) :
    Fails p (.config (.unknownOption p.1 OptionKey.sortedNames))
  | refused {key : OptionKey} {e : OptionFailure} (named : key.text = p.1)
    (read : key.read p.2 = .error e) : Fails p e

theorem Fails.not_fits {p : String × Json} {e : OptionFailure} (h : Fails p e) : ¬ Fits p := by
  rintro ⟨key, same, accepts⟩
  cases h with
  | unknown none =>
    rw [← same, key.ofText?_text] at none
    cases none
  | refused named read =>
    obtain rfl := OptionKey.text_injective (same.trans named.symm)
    exact OptionKey.exists_read_error_iff.1 ⟨e, read⟩ accepts

/-- Overrides fail with the first of them that does not fit. -/
theorem override_eq_error_iff {overrides : List (String × Json)} {o : Options}
    {e : OptionFailure} :
    o.override overrides = .error e ↔
      ∃ before p after, overrides = before ++ p :: after ∧ (∀ q ∈ before, Fits q) ∧ Fails p e := by
  constructor
  · intro run
    fun_induction override o overrides with
    | case1 => cases run
    | case2 o name raw rest unknown =>
      cases run
      exact ⟨[], (name, raw), rest, rfl, by simp, .unknown unknown⟩
    | case3 o name raw rest key known e' read =>
      cases run
      exact ⟨[], (name, raw), rest, rfl, by simp,
        .refused (OptionKey.ofText?_eq_some_iff.1 known) read⟩
    | case4 o name raw rest key known value read ih =>
      obtain ⟨before, p, after, rfl, good, wrong⟩ := ih run
      refine ⟨(name, raw) :: before, p, after, rfl, List.forall_mem_cons.2 ⟨?_, good⟩, wrong⟩
      exact ⟨key, OptionKey.ofText?_eq_some_iff.1 known, value, OptionKey.read_eq_ok_iff.1 read⟩
  · rintro ⟨before, ⟨name, raw⟩, after, rfl, good, wrong⟩
    induction before generalizing o with
    | nil =>
      rw [List.nil_append, override]
      cases wrong with
      | unknown none => simp only [none]
      | refused named read =>
        obtain rfl := named
        simp only [OptionKey.ofText?_text, read]
    | cons q before ih =>
      rw [List.forall_mem_cons] at good
      obtain ⟨⟨key, same, value, takes⟩, good⟩ := good
      obtain ⟨name', raw'⟩ := q
      obtain rfl := same
      rw [List.cons_append, override]
      simp only [OptionKey.ofText?_text, OptionKey.read_eq_ok_iff.2 takes]
      exact ih good

/-- Accepted overrides make one setting each, in their order. -/
theorem exists_settings_of_override {overrides : List (String × Json)} {o o' : Options}
    (run : o.override overrides = .ok o') :
    ∃ settings, o' = o.apply settings ∧
      settings.map (·.key.text) = overrides.map (·.1) ∧
      ∀ key raw, (OptionKey.text key, raw) ∈ overrides →
        ∃ value, ⟨key, value⟩ ∈ settings ∧ key.Takes raw value := by
  fun_induction override o overrides with
  | case1 =>
    cases run
    exact ⟨[], rfl, rfl, by simp⟩
  | case2 o name raw rest unknown => cases run
  | case3 o name raw rest key known e read => cases run
  | case4 o name raw rest key known value read ih =>
    obtain ⟨settings, rfl, names, complete⟩ := ih run
    obtain rfl := OptionKey.ofText?_eq_some_iff.1 known
    refine ⟨⟨key, value⟩ :: settings, rfl, by rw [List.map_cons, names, List.map_cons], ?_⟩
    intro key' raw' member
    rcases List.mem_cons.1 member with first | later
    · obtain ⟨same, rfl⟩ := Prod.mk.inj first
      obtain rfl := OptionKey.text_injective same
      exact ⟨value, List.mem_cons_self, OptionKey.read_eq_ok_iff.1 read⟩
    · obtain ⟨value', made, takes⟩ := complete key' raw' later
      exact ⟨value', List.mem_cons_of_mem _ made, takes⟩

/-- Overrides win over the options before them, which are kept where nothing overrides them. -/
theorem get_of_override {overrides : List (String × Json)} {o o' : Options}
    (run : o.override overrides = .ok o') (distinct : (overrides.map (·.1)).Nodup)
    (key : OptionKey) :
    (∀ raw, (key.text, raw) ∈ overrides → key.Takes raw (o'.get key)) ∧
    (key.text ∉ overrides.map (·.1) → o'.get key = o.get key) := by
  obtain ⟨settings, rfl, names, complete⟩ := exists_settings_of_override run
  rw [← names] at distinct
  constructor
  · intro raw member
    obtain ⟨value, made, takes⟩ := complete key raw member
    have single : (settings.map (·.key)).Nodup := by
      apply List.Nodup.of_map OptionKey.text
      rwa [List.map_map]
    rwa [get_apply_of_mem made single]
  · intro free
    apply get_apply_of_notMem
    intro member
    obtain ⟨s, hs, rfl⟩ := List.mem_map.1 member
    exact free (names ▸ List.mem_map_of_mem hs)

theorem exists_override_ok_iff {overrides : List (String × Json)} {o : Options} :
    (∃ o', o.override overrides = .ok o') ↔ ∀ p ∈ overrides, Fits p := by
  constructor
  · rintro ⟨o', run⟩ ⟨name, raw⟩ member
    obtain ⟨settings, -, names, complete⟩ := exists_settings_of_override run
    have known : name ∈ settings.map (·.key.text) := names ▸ List.mem_map_of_mem member
    obtain ⟨s, -, rfl⟩ := List.mem_map.1 known
    obtain ⟨value, -, takes⟩ := complete s.key raw member
    exact ⟨s.key, rfl, value, takes⟩
  · intro good
    cases run : o.override overrides with
    | ok o' => exact ⟨o', rfl⟩
    | error e =>
      obtain ⟨before, p, after, rfl, -, wrong⟩ := override_eq_error_iff.1 run
      exact absurd (good p (by simp)) wrong.not_fits

/-! ### Loading -/

/-- Options as overrides, one for each option. -/
def asOverrides (o : Options) : List (String × Json) :=
  OptionKey.all.map fun key => (key.text, key.toJson (o.get key))

theorem exists_stage_of_load {overrides : List (String × Json)} {env : Environment}
    {o : Options} (run : load overrides env = .ok o) :
    ∃ base, ofEnvironment env = .ok base ∧ base.override overrides = .ok o := by
  unfold load at run
  split at run
  · cases run
  · rename_i base made
    exact ⟨base, made, run⟩

theorem exists_load_ok_iff {overrides : List (String × Json)} {env : Environment} :
    (∃ o, load overrides env = .ok o) ↔ env.Accepted ∧ ∀ p ∈ overrides, Fits p := by
  constructor
  · rintro ⟨o, run⟩
    obtain ⟨base, made, overridden⟩ := exists_stage_of_load run
    exact ⟨exists_ofEnvironment_ok_iff.1 ⟨base, made⟩, exists_override_ok_iff.1 ⟨o, overridden⟩⟩
  · rintro ⟨accepted, good⟩
    obtain ⟨base, made⟩ := exists_ofEnvironment_ok_iff.2 accepted
    obtain ⟨o, overridden⟩ := exists_override_ok_iff.2 good
    exact ⟨o, by rw [load, made]; exact overridden⟩

/-- The three reasons to refuse options. -/
inductive Refused (overrides : List (String × Json)) (env : Environment) : Prop
  /-- A variable has a value that its option does not take. An override does not help. -/
  | environment {key : OptionKey} {raw : String} (set : env.get? key.environmentName = some raw)
    (refuses : ¬ key.Accepts (.str raw))
  | unknownKey {p : String × Json} (given : p ∈ overrides)
    (unknown : ∀ key : OptionKey, key.text ≠ p.1)
  | override {key : OptionKey} {raw : Json} (given : (key.text, raw) ∈ overrides)
    (refuses : ¬ key.Accepts raw)

theorem exists_load_error_iff {overrides : List (String × Json)} {env : Environment} :
    (∃ e, load overrides env = .error e) ↔ Refused overrides env := by
  have refused : (∃ e, load overrides env = .error e) ↔ ¬ ∃ o, load overrides env = .ok o := by
    cases load overrides env <;> simp
  rw [refused, exists_load_ok_iff]
  constructor
  · intro wrong
    by_contra none
    apply wrong
    constructor
    · intro key raw value
      by_contra refuses
      exact none (.environment value refuses)
    · rintro ⟨name, raw⟩ member
      obtain ⟨key, rfl⟩ : ∃ key : OptionKey, key.text = name := by
        by_contra unknown
        exact none (.unknownKey member (not_exists.1 unknown))
      refine ⟨key, rfl, ?_⟩
      by_contra refuses
      exact none (.override member refuses)
  · rintro (⟨value, refuses⟩ | ⟨given, unknown⟩ | ⟨given, refuses⟩) ⟨accepted, good⟩
    · exact refuses (accepted _ _ value)
    · obtain ⟨key, same, -⟩ := good _ given
      exact unknown key same
    · obtain ⟨key, same, accepts⟩ := good _ given
      obtain rfl := OptionKey.text_injective same
      exact refuses accepts

/-- The first override that does not fit is one that no error can tell of. -/
def EscapesFirst (overrides : List (String × Json)) (fault : NumberFault) : Prop :=
  ∃ before key raw after, overrides = before ++ (OptionKey.text key, raw) :: after ∧
    (∀ p ∈ before, Fits p) ∧ key.Escapes raw fault

theorem load_eq_number_iff {overrides : List (String × Json)} {env : Environment}
    {fault : NumberFault} :
    load overrides env = .error (.number fault) ↔ env.Accepted ∧ EscapesFirst overrides fault := by
  cases made : ofEnvironment env with
  | error e =>
    obtain ⟨e', rfl⟩ := exists_config_of_ofEnvironment made
    have refused : ¬ env.Accepted := by
      rw [← exists_ofEnvironment_ok_iff, made]
      simp
    simp [load, made, refused]
  | ok base =>
    have accepted := exists_ofEnvironment_ok_iff.1 ⟨base, made⟩
    simp only [load, made, accepted, true_and, override_eq_error_iff]
    constructor
    · rintro ⟨before, ⟨name, raw⟩, after, rfl, good, wrong⟩
      cases wrong with
      | refused named read =>
        obtain rfl := named
        exact ⟨before, _, raw, after, rfl, good, OptionKey.read_eq_number_iff.1 read⟩
    · rintro ⟨before, key, raw, after, rfl, good, escapes⟩
      exact ⟨before, (key.text, raw), after, rfl, good,
        .refused rfl (OptionKey.read_eq_number_iff.2 escapes)⟩

/-- Options that are refused are so by an error of the configuration, or for a number. -/
theorem exists_load_config_iff {overrides : List (String × Json)} {env : Environment} :
    (∃ e, load overrides env = .error (.config e)) ↔
      Refused overrides env ∧ ¬ (env.Accepted ∧ ∃ fault, EscapesFirst overrides fault) := by
  simp only [← exists_load_error_iff, ← exists_and_left, ← load_eq_number_iff]
  cases load overrides env with
  | ok o => simp
  | error e => cases e <;> simp

/-- Overrides of all options leave nothing to the environment. -/
theorem load_asOverrides {env : Environment} (accepted : env.Accepted) (o : Options) :
    load o.asOverrides env = .ok o := by
  have good : ∀ p ∈ o.asOverrides, Fits p := by
    intro p hp
    obtain ⟨key, -, rfl⟩ := List.mem_map.1 hp
    exact ⟨key, rfl, _, key.takes_toJson (o.get key)⟩
  have distinct : (o.asOverrides.map (·.1)).Nodup := by
    show List.Nodup (OptionKey.all.map OptionKey.text)
    decide
  obtain ⟨o', run⟩ := exists_load_ok_iff.2 ⟨accepted, good⟩
  obtain ⟨base, -, overridden⟩ := exists_stage_of_load run
  have same : o' = o := by
    apply ext_get
    intro key
    have member : (key.text, key.toJson (o.get key)) ∈ o.asOverrides :=
      List.mem_map.2 ⟨key, key.mem_all, rfl⟩
    exact ((get_of_override overridden distinct key).1 _ member).unique
      (key.takes_toJson (o.get key))
  rw [run, same]

/-- Options are refused exactly for a value of the environment that its option does not take, also
where an override would replace it, for an override of no option, or for one that its option does
not take. The refusal is an error of the configuration, unless the environment is accepted and the
first override that does not fit escapes every error. Otherwise each option has the value of its
override, or else of the environment, or else the default; and these options, given as overrides,
come out as they are. -/
theorem load_accepts_what_options_take {overrides : List (String × Json)} {env : Environment}
    (distinct : (overrides.map (·.1)).Nodup) :
    ((∃ e, load overrides env = .error e) ↔ Refused overrides env) ∧
    ((∃ e, load overrides env = .error (.config e)) ↔
      Refused overrides env ∧ ¬ (env.Accepted ∧ ∃ fault, EscapesFirst overrides fault)) ∧
    (∀ fault, load overrides env = .error (.number fault) ↔
      env.Accepted ∧ EscapesFirst overrides fault) ∧
    ∀ o, load overrides env = .ok o →
      (∀ key : OptionKey,
        (∀ raw, (key.text, raw) ∈ overrides → key.Takes raw (o.get key)) ∧
        (key.text ∉ overrides.map (·.1) →
          (∀ raw, env.get? key.environmentName = some raw → key.Takes (.str raw) (o.get key)) ∧
          (env.get? key.environmentName = none → o.get key = ({} : Options).get key))) ∧
      ∀ env' : Environment, env'.Accepted → load o.asOverrides env' = .ok o := by
  refine ⟨exists_load_error_iff, exists_load_config_iff, fun fault => load_eq_number_iff, ?_⟩
  intro o run
  obtain ⟨base, made, overridden⟩ := exists_stage_of_load run
  refine ⟨?_, fun env' accepted => load_asOverrides accepted o⟩
  intro key
  obtain ⟨overrides_win, others_stay⟩ := get_of_override overridden distinct key
  refine ⟨overrides_win, ?_⟩
  intro free
  rw [others_stay free]
  exact get_of_ofEnvironment made key

/-- A text that is no number is refused by an error, although an override gives one; a number in its
place is overridden, and the options come out of themselves. -/
theorem load_accepts_what_options_take_shadowed :
    (∃ e, load [("type_span_limit", .int 5)] [("TESSERACT_LINT_TYPE_SPAN_LIMIT", "many")] =
      .error (.config e)) ∧
    ∃ o, load [("type_span_limit", .int 5)] [("TESSERACT_LINT_TYPE_SPAN_LIMIT", "40")] = .ok o ∧
      o.typeSpanLimit = 5 ∧ o.lookaheadLines = 3 ∧ load o.asOverrides [] = .ok o := by
  have distinct : (([("type_span_limit", .int 5)] : List (String × Json)).map (·.1)).Nodup := by
    simp
  obtain ⟨-, config, -, -⟩ := @load_accepts_what_options_take _
    [("TESSERACT_LINT_TYPE_SPAN_LIMIT", "many")] distinct
  obtain ⟨-, -, -, values⟩ := @load_accepts_what_options_take _
    [("TESSERACT_LINT_TYPE_SPAN_LIMIT", "40")] distinct
  constructor
  · have set : Environment.get? [("TESSERACT_LINT_TYPE_SPAN_LIMIT", "many")]
        (OptionKey.environmentName .typeSpanLimit) = some "many" := by decide +kernel
    have refuses : ¬ OptionKey.Accepts .typeSpanLimit (.str "many") := by
      rw [OptionKey.accepts_iff_of_counts ⟨by decide, by decide⟩]
      have none : (Json.str "many").wholeNumber? = none := by decide +kernel
      simp [none]
    exact config.2 ⟨.environment set refuses, fun ⟨accepted, _⟩ => refuses (accepted _ _ set)⟩
  · have run : load [("type_span_limit", .int 5)] [("TESSERACT_LINT_TYPE_SPAN_LIMIT", "40")] =
        .ok { typeSpanLimit := 5 } := by decide +kernel
    obtain ⟨byKey, again⟩ := values _ run
    refine ⟨_, run, ?_, ?_, again [] Environment.accepted_nil⟩
    · exact ((byKey .typeSpanLimit).1 (.int 5) (List.mem_singleton.2 rfl)).unique (.int 5)
    · exact ((byKey .lookaheadLines).2 (by decide)).2 (by decide +kernel)

/-- An override that escapes fails so by itself. -/
theorem load_singleton_of_escapes {key : OptionKey} {raw : Json} {fault : NumberFault}
    (escapes : key.Escapes raw fault) : load [(key.text, raw)] [] = .error (.number fault) :=
  load_eq_number_iff.2
    ⟨Environment.accepted_nil, [], key, raw, [], rfl, by simp, escapes⟩

theorem not_hasShortText {n : Nat} (long : Nat.pow 10 maxIntegerDigits ≤ n) :
    ¬ HasShortText n := by
  rw [HasShortText, Int.natAbs_natCast]
  exact Nat.not_lt.2 long

/-- A number below zero with too many digits is refused as a count, and not by an error. -/
theorem escapes_negative {key : OptionKey} (counts : key.Counts) {n : Nat} (positive : 0 < n)
    (long : ¬ HasShortText n) : key.Escapes (.int (-n)) .tooLong := by
  refine .negative counts rfl (Int.neg_neg_of_pos (Int.natCast_pos.2 positive)) ?_
  rwa [HasShortText, Int.natAbs_neg]

/-- A number with too many digits is no name, and no error says so. -/
theorem escapes_name {n : Int} (long : ¬ HasShortText n) :
    OptionKey.Escapes .implicitNames (.arr [.int n]) .tooLong := by
  refine .quoted ?_ (List.mem_singleton.2 rfl) long
  rintro ⟨names, items⟩
  cases items with
  | items texts =>
    obtain ⟨name, -, text, -⟩ := List.forall₂_cons_left_iff.1 texts
    have none := (quote?_eq_none_iff (.int n)).2 ⟨n, List.mem_singleton.2 rfl, long⟩
    exact absurd (none.symm.trans text) (by simp)

/-- A number with one digit too many is refused, but by no error of the configuration: neither below
zero, where a count is wanted, nor as a name. The same is true of an infinity. -/
theorem long_numbers_escape_configuration_errors :
    let long := Nat.pow 10 maxIntegerDigits
    (Refused [(OptionKey.text .typeSpanLimit, .int (-long))] [] ∧
      load [(OptionKey.text .typeSpanLimit, .int (-long))] [] = .error (.number .tooLong)) ∧
    (Refused [(OptionKey.text .implicitNames, .arr [.int long])] [] ∧
      load [(OptionKey.text .implicitNames, .arr [.int long])] [] = .error (.number .tooLong)) ∧
    Refused [(OptionKey.text .typeSpanLimit, .real (.infinite false))] [] ∧
      load [(OptionKey.text .typeSpanLimit, .real (.infinite false))] [] =
        .error (.number .infinite) := by
  intro long
  have refused {key : OptionKey} {raw : Json} {fault : NumberFault}
      (escapes : key.Escapes raw fault) : Refused [(key.text, raw)] [] ∧
        load [(key.text, raw)] [] = .error (.number fault) :=
    have run := load_singleton_of_escapes escapes
    ⟨exists_load_error_iff.1 ⟨_, run⟩, run⟩
  have tooLong : ¬ HasShortText (long : Nat) := not_hasShortText (Nat.le_refl long)
  have positive (n : Nat) : 0 < Nat.pow 10 n := Nat.pow_pos (by decide)
  exact ⟨refused (escapes_negative ⟨by decide, by decide⟩ (positive maxIntegerDigits) tooLong),
    refused (escapes_name tooLong), refused (.infinite ⟨by decide, by decide⟩ rfl)⟩

end Options

end LexLint
