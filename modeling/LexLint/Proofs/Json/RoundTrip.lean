import LexLint.Json.Printer
import LexLint.Json.Reader
import Mathlib.Data.List.Forall2

/-!
# JSON text reads back

`Written` says in which texts a value is written: blanks may stand after a comma, after a colon
and inside the brackets. The reader makes the value of every such text again (`parse?_written`):
every escape is undone, also the two of a character above the basic plane, and whole numbers keep
all their digits. Both layouts of the printer are such texts, the single line (`parse?_line`),
which is moreover printable ASCII (`isPrintable_compact`), and the indented document
(`parse?_document`). Fractional numbers are left out, and no key may come twice in an object.
-/

namespace LexLint.Json

/-- A character that is written as itself on every terminal. -/
def IsPrintable (c : Char) : Prop := 0x20 ≤ c.toNat ∧ c.toNat < 0x7F

instance (c : Char) : Decidable (IsPrintable c) := inferInstanceAs (Decidable (_ ∧ _))

/-! ### Strings -/

theorem hexDigits_four (n : Nat) :
    hexDigits 4 n = [hexDigit (n / 16 / 16 / 16 % 16), hexDigit (n / 16 / 16 % 16),
      hexDigit (n / 16 % 16), hexDigit (n % 16)] :=
  rfl

/-- The four digits of a unit stand for it. -/
theorem unit?_hexDigit {n : Nat} (h : n < 0x10000) :
    unit? (hexDigit (n / 16 / 16 / 16 % 16)) (hexDigit (n / 16 / 16 % 16))
      (hexDigit (n / 16 % 16)) (hexDigit (n % 16)) = some n := by
  have value (m : Nat) : hexValue? (hexDigit (m % 16)) = some (m % 16) :=
    hexValue?_hexDigit (Nat.mod_lt m (by decide))
  simp only [unit?, value, Option.bind_eq_bind, Option.bind_some]
  congr 1
  omega

theorem toNat_cases (c : Char) :
    c.toNat < 0xD800 ∨ (0xE000 ≤ c.toNat ∧ c.toNat < 0x110000) := by
  rcases c.valid with low | ⟨above, below⟩
  · exact .inl low
  · exact .inr ⟨above, below⟩

/-- A unit that is not the second of a pair. -/
theorem readString_unit {n : Nat} (h : n < 0x10000) (done rest : List Char) :
    readString none done (unitEscape n ++ rest) =
      if 0xD800 ≤ n ∧ n < 0xDC00 then readString (some n) done rest
      else if 0xDC00 ≤ n ∧ n < 0xE000 then none
      else readString none (Char.ofNat n :: done) rest := by
  rw [unitEscape, hexDigits_four, List.append_assoc]
  simp only [List.cons_append, List.nil_append]
  rw [readString.eq_def]
  simp only [unit?_hexDigit h]

/-- The second unit of a pair. -/
theorem readString_second {high n : Nat} (h : n < 0x10000) (done rest : List Char) :
    readString (some high) done (unitEscape n ++ rest) =
      if 0xDC00 ≤ n ∧ n < 0xE000 then
        readString none
          (Char.ofNat (0x10000 + (high - 0xD800) * 0x400 + (n - 0xDC00)) :: done) rest
      else none := by
  rw [unitEscape, hexDigits_four, List.append_assoc]
  simp only [List.cons_append, List.nil_append]
  rw [readString.eq_def]
  simp only [unit?_hexDigit h]

/-- The two escapes of a character above the basic plane. -/
theorem readString_pair {c : Char} (above : ¬ c.toNat < 0x10000) (done rest : List Char) :
    readString none done (unitEscape (0xD800 + (c.toNat - 0x10000) / 0x400) ++
        unitEscape (0xDC00 + (c.toNat - 0x10000) % 0x400) ++ rest) =
      readString none (c :: done) rest := by
  have valid := toNat_cases c
  have whole : 0x10000 + (0xD800 + (c.toNat - 0x10000) / 0x400 - 0xD800) * 0x400 +
      (0xDC00 + (c.toNat - 0x10000) % 0x400 - 0xDC00) = c.toNat := by
    omega
  rw [List.append_assoc, readString_unit (by omega), if_pos (by omega),
    readString_second (by omega), if_pos (by omega), whole, Char.ofNat_toNat]

/-- The ways to write a character: by a letter, as itself, or by one or two units. -/
theorem stringChar_cases (c : Char) :
    (∃ e, stringChar c = ['\\', e] ∧ shortEscape? e = some c ∧ IsPrintable e) ∨
    (stringChar c = [c] ∧ c ≠ '"' ∧ c ≠ '\\' ∧ IsPrintable c) ∨
    (stringChar c = unitEscape c.toNat ∧ c.toNat < 0x10000) ∨
    (stringChar c = unitEscape (0xD800 + (c.toNat - 0x10000) / 0x400) ++
      unitEscape (0xDC00 + (c.toNat - 0x10000) % 0x400) ∧ ¬ c.toNat < 0x10000) := by
  by_cases short : c ∈ ['"', '\\', '\n', '\r', '\t', '\x08', '\x0c']
  · simp only [List.mem_cons, List.not_mem_nil, or_false] at short
    left
    rcases short with rfl | rfl | rfl | rfl | rfl | rfl | rfl
    · exact ⟨'"', by decide⟩
    · exact ⟨'\\', by decide⟩
    · exact ⟨'n', by decide⟩
    · exact ⟨'r', by decide⟩
    · exact ⟨'t', by decide⟩
    · exact ⟨'b', by decide⟩
    · exact ⟨'f', by decide⟩
  · simp only [List.mem_cons, List.not_mem_nil, or_false, not_or] at short
    obtain ⟨quote, backslash, newline, return', tab, backspace, formFeed⟩ := short
    right
    simp only [stringChar, quote, backslash, newline, return', tab, backspace, formFeed, if_false]
    split
    · rename_i printable
      exact .inl ⟨rfl, quote, backslash, printable⟩
    split
    · rename_i basic
      exact .inr (.inl ⟨rfl, basic⟩)
    · rename_i above
      exact .inr (.inr ⟨rfl, above⟩)

/-- What is written for a character reads back as the character. -/
theorem readString_stringChar (c : Char) (done rest : List Char) :
    readString none done (stringChar c ++ rest) = readString none (c :: done) rest := by
  rcases stringChar_cases c with ⟨e, text, letter, -⟩ | ⟨text, quote, backslash, -⟩ |
    ⟨text, basic⟩ | ⟨text, above⟩
  · have no_unit : e ≠ 'u' := by
      rintro rfl
      cases letter
    rw [text, List.cons_append, List.singleton_append]
    simp [readString, no_unit, letter]
  · rw [text, List.singleton_append]
    simp [readString, backslash]
  · have valid := toNat_cases c
    rw [text, readString_unit basic, if_neg (by omega), if_neg (by omega), Char.ofNat_toNat]
  · rw [text]
    exact readString_pair above done rest

/-- A string reads back up to its closing quote. -/
theorem readString_flatMap (s done rest : List Char) :
    readString none done (s.flatMap stringChar ++ '"' :: rest) =
      some (String.ofList (done.reverse ++ s), rest) := by
  induction s generalizing done with
  | nil => simp [readString]
  | cons c s ih =>
    rw [List.flatMap_cons, List.append_assoc, readString_stringChar, ih, List.reverse_cons,
      List.append_assoc, List.singleton_append]

/-! ### Whole numbers -/

/-- What follows a whole number does not go on with it. -/
def EndsNumber (rest : List Char) : Prop :=
  ∀ c ∈ rest.head?, c.isDigit = false ∧ c ≠ '.' ∧ c ≠ 'e' ∧ c ≠ 'E'

theorem readDigits_toDigits (n : Nat) {rest : List Char} (ends : EndsNumber rest) :
    readDigits (Nat.toDigits 10 n ++ rest) = (Nat.toDigits 10 n, rest) := by
  have digits : ∀ c ∈ Nat.toDigits 10 n, c.isDigit = true := fun c hc =>
    Nat.isDigit_of_mem_toDigits (by decide) (by decide) hc
  have stops : rest.takeWhile Char.isDigit = [] ∧ rest.dropWhile Char.isDigit = rest := by
    cases rest with
    | nil => exact ⟨rfl, rfl⟩
    | cons c tail => simp [(ends c rfl).1]
  rw [readDigits, List.takeWhile_append_of_pos digits, List.dropWhile_append_of_pos digits,
    stops.1, stops.2, List.append_nil]

theorem digitsValue_toDigits (n : Nat) : digitsValue (Nat.toDigits 10 n) = n := by
  rw [digitsValue, ofDigitValues, List.foldl_map]
  exact Nat.ofDigitChars_toDigits (by decide) (by decide)

theorem readFraction_of_ends {rest : List Char} (ends : EndsNumber rest) :
    readFraction rest = ([], rest) := by
  unfold readFraction
  split
  · exact absurd rfl (ends '.' rfl).2.1
  · rfl

theorem readExponent_of_ends {rest : List Char} (ends : EndsNumber rest) :
    readExponent rest = (none, rest) := by
  cases rest with
  | nil => rfl
  | cons c tail =>
    obtain ⟨-, -, small, capital⟩ := ends c rfl
    simp [readExponent, small, capital]

theorem intText_natCast (n : Nat) : intText n = Nat.toDigits 10 n := by
  have text : toString (n : Int) = n.repr := rfl
  rw [intText, text, Nat.toList_repr]

theorem intText_negSucc (n : Nat) :
    intText (.negSucc n) = '-' :: Nat.toDigits 10 (n + 1) := by
  have text : toString (Int.negSucc n) = "-" ++ (n + 1).repr := rfl
  rw [intText, text, String.toList_append, Nat.toList_repr]
  rfl

/-- The digits of a number, of which there is a first. -/
theorem exists_toDigits_cons (n : Nat) :
    ∃ c tail, Nat.toDigits 10 n = c :: tail ∧ c.isDigit = true := by
  obtain ⟨c, tail, digits⟩ := List.exists_cons_of_ne_nil (Nat.toDigits_ne_nil (n := n) (b := 10))
  have first : c ∈ Nat.toDigits 10 n := digits ▸ List.mem_cons_self
  exact ⟨c, tail, digits, Nat.isDigit_of_mem_toDigits (by decide) (by decide) first⟩

/-- A number begins with its sign or with a digit. -/
theorem exists_intText_cons (n : Int) :
    ∃ c tail, intText n = c :: tail ∧ (c = '-' ∨ c.isDigit = true) := by
  cases n with
  | negSucc n => exact ⟨'-', _, intText_negSucc n, .inl rfl⟩
  | ofNat n =>
    obtain ⟨c, tail, digits, first⟩ := exists_toDigits_cons n
    exact ⟨c, tail, (intText_natCast n).trans digits, .inr first⟩

/-- A whole number keeps its sign and all its digits. -/
theorem readNumber_intText (n : Int) {rest : List Char} (ends : EndsNumber rest) :
    readNumber (intText n ++ rest) = some (.int n, rest) := by
  have nonempty (m : Nat) : (Nat.toDigits 10 m).isEmpty = false :=
    List.isEmpty_eq_false_iff.2 Nat.toDigits_ne_nil
  cases n with
  | negSucc n =>
    rw [intText_negSucc, List.cons_append, readNumber.eq_def]
    simp only [readDigits_toDigits _ ends, readFraction_of_ends ends, readExponent_of_ends ends,
      digitsValue_toDigits, nonempty, Bool.false_eq_true, reduceIte]
    rfl
  | ofNat n =>
    have unsigned (body : List Char) : Nat.toDigits 10 n ++ rest ≠ '-' :: body := by
      obtain ⟨c, tail, digits, first⟩ := exists_toDigits_cons n
      rw [digits]
      rintro ⟨⟩
      exact absurd first (by decide)
    rw [Int.ofNat_eq_natCast, intText_natCast, readNumber.eq_def]
    split
    rename_i sign
    split at sign
    · rename_i signed
      exact absurd signed (unsigned _)
    · cases sign
      simp only [readDigits_toDigits _ ends, readFraction_of_ends ends, readExponent_of_ends ends,
        digitsValue_toDigits, nonempty, Bool.false_eq_true, reduceIte]
      rfl

/-! ### Values -/

mutual

/-- A value without fractional numbers, in which no object has a key twice. -/
def Plain : Json → Prop
  | .real _ => False
  | .arr items => PlainItems items
  | .obj fields => (fields.map (·.1)).Nodup ∧ PlainFields fields
  | _ => True

def PlainItems : List Json → Prop
  | [] => True
  | item :: items => item.Plain ∧ PlainItems items

def PlainFields : List (String × Json) → Prop
  | [] => True
  | (_, value) :: fields => value.Plain ∧ PlainFields fields

end

/-- Blanks that may stand between the parts of a value. -/
def IsGap (s : List Char) : Prop := ∀ c ∈ s, c = ' ' ∨ c = '\n' ∨ c = '\r' ∨ c = '\t'

theorem isGap_nil : IsGap [] := by simp [IsGap]

theorem isGap_space : IsGap [' '] := by simp [IsGap]

theorem isGap_newline (indent : Nat) : IsGap (newline indent) := by
  rw [newline, IsGap, List.forall_mem_cons]
  exact ⟨.inr (.inl rfl), fun c hc => .inl (List.eq_of_mem_replicate hc)⟩

theorem skipBlanks_append {gap : List Char} (h : IsGap gap) (s : List Char) :
    skipBlanks (gap ++ s) = skipBlanks s := by
  apply List.dropWhile_append_of_pos
  intro c hc
  rcases h c hc with rfl | rfl | rfl | rfl <;> rfl

mutual

/-- A text in which a value is written, on one line or on several. -/
inductive Written : Json → List Char → Prop where
  | null : Written .null "null".toList
  | bool (b : Bool) : Written (.bool b) (Json.bool b).compact
  | int (n : Int) : Written (.int n) (intText n)
  | str (s : String) : Written (.str s) (stringText s)
  | noItems : Written (.arr []) ['[', ']']
  | arr {items : List Json} {gap body : List Char} (blank : IsGap gap)
      (parts : WrittenItems items body) : Written (.arr items) ('[' :: (gap ++ body) ++ [']'])
  | noFields : Written (.obj []) ['\x7b', '\x7d']
  | obj {fields : List (String × Json)} {gap body : List Char} (blank : IsGap gap)
      (distinct : (fields.map (·.1)).Nodup) (parts : WrittenFields fields body) :
      Written (.obj fields) ('\x7b' :: (gap ++ body) ++ ['\x7d'])

/-- A text of items, with commas between them. -/
inductive WrittenItems : List Json → List Char → Prop where
  | last {item : Json} {text gap : List Char} (value : Written item text) (blank : IsGap gap) :
      WrittenItems [item] (text ++ gap)
  | more {item : Json} {items : List Json} {text gap body : List Char}
      (value : Written item text) (blank : IsGap gap) (others : WrittenItems items body) :
      WrittenItems (item :: items) (text ++ ',' :: (gap ++ body))

/-- A text of fields, with commas between them. -/
inductive WrittenFields : List (String × Json) → List Char → Prop where
  | last {key : String} {item : Json} {inner text gap : List Char} (between : IsGap inner)
      (value : Written item text) (blank : IsGap gap) :
      WrittenFields [(key, item)] (stringText key ++ ':' :: (inner ++ (text ++ gap)))
  | more {key : String} {item : Json} {fields : List (String × Json)}
      {inner text gap body : List Char} (between : IsGap inner) (value : Written item text)
      (blank : IsGap gap) (others : WrittenFields fields body) :
      WrittenFields ((key, item) :: fields)
        (stringText key ++ ':' :: (inner ++ (text ++ ',' :: (gap ++ body))))

end

/-- A text begins with a character that is no blank and closes no array or object. -/
def BeginsValue (s : List Char) : Prop :=
  ∃ c tail, s = c :: tail ∧ c ∉ [' ', '\n', '\r', '\t', ']', '\x7d']

theorem BeginsValue.append {s : List Char} (h : BeginsValue s) (t : List Char) :
    BeginsValue (s ++ t) := by
  obtain ⟨c, tail, rfl, first⟩ := h
  exact ⟨c, tail ++ t, rfl, first⟩

theorem BeginsValue.skipBlanks_eq {s : List Char} (h : BeginsValue s) : skipBlanks s = s := by
  obtain ⟨c, tail, rfl, first⟩ := h
  simp only [List.mem_cons, List.not_mem_nil, or_false, not_or] at first
  simp [skipBlanks, first]

theorem BeginsValue.skipBlanks_gap {s gap : List Char} (h : BeginsValue s) (blank : IsGap gap) :
    skipBlanks (gap ++ s) = s := by
  rw [skipBlanks_append blank, h.skipBlanks_eq]

theorem beginsValue_intText (n : Int) : BeginsValue (intText n) := by
  obtain ⟨c, tail, text, rfl | digit⟩ := exists_intText_cons n
  · exact ⟨_, tail, text, by decide⟩
  · refine ⟨c, tail, text, ?_⟩
    intro blank
    simp only [List.mem_cons, List.not_mem_nil, or_false] at blank
    rcases blank with rfl | rfl | rfl | rfl | rfl | rfl <;> exact absurd digit (by decide)

theorem Written.beginsValue {v : Json} {text : List Char} (h : Written v text) :
    BeginsValue text := by
  cases h with
  | null => exact ⟨'n', _, rfl, by decide⟩
  | bool b => cases b <;> exact ⟨_, _, rfl, by decide⟩
  | int n => exact beginsValue_intText n
  | str s => exact ⟨'"', _, rfl, by decide⟩
  | noItems => exact ⟨'[', _, rfl, by decide⟩
  | arr => exact ⟨'[', _, rfl, by decide⟩
  | noFields => exact ⟨'\x7b', _, rfl, by decide⟩
  | obj => exact ⟨'\x7b', _, rfl, by decide⟩

theorem WrittenItems.beginsValue {items : List Json} {body : List Char}
    (h : WrittenItems items body) : BeginsValue body := by
  cases h with
  | last value => exact value.beginsValue.append _
  | more value => exact value.beginsValue.append _

theorem WrittenFields.beginsValue {fields : List (String × Json)} {body : List Char}
    (h : WrittenFields fields body) : BeginsValue body := by
  cases h with
  | last => exact ⟨'"', _, rfl, by decide⟩
  | more => exact ⟨'"', _, rfl, by decide⟩

theorem Written.length_pos {v : Json} {text : List Char} (h : Written v text) :
    0 < text.length := by
  obtain ⟨c, tail, rfl, -⟩ := h.beginsValue
  exact Nat.succ_pos _

/-- What follows a value in an array or an object: a comma or a closing bracket, perhaps behind
blanks. -/
theorem endsNumber_gap {gap : List Char} (blank : IsGap gap) {c : Char}
    (h : c = ',' ∨ c = ']' ∨ c = '\x7d') (tail : List Char) : EndsNumber (gap ++ c :: tail) := by
  intro d first
  cases gap with
  | nil =>
    obtain rfl := Option.some.inj first
    rcases h with rfl | rfl | rfl <;> decide
  | cons b rest =>
    obtain rfl := Option.some.inj first
    rcases blank b List.mem_cons_self with rfl | rfl | rfl | rfl <;> decide

/-- A number is what begins like one. -/
theorem readValue_intText {fuel : Nat} {s rest : List Char} {n : Int}
    (start : skipBlanks s = intText n ++ rest) (ends : EndsNumber rest) :
    readValue (fuel + 1) s = some (.int n, rest) := by
  obtain ⟨c, tail, text, first⟩ := exists_intText_cons n
  have letter : c ≠ 'n' ∧ c ≠ 't' ∧ c ≠ 'f' ∧ c ≠ 'N' ∧ c ≠ '"' ∧ c ≠ '[' ∧ c ≠ '\x7b' := by
    refine ⟨?_, ?_, ?_, ?_, ?_, ?_, ?_⟩ <;> rintro rfl <;> revert first <;> decide
  have number : readNumber (c :: (tail ++ rest)) = some (.int n, rest) := by
    rw [← List.cons_append, ← text]
    exact readNumber_intText n ends
  rw [readValue, start, text, List.cons_append]
  split <;> simp_all

/-- A key that is not there yet is added last. -/
theorem putField_of_notMem {key : String} {value : Json} {done : List (String × Json)}
    (new : key ∉ done.map (·.1)) : putField key value done = done ++ [(key, value)] := by
  induction done with
  | nil => rfl
  | cons field done ih =>
    obtain ⟨k, v⟩ := field
    rw [List.map_cons, List.mem_cons, not_or] at new
    rw [putField, if_neg (Ne.symm new.1), ih new.2, List.cons_append]

/-! One step of each reader, where the parts of the step read back. -/

theorem readValue_str {fuel : Nat} {s rest : List Char} {t : String}
    (start : skipBlanks s = stringText t ++ rest) :
    readValue (fuel + 1) s = some (.str t, rest) := by
  rw [readValue, start, stringText, List.cons_append, List.cons_append, List.append_assoc]
  simp only [List.singleton_append, readString_flatMap, List.reverse_nil, List.nil_append,
    String.ofList_toList, Option.map_some]

theorem readValue_arr {fuel : Nat} {s inside body rest : List Char} {items : List Json}
    (start : skipBlanks s = '[' :: inside) (first : skipBlanks inside = body)
    (begins : BeginsValue body) (parts : readItems fuel body = some (items, rest)) :
    readValue (fuel + 1) s = some (.arr items, rest) := by
  rw [readValue, start]
  simp only [first]
  obtain ⟨c, tail, rfl, opens⟩ := begins
  split
  · simp_all
  · rw [parts]
    rfl

theorem readValue_obj {fuel : Nat} {s inside body rest : List Char}
    {fields : List (String × Json)} (start : skipBlanks s = '\x7b' :: inside)
    (first : skipBlanks inside = body) (begins : BeginsValue body)
    (parts : readFields fuel [] body = some (fields, rest)) :
    readValue (fuel + 1) s = some (.obj fields, rest) := by
  rw [readValue, start]
  simp only [first]
  obtain ⟨c, tail, rfl, opens⟩ := begins
  split
  · simp_all
  · rw [parts]
    rfl

theorem readItems_last {fuel : Nat} {s after rest : List Char} {item : Json}
    (value : readValue fuel s = some (item, after)) (closes : skipBlanks after = ']' :: rest) :
    readItems (fuel + 1) s = some ([item], rest) := by
  rw [readItems, value]
  simp only [closes]

theorem readItems_more {fuel : Nat} {s body rest : List Char} {item : Json} {items : List Json}
    (value : readValue fuel s = some (item, ',' :: body))
    (others : readItems fuel body = some (items, rest)) :
    readItems (fuel + 1) s = some (item :: items, rest) := by
  rw [readItems, value]
  show (readItems fuel body).map _ = _
  rw [others]
  rfl

theorem readFields_last {fuel : Nat} {done : List (String × Json)}
    {s body after rest : List Char} {key : String} {value : Json}
    (start : skipBlanks s = stringText key ++ ':' :: body)
    (parts : readValue fuel body = some (value, after))
    (closes : skipBlanks after = '\x7d' :: rest) :
    readFields (fuel + 1) done s = some (putField key value done, rest) := by
  have colon : skipBlanks (':' :: body) = ':' :: body := rfl
  rw [readFields, start, stringText, List.cons_append, List.cons_append, List.append_assoc]
  simp only [List.singleton_append, readString_flatMap, List.reverse_nil, List.nil_append,
    String.ofList_toList, colon, parts, closes]

theorem readFields_more {fuel : Nat} {done fields : List (String × Json)}
    {s body after rest : List Char} {key : String} {value : Json}
    (start : skipBlanks s = stringText key ++ ':' :: body)
    (parts : readValue fuel body = some (value, ',' :: after))
    (others : readFields fuel (putField key value done) after = some (fields, rest)) :
    readFields (fuel + 1) done s = some (fields, rest) := by
  have colon : skipBlanks (':' :: body) = ':' :: body := rfl
  have comma : skipBlanks (',' :: after) = ',' :: after := rfl
  rw [readFields, start, stringText, List.cons_append, List.cons_append, List.append_assoc]
  simp only [List.singleton_append, readString_flatMap, List.reverse_nil, List.nil_append,
    String.ofList_toList, colon, parts, comma, others]

-- The fuel is counted by the length of the text, two steps a character.
mutual

theorem readValue_written {v : Json} {text : List Char} (h : Written v text) {fuel : Nat}
    {s rest : List Char} (start : skipBlanks s = text ++ rest) (ends : EndsNumber rest)
    (enough : 2 * text.length ≤ fuel) : readValue fuel s = some (v, rest) := by
  have positive := h.length_pos
  obtain ⟨fuel, rfl⟩ : ∃ k, fuel = k + 1 := ⟨fuel - 1, by omega⟩
  cases h with
  | null =>
    rw [readValue, start]
    rfl
  | bool b =>
    rw [readValue, start]
    cases b <;> rfl
  | int n => exact readValue_intText start ends
  | str t => exact readValue_str start
  | noItems =>
    rw [readValue, start]
    rfl
  | @arr items gap body blank parts =>
    have begins := parts.beginsValue.append (']' :: rest)
    simp only [List.cons_append, List.append_assoc, List.nil_append] at start
    simp only [List.length_append, List.length_cons, List.length_nil] at enough
    exact readValue_arr start (begins.skipBlanks_gap blank) begins
      (readItems_written parts begins.skipBlanks_eq (by omega))
  | noFields =>
    rw [readValue, start]
    rfl
  | @obj fields gap body blank distinct parts =>
    have begins := parts.beginsValue.append ('\x7d' :: rest)
    simp only [List.cons_append, List.append_assoc, List.nil_append] at start
    simp only [List.length_append, List.length_cons, List.length_nil] at enough
    have keys : (([] ++ fields : List (String × Json)).map (·.1)).Nodup := distinct
    exact readValue_obj start (begins.skipBlanks_gap blank) begins
      (readFields_written parts keys begins.skipBlanks_eq (by omega))
termination_by fuel

theorem readItems_written {items : List Json} {body : List Char} (h : WrittenItems items body)
    {fuel : Nat} {s rest : List Char} (start : skipBlanks s = body ++ ']' :: rest)
    (enough : 2 * body.length + 1 ≤ fuel) : readItems fuel s = some (items, rest) := by
  obtain ⟨fuel, rfl⟩ : ∃ k, fuel = k + 1 := ⟨fuel - 1, by omega⟩
  cases h with
  | last value blank =>
    simp only [List.append_assoc] at start
    simp only [List.length_append] at enough
    exact readItems_last
      (readValue_written value start (endsNumber_gap blank (.inr (.inl rfl)) rest) (by omega))
      (skipBlanks_append blank _)
  | more value blank others =>
    have begins := others.beginsValue.append (']' :: rest)
    simp only [List.append_assoc, List.cons_append] at start
    simp only [List.length_append, List.length_cons] at enough
    refine readItems_more
      (readValue_written value start (endsNumber_gap isGap_nil (.inl rfl) _) (by omega)) ?_
    exact readItems_written others (begins.skipBlanks_gap blank) (by omega)
termination_by fuel

theorem readFields_written {fields : List (String × Json)} {body : List Char}
    (h : WrittenFields fields body) {done : List (String × Json)}
    (distinct : ((done ++ fields).map (·.1)).Nodup) {fuel : Nat} {s rest : List Char}
    (start : skipBlanks s = body ++ '\x7d' :: rest) (enough : 2 * body.length + 1 ≤ fuel) :
    readFields fuel done s = some (done ++ fields, rest) := by
  obtain ⟨fuel, rfl⟩ : ∃ k, fuel = k + 1 := ⟨fuel - 1, by omega⟩
  have new {key : String} {item : Json} {others : List (String × Json)}
      (distinct : ((done ++ (key, item) :: others).map (·.1)).Nodup) : key ∉ done.map (·.1) := by
    rw [List.map_append, List.nodup_append] at distinct
    exact fun old => distinct.2.2 key old key List.mem_cons_self rfl
  cases h with
  | last between value blank =>
    simp only [List.append_assoc, List.cons_append] at start
    simp only [List.length_append, List.length_cons] at enough
    rw [← putField_of_notMem (new distinct)]
    exact readFields_last start
      (readValue_written value ((value.beginsValue.append _).skipBlanks_gap between)
        (endsNumber_gap blank (.inr (.inr rfl)) rest) (by omega))
      (skipBlanks_append blank _)
  | more between value blank others =>
    have begins := others.beginsValue.append ('\x7d' :: rest)
    simp only [List.append_assoc, List.cons_append] at start
    simp only [List.length_append, List.length_cons] at enough
    have fresh := new distinct
    rw [List.append_cons, ← putField_of_notMem fresh] at distinct ⊢
    refine readFields_more start
      (readValue_written value ((value.beginsValue.append _).skipBlanks_gap between)
        (endsNumber_gap isGap_nil (.inl rfl) _) (by omega)) ?_
    exact readFields_written others distinct (begins.skipBlanks_gap blank) (by omega)
termination_by fuel

end

/-- Every text in which a value is written reads back as the value. -/
theorem parse?_written {v : Json} {text : List Char} (h : Written v text) :
    parse? (String.ofList text) = some v := by
  have start : skipBlanks text = text ++ [] := by
    rw [List.append_nil, h.beginsValue.skipBlanks_eq]
  have value : readValue (2 * text.length + 2) text = some (v, []) :=
    readValue_written h start (by simp [EndsNumber]) (by omega)
  rw [parse?, String.toList_ofList]
  simp only [value]
  rfl

/-! ### Layouts -/

/-- Items that are each written, with a comma and blanks between them and blanks at the end. -/
theorem writtenItems_separated {gap close : List Char} (blank : IsGap gap) (closing : IsGap close)
    {item : Json} {items : List Json} {texts : List (List Char)}
    (h : List.Forall₂ Written (item :: items) texts) :
    WrittenItems (item :: items) (separated (',' :: gap) texts ++ close) := by
  induction items generalizing item texts with
  | nil =>
    obtain ⟨text, rest, value, none, rfl⟩ := List.forall₂_cons_left_iff.mp h
    obtain rfl := List.forall₂_nil_left_iff.mp none
    exact .last value closing
  | cons next more ih =>
    obtain ⟨text, rest, value, others, rfl⟩ := List.forall₂_cons_left_iff.mp h
    obtain ⟨second, tail, -, -, rfl⟩ := List.forall₂_cons_left_iff.mp others
    have written := WrittenItems.more value blank (ih others)
    simpa [separated] using written

/-- A field is written: its key, a colon and its value. -/
def WrittenField (field : String × Json) (text : List Char) : Prop :=
  ∃ value, Written field.2 value ∧ text = stringText field.1 ++ [':', ' '] ++ value

theorem writtenFields_separated {gap close : List Char} (blank : IsGap gap)
    (closing : IsGap close) {field : String × Json} {fields : List (String × Json)}
    {texts : List (List Char)} (h : List.Forall₂ WrittenField (field :: fields) texts) :
    WrittenFields (field :: fields) (separated (',' :: gap) texts ++ close) := by
  induction fields generalizing field texts with
  | nil =>
    obtain ⟨text, rest, ⟨value, written, rfl⟩, none, rfl⟩ := List.forall₂_cons_left_iff.mp h
    obtain rfl := List.forall₂_nil_left_iff.mp none
    have last : WrittenFields [(field.1, field.2)] _ := .last isGap_space written closing
    simpa [separated] using last
  | cons next more ih =>
    obtain ⟨text, rest, ⟨value, written, rfl⟩, others, rfl⟩ := List.forall₂_cons_left_iff.mp h
    obtain ⟨second, tail, -, -, rfl⟩ := List.forall₂_cons_left_iff.mp others
    have longer : WrittenFields ((field.1, field.2) :: next :: more) _ :=
      .more isGap_space written blank (ih others)
    simpa [separated] using longer

theorem written_arr {gap close : List Char} (blank : IsGap gap) (closing : IsGap close)
    {opening : List Char} (first : IsGap opening) {item : Json} {items : List Json}
    {texts : List (List Char)} (h : List.Forall₂ Written (item :: items) texts) :
    Written (.arr (item :: items))
      (['['] ++ opening ++ separated (',' :: gap) texts ++ close ++ [']']) := by
  have written := Written.arr first (writtenItems_separated blank closing h)
  simpa using written

theorem written_obj {gap close : List Char} (blank : IsGap gap) (closing : IsGap close)
    {opening : List Char} (first : IsGap opening) {field : String × Json}
    {fields : List (String × Json)} (distinct : ((field :: fields).map (·.1)).Nodup)
    {texts : List (List Char)} (h : List.Forall₂ WrittenField (field :: fields) texts) :
    Written (.obj (field :: fields))
      (['\x7b'] ++ opening ++ separated (',' :: gap) texts ++ close ++ ['\x7d']) := by
  have written := Written.obj first distinct (writtenFields_separated blank closing h)
  simpa using written

mutual

theorem written_compact : ∀ v : Json, v.Plain → Written v v.compact
  | .null, _ => .null
  | .bool b, _ => .bool b
  | .int n, _ => .int n
  | .real _, plain => plain.elim
  | .str s, _ => .str s
  | .arr [], _ => .noItems
  | .arr (item :: items), plain => by
    have written := written_arr isGap_space isGap_nil isGap_nil
      (written_compactItems (item :: items) plain)
    rw [List.append_nil, List.append_nil] at written
    exact written
  | .obj [], _ => .noFields
  | .obj (field :: fields), plain => by
    have written := written_obj isGap_space isGap_nil isGap_nil plain.1
      (written_compactFields (field :: fields) plain.2)
    rw [List.append_nil, List.append_nil] at written
    exact written

theorem written_compactItems : ∀ items : List Json, PlainItems items →
    List.Forall₂ Written items (compactItems items)
  | [], _ => .nil
  | item :: items, plain =>
    .cons (written_compact item plain.1) (written_compactItems items plain.2)

theorem written_compactFields : ∀ fields : List (String × Json), PlainFields fields →
    List.Forall₂ WrittenField fields (compactFields fields)
  | [], _ => .nil
  | (_, value) :: fields, plain =>
    .cons ⟨value.compact, written_compact value plain.1, rfl⟩
      (written_compactFields fields plain.2)

end

mutual

theorem written_pretty : ∀ (indent : Nat) (v : Json), v.Plain → Written v (v.pretty indent)
  | _, .null, _ => .null
  | _, .bool b, _ => .bool b
  | _, .int n, _ => .int n
  | _, .real _, plain => plain.elim
  | _, .str s, _ => .str s
  | _, .arr [], _ => .noItems
  | indent, .arr (item :: items), plain => by
    have newline := isGap_newline (indent + 2)
    have written := written_arr newline (isGap_newline indent) newline
      (written_prettyItems (indent + 2) (item :: items) plain)
    exact written
  | _, .obj [], _ => .noFields
  | indent, .obj (field :: fields), plain => by
    have newline := isGap_newline (indent + 2)
    have written := written_obj newline (isGap_newline indent) newline plain.1
      (written_prettyFields (indent + 2) (field :: fields) plain.2)
    exact written

theorem written_prettyItems : ∀ (indent : Nat) (items : List Json), PlainItems items →
    List.Forall₂ Written items (prettyItems indent items)
  | _, [], _ => .nil
  | indent, item :: items, plain =>
    .cons (written_pretty indent item plain.1) (written_prettyItems indent items plain.2)

theorem written_prettyFields : ∀ (indent : Nat) (fields : List (String × Json)),
    PlainFields fields → List.Forall₂ WrittenField fields (prettyFields indent fields)
  | _, [], _ => .nil
  | indent, (_, value) :: fields, plain =>
    .cons ⟨value.pretty indent, written_pretty indent value plain.1, rfl⟩
      (written_prettyFields indent fields plain.2)

end

theorem length_compact_pos {v : Json} (plain : v.Plain) : 0 < v.compact.length :=
  (written_compact v plain).length_pos

/-- What is written on a line reads back as the value. -/
theorem parse?_line {v : Json} (plain : v.Plain) : parse? v.line = some v :=
  parse?_written (written_compact v plain)

/-- What is written over several lines reads back as the value. -/
theorem parse?_document {v : Json} (plain : v.Plain) : parse? v.document = some v :=
  parse?_written (written_pretty 0 v plain)

/-! ### Printable text -/

/-- The marks and words that the printer writes are looked at one character at a time. -/
theorem isPrintable_of_all {s : List Char} (h : (s.all fun c => decide (IsPrintable c)) = true) :
    ∀ c ∈ s, IsPrintable c := by
  intro c hc
  exact of_decide_eq_true (List.all_eq_true.1 h c hc)

theorem isPrintable_unitEscape (n : Nat) : ∀ c ∈ unitEscape n, IsPrintable c := by
  have digit (m : Nat) : IsPrintable (hexDigit (m % 16)) := by
    have all : ∀ k : Fin 16, IsPrintable (hexDigit k) := by decide
    exact all ⟨m % 16, Nat.mod_lt m (by decide)⟩
  rw [unitEscape, hexDigits_four]
  intro c hc
  simp only [List.cons_append, List.nil_append, List.mem_cons, List.not_mem_nil, or_false] at hc
  rcases hc with rfl | rfl | rfl | rfl | rfl | rfl
  · decide
  · decide
  · exact digit _
  · exact digit _
  · exact digit _
  · exact digit _

theorem isPrintable_stringChar (d : Char) : ∀ c ∈ stringChar d, IsPrintable c := by
  have backslash : IsPrintable '\\' := by decide
  rcases stringChar_cases d with ⟨e, text, -, letter⟩ | ⟨text, -, -, printable⟩ | ⟨text, -⟩ |
    ⟨text, -⟩
  · rw [text]
    simpa using ⟨backslash, letter⟩
  · rw [text]
    simpa using printable
  · rw [text]
    exact isPrintable_unitEscape _
  · rw [text, List.forall_mem_append]
    exact ⟨isPrintable_unitEscape _, isPrintable_unitEscape _⟩

theorem isPrintable_stringText (s : String) : ∀ c ∈ stringText s, IsPrintable c := by
  rw [stringText, List.forall_mem_append, List.forall_mem_cons, List.forall_mem_flatMap]
  exact ⟨⟨by decide, fun d _ => isPrintable_stringChar d⟩, isPrintable_of_all (by decide)⟩

theorem isPrintable_intText (n : Int) : ∀ c ∈ intText n, IsPrintable c := by
  have digits (m : Nat) : ∀ c ∈ Nat.toDigits 10 m, IsPrintable c := by
    intro c hc
    have digit := Nat.isDigit_of_mem_toDigits (by decide) (by decide) hc
    simp only [Char.isDigit, Bool.and_eq_true, decide_eq_true_eq] at digit
    exact ⟨Nat.le_trans (by decide) digit.1, Nat.lt_of_le_of_lt digit.2 (by decide)⟩
  cases n with
  | ofNat n =>
    rw [Int.ofNat_eq_natCast, intText_natCast]
    exact digits n
  | negSucc n =>
    rw [intText_negSucc, List.forall_mem_cons]
    exact ⟨by decide, digits (n + 1)⟩

theorem isPrintable_separated {texts : List (List Char)}
    (all : ∀ text ∈ texts, ∀ c ∈ text, IsPrintable c) :
    ∀ c ∈ separated [',', ' '] texts, IsPrintable c := by
  fun_induction separated [',', ' '] texts with
  | case1 => simp
  | case2 text => simpa using all
  | case3 text next rest ih =>
    rw [List.forall_mem_cons] at all
    rw [List.forall_mem_append, List.forall_mem_append]
    exact ⟨⟨all.1, isPrintable_of_all (by decide)⟩, ih all.2⟩

mutual

theorem isPrintable_compact : ∀ v : Json, v.Plain → ∀ c ∈ v.compact, IsPrintable c
  | .null, _ => isPrintable_of_all (by decide)
  | .bool true, _ => isPrintable_of_all (by decide)
  | .bool false, _ => isPrintable_of_all (by decide)
  | .int n, _ => isPrintable_intText n
  | .real _, plain => plain.elim
  | .str s, _ => isPrintable_stringText s
  | .arr items, plain => by
    have parts := isPrintable_separated (isPrintable_items items plain)
    show ∀ c ∈ ['['] ++ separated [',', ' '] (compactItems items) ++ [']'], IsPrintable c
    rw [List.forall_mem_append, List.forall_mem_append]
    exact ⟨⟨isPrintable_of_all (by decide), parts⟩, isPrintable_of_all (by decide)⟩
  | .obj fields, plain => by
    have parts := isPrintable_separated (isPrintable_fields fields plain.2)
    show ∀ c ∈ ['\x7b'] ++ separated [',', ' '] (compactFields fields) ++ ['\x7d'], IsPrintable c
    rw [List.forall_mem_append, List.forall_mem_append]
    exact ⟨⟨isPrintable_of_all (by decide), parts⟩, isPrintable_of_all (by decide)⟩

theorem isPrintable_items : ∀ items : List Json, PlainItems items →
    ∀ text ∈ compactItems items, ∀ c ∈ text, IsPrintable c
  | [], _ => by simp [compactItems]
  | item :: items, plain => by
    rw [compactItems, List.forall_mem_cons]
    exact ⟨isPrintable_compact item plain.1, isPrintable_items items plain.2⟩

theorem isPrintable_fields : ∀ fields : List (String × Json), PlainFields fields →
    ∀ text ∈ compactFields fields, ∀ c ∈ text, IsPrintable c
  | [], _ => by simp [compactFields]
  | (key, value) :: fields, plain => by
    rw [compactFields, List.forall_mem_cons, List.forall_mem_append, List.forall_mem_append]
    exact ⟨⟨⟨isPrintable_stringText key, isPrintable_of_all (by decide)⟩,
      isPrintable_compact value plain.1⟩, isPrintable_fields fields plain.2⟩

end

end LexLint.Json
