import LexLint.Proofs.Text.Split
import LexLint.Report.Html
import LexLint.Text.Integer

/-!
# Reading pages

A page is read tag by tag, and the elements that hold nothing but text are collected with their
text, in which character references are read (`elementsOf`). An escaped text holds no markup
(`markup_escape`) and reads as itself (`decodeHtml_escape_append`), also where it looks like a
reference.
-/

namespace LexLint

/-! ### Character references -/

/-- A character that opens or closes a tag or a quoted value. -/
def isMarkup (c : Char) : Bool := c == '<' || c == '>' || c == '"' || c == '\''

/-- The markup of a page, all else left out. -/
def markup (page : List Char) : List Char := page.filter isMarkup

/-- The character that a reference stands for, by its name or by its number. -/
def referred? (name : List Char) : Option Char :=
  match name with
  | ['a', 'm', 'p'] => some '&'
  | ['l', 't'] => some '<'
  | ['g', 't'] => some '>'
  | ['q', 'u', 'o', 't'] => some '"'
  | ['a', 'p', 'o', 's'] => some '\''
  | '#' :: digits =>
    if digits ≠ [] ∧ digits.all Char.isDigit then
      some (Char.ofNat (ofDigitValues (digits.map fun c => c.toNat - 48)))
    else none
  | _ => none

/-- What stands behind an ampersand, with the reference at its start read. -/
def decodePiece (piece : List Char) : List Char :=
  match referred? (piece.takeWhile (· ≠ ';')), piece.dropWhile (· ≠ ';') with
  | some c, _ :: rest => c :: rest
  | _, _ => '&' :: piece

/-- A text with its references read, each once. -/
def decodeHtml (s : List Char) : List Char :=
  match splitAtChar '&' s with
  | [] => []
  | first :: pieces => first ++ pieces.flatMap decodePiece

theorem decodeHtml_cons_of_ne {c : Char} (h : c ≠ '&') (s : List Char) :
    decodeHtml (c :: s) = c :: decodeHtml s := by
  obtain ⟨first, pieces, cut⟩ := List.exists_cons_of_ne_nil (splitAtChar_ne_nil '&' s)
  rw [decodeHtml, decodeHtml, splitAtChar_cons_of_ne h cut, cut]
  rfl

theorem decodeHtml_of_notMem {s : List Char} (h : '&' ∉ s) : decodeHtml s = s := by
  rw [decodeHtml, splitAtChar_of_notMem h]
  exact List.append_nil s

theorem decodePiece_reference {name : List Char} {c : Char} (names : referred? name = some c)
    (noEnd : ';' ∉ name) (rest : List Char) : decodePiece (name ++ ';' :: rest) = c :: rest := by
  have inside : ∀ d ∈ name, decide (d ≠ ';') = true := by
    intro d hd
    exact decide_eq_true fun ends => noEnd (ends ▸ hd)
  have taken : (name ++ ';' :: rest).takeWhile (· ≠ ';') = name := by
    rw [List.takeWhile_append_of_pos inside]
    exact List.append_nil name
  have left : (name ++ ';' :: rest).dropWhile (· ≠ ';') = ';' :: rest := by
    rw [List.dropWhile_append_of_pos inside]
    rfl
  rw [decodePiece, taken, left, names]

/-- A reference is read wherever it stands. -/
theorem decodeHtml_reference {name : List Char} {c : Char} (names : referred? name = some c)
    (noEnd : ';' ∉ name) (noStart : '&' ∉ name) (s : List Char) :
    decodeHtml ('&' :: (name ++ ';' :: s)) = c :: decodeHtml s := by
  obtain ⟨first, pieces, cut⟩ := List.exists_cons_of_ne_nil (splitAtChar_ne_nil '&' s)
  have behind : splitAtChar '&' (name ++ ';' :: s) = (name ++ ';' :: first) :: pieces :=
    splitAtChar_append_of_notMem noStart (splitAtChar_cons_of_ne (by decide) cut)
  rw [decodeHtml, decodeHtml, splitAtChar_cons_self, behind, cut]
  show decodePiece (name ++ ';' :: first) ++ pieces.flatMap decodePiece = _
  rw [decodePiece_reference names noEnd]
  rfl

/-- A character is written as itself, or as a reference to it. -/
theorem htmlChar_cases (c : Char) :
    (htmlChar c = [c] ∧ c ≠ '&' ∧ isMarkup c = false) ∨
      ∃ name, htmlChar c = '&' :: (name ++ [';']) ∧ referred? name = some c ∧
        ';' ∉ name ∧ '&' ∉ name ∧ markup name = [] := by
  unfold htmlChar
  split
  case isTrue h => exact .inr ⟨"amp".toList, by decide, h ▸ rfl, by decide, by decide, by decide⟩
  split
  case isTrue h => exact .inr ⟨"lt".toList, by decide, h ▸ rfl, by decide, by decide, by decide⟩
  split
  case isTrue h => exact .inr ⟨"gt".toList, by decide, h ▸ rfl, by decide, by decide, by decide⟩
  split
  case isTrue h => exact .inr ⟨"#39".toList, by decide, h ▸ rfl, by decide, by decide, by decide⟩
  split
  case isTrue h => exact .inr ⟨"#34".toList, by decide, h ▸ rfl, by decide, by decide, by decide⟩
  case isFalse amp less greater single double =>
    exact .inl ⟨rfl, amp, by simp [isMarkup, less, greater, single, double]⟩

theorem markup_append (a b : List Char) : markup (a ++ b) = markup a ++ markup b :=
  List.filter_append a b

theorem markup_htmlChar (c : Char) : markup (htmlChar c) = [] := by
  rcases htmlChar_cases c with ⟨same, -, harmless⟩ | ⟨name, text, -, -, -, harmless⟩
  · simp [same, markup, harmless]
  · rw [text, ← List.cons_append, markup_append]
    show markup name ++ markup [';'] = []
    rw [harmless]
    rfl

/-- An escaped text holds no markup. -/
theorem markup_escape (s : List Char) : markup (s.flatMap htmlChar) = [] := by
  rw [markup, List.filter_flatMap]
  exact List.flatMap_eq_nil_iff.mpr fun c _ => markup_htmlChar c

/-- An escaped text reads as itself, whatever follows it. -/
theorem decodeHtml_escape_append (s rest : List Char) :
    decodeHtml (s.flatMap htmlChar ++ rest) = s ++ decodeHtml rest := by
  induction s with
  | nil => rfl
  | cons c s ih =>
    rw [List.flatMap_cons, List.append_assoc]
    rcases htmlChar_cases c with ⟨same, plain, -⟩ | ⟨name, text, names, noEnd, noStart, -⟩
    · rw [same, List.singleton_append, decodeHtml_cons_of_ne plain, ih]
      rfl
    · rw [text, List.cons_append, List.append_assoc, List.singleton_append,
        decodeHtml_reference names noEnd noStart, ih]
      rfl

/-! ### Tags and elements -/

/-- A tag without its angle brackets, and the text up to the next tag. -/
structure Segment where
  tag : List Char
  text : List Char
  deriving DecidableEq, Repr

namespace Segment

/-- A segment from the text behind an opening angle bracket. -/
def ofPiece (piece : List Char) : Segment :=
  ⟨piece.takeWhile (· ≠ '>'), (piece.dropWhile (· ≠ '>')).tail⟩

def written (s : Segment) : List Char := '<' :: (s.tag ++ '>' :: s.text)

/-- The name at the start of a tag. -/
def name (s : Segment) : List Char := s.tag.takeWhile (· ≠ ' ')

def closes (s opening : Segment) : Bool := s.tag == '/' :: opening.name

/-- No angle bracket stands where it would be read as the end of a part. -/
def Clean (s : Segment) : Prop := '<' ∉ s.tag ∧ '>' ∉ s.tag ∧ '<' ∉ s.text

instance (s : Segment) : Decidable s.Clean := inferInstanceAs (Decidable (_ ∧ _))

end Segment

/-- A page tag by tag. -/
def segmentsOf (page : List Char) : List Segment := (splitAtChar '<' page).tail.map .ofPiece

/-- An element that holds nothing but text. -/
structure Element where
  tag : List Char
  content : List Char
  deriving DecidableEq, Repr

/-- The elements whose tag is followed by the tag that closes it, with their references read. -/
def collectElements : List Segment → List Element
  | opening :: closing :: rest =>
    if closing.closes opening then
      ⟨opening.tag, decodeHtml opening.text⟩ :: collectElements (closing :: rest)
    else collectElements (closing :: rest)
  | _ => []

/-- The elements of a page that hold nothing but text, in order. -/
def elementsOf (page : List Char) : List Element := collectElements (segmentsOf page)

/-- A tag parts what is read before it from what is read behind it. -/
theorem segmentsOf_append_cons (a b : List Char) :
    segmentsOf (a ++ '<' :: b) = segmentsOf a ++ segmentsOf ('<' :: b) := by
  rw [segmentsOf, segmentsOf, segmentsOf, splitAtChar_append_cons, splitAtChar_cons_self,
    List.tail_append_of_ne_nil (splitAtChar_ne_nil '<' a), List.map_append]
  rfl

theorem Segment.Clean.segmentsOf_written {s : Segment} (clean : s.Clean) :
    segmentsOf s.written = [s] := by
  obtain ⟨noStart, noEnd, noTag⟩ := clean
  have inside : ∀ d ∈ s.tag, decide (d ≠ '>') = true := by
    intro d hd
    exact decide_eq_true fun ends => noEnd (ends ▸ hd)
  have whole : '<' ∉ s.tag ++ '>' :: s.text := by
    simp [noStart, noTag]
  rw [segmentsOf, written, splitAtChar_cons_self, splitAtChar_of_notMem whole]
  show [ofPiece (s.tag ++ '>' :: s.text)] = [s]
  rw [ofPiece, List.takeWhile_append_of_pos inside, List.dropWhile_append_of_pos inside]
  simp

/-- What is written segment by segment is read segment by segment. -/
theorem segmentsOf_append_written {segments : List Segment} (clean : ∀ s ∈ segments, s.Clean)
    (before : List Char) :
    segmentsOf (before ++ segments.flatMap Segment.written) = segmentsOf before ++ segments := by
  induction segments generalizing before with
  | nil => rw [List.flatMap_nil, List.append_nil, List.append_nil]
  | cons s rest ih =>
    rw [List.forall_mem_cons] at clean
    rw [List.flatMap_cons, ← List.append_assoc, ih clean.2, Segment.written,
      segmentsOf_append_cons, ← Segment.written, clean.1.segmentsOf_written, List.append_assoc]
    rfl

/-- Elements are collected part by part where the second part begins with no closing tag. -/
theorem collectElements_append (before : List Segment) {s : Segment} (rest : List Segment)
    (opens : s.tag.head? ≠ some '/') :
    collectElements (before ++ s :: rest) =
      collectElements before ++ collectElements (s :: rest) := by
  have apart (opening : Segment) : s.closes opening = false := by
    apply beq_eq_false_iff_ne.mpr
    intro closing
    rw [closing] at opens
    exact opens rfl
  induction before with
  | nil => rfl
  | cons first before ih =>
    cases before with
    | nil => simp [collectElements, apart]
    | cons second more =>
      rw [List.cons_append, List.cons_append, collectElements, collectElements,
        ← List.cons_append, ih]
      split <;> rfl

/-- What is the same in pages with the same markup: a tag, and the markup of its text. -/
def Segment.outline (s : Segment) : List Char × List Char := (s.tag, markup s.text)

theorem markup_flatMap_written (segments : List Segment) :
    markup (segments.flatMap Segment.written) =
      (segments.map Segment.outline).flatMap fun o => '<' :: (markup o.1 ++ '>' :: o.2) := by
  have each (s : Segment) :
      s.written.filter isMarkup = '<' :: (markup s.tag ++ '>' :: markup s.text) := by
    simp [Segment.written, markup, isMarkup]
  rw [markup, List.filter_flatMap, List.flatMap_map]
  simp only [each]
  rfl

theorem notMem_of_markup_eq_nil {s : List Char} (h : markup s = []) {c : Char}
    (special : isMarkup c = true) : c ∉ s := by
  intro member
  rw [markup, List.filter_eq_nil_iff] at h
  exact h c member special

end LexLint
