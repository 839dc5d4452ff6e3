import LexLint.Checker.Undeclared
import LexLint.Proofs.Text.Trim

/-!
# Blanks at the end of a line

Where a line ends depends on a return that the code view may have blanked, so that two lines with
the same code differ in the blanks at their ends. Patterns and scans find the same in both
(`findAll_append_blank`, `scanSites_append_blank`), and so do the uses of variables
(`Undeclared.uses_append_blank`).
-/

namespace LexLint

section
variable {blanks : List Char} (blank : AllBlank blanks)
include blank

theorem afterLiteral?_append_blank {literal : List Char} (visible : literal.any isBlank = false)
    (s : List Char) :
    afterLiteral? literal (s ++ blanks) = (afterLiteral? literal s).map (· ++ blanks) := by
  induction literal generalizing s with
  | nil => rfl
  | cons p ps ih =>
    obtain ⟨visibleP, visibleRest⟩ := Bool.or_eq_false_iff.mp (List.any_cons ▸ visible)
    cases s with
    | nil =>
      cases blanks with
      | nil => rfl
      | cons b bs =>
        have differ : p ≠ b := by
          rintro rfl
          rw [blank p List.mem_cons_self] at visibleP
          cases visibleP
        simp [afterLiteral?, differ]
    | cons c cs =>
      by_cases hc : p = c
      · simp [afterLiteral?, hc, ih visibleRest]
      · simp [afterLiteral?, hc]

theorem takeWhile_append_blank (s : List Char) :
    (s ++ blanks).takeWhile isWordChar = s.takeWhile isWordChar ∧
      (s ++ blanks).dropWhile isWordChar = s.dropWhile isWordChar ++ blanks := by
  induction s with
  | nil =>
    cases blanks with
    | nil => exact ⟨rfl, rfl⟩
    | cons b bs => simp [isWordChar_of_isBlank (blank b List.mem_cons_self)]
  | cons c rest ih =>
    by_cases word : isWordChar c = true
    · simp [word, ih]
    · simp [word]

theorem identifier?_append_blank (s : List Char) :
    identifier? (s ++ blanks) = (identifier? s).map fun r => (r.1, r.2 ++ blanks) := by
  cases s with
  | nil =>
    cases blanks with
    | nil => rfl
    | cons b bs =>
      have start : isWordStart b = false := by
        refine Bool.eq_false_iff.mpr fun start => ?_
        have := isBlank_of_isWordChar (isWordChar_of_isWordStart start)
        rw [blank b List.mem_cons_self] at this
        cases this
      simp [identifier?, start]
  | cons c rest =>
    obtain ⟨word, after⟩ := takeWhile_append_blank blank rest
    by_cases start : isWordStart c = true
    · simp [identifier?, start, word, after]
    · simp [identifier?, start]

theorem identifier?_trimStart_append_blank (s : List Char) :
    identifier? (trimStart (s ++ blanks)) =
      (identifier? (trimStart s)).map fun r => (r.1, r.2 ++ blanks) := by
  rw [trimStart_append_blank blank]
  split
  · rename_i empty
    rw [empty]
    rfl
  · exact identifier?_append_blank blank _

end

/-- A pattern that neither needs the blanks after a text nor is found in them. -/
structure PassesBlanks {α : Type} (recognise : Recogniser α) : Prop where
  nil : recognise [] = none
  append : ∀ {blanks : List Char}, AllBlank blanks → ∀ s,
    recognise (s ++ blanks) = (recognise s).map fun r => (r.1, r.2 ++ blanks)

theorem passesBlanks_declarationSite : PassesBlanks declarationSite where
  nil := rfl
  append := by
    intro blanks blank s
    let keyword (s : List Char) : Option (List Char) :=
      (afterLiteral? ['l', 'e', 't', '$'] s <|> afterLiteral? ['f', 'u', 'n', 'c', '$'] s) <|>
        afterLiteral? ['c', 'l', 'a', 's', 's', '$'] s
    have marked : keyword (s ++ blanks) = (keyword s).map (· ++ blanks) := by
      simp only [keyword]
      rw [afterLiteral?_append_blank blank (by decide),
        afterLiteral?_append_blank blank (by decide), afterLiteral?_append_blank blank (by decide)]
      cases afterLiteral? ['l', 'e', 't', '$'] s with
      | some after => rfl
      | none =>
        cases afterLiteral? ['f', 'u', 'n', 'c', '$'] s with
        | some after => rfl
        | none => rfl
    have site (s : List Char) : declarationSite s = (keyword s).bind fun after =>
        (identifier? (trimStart after)).map fun r => (String.ofList r.1, r.2) := by
      simp only [Option.map_eq_bind]
      rfl
    rw [site, site, marked]
    cases keyword s with
    | none => rfl
    | some after =>
      simp only [Option.map_some, Option.bind_some, Option.map_map,
        identifier?_trimStart_append_blank blank]
      rfl

/-- Nothing is found in blanks. -/
theorem findAllFrom_of_allBlank {α : Type} {recognise : Recogniser α}
    (passes : PassesBlanks recognise) (edge : Bool) {blanks : List Char} (blank : AllBlank blanks)
    (offset : Nat) (before : Option Char) (skip : Nat) :
    findAllFrom edge recognise offset before skip blanks = [] := by
  induction blanks generalizing offset before skip with
  | nil => rfl
  | cons b bs ih =>
    have fails : recognise (b :: bs) = none := by
      have := passes.append blank []
      rwa [passes.nil] at this
    have later := ih fun c hc => blank c (List.mem_cons_of_mem b hc)
    cases skip with
    | succ skip => rw [findAllFrom, later]
    | zero => rw [findAllFrom, fails, later, ite_self]

theorem findAllFrom_append_blank {α : Type} {recognise : Recogniser α}
    (passes : PassesBlanks recognise) (edge : Bool) {blanks : List Char} (blank : AllBlank blanks)
    (offset : Nat) (before : Option Char) (skip : Nat) (s : List Char) :
    findAllFrom edge recognise offset before skip (s ++ blanks) =
      findAllFrom edge recognise offset before skip s := by
  induction s generalizing offset before skip with
  | nil => exact findAllFrom_of_allBlank passes edge blank offset before skip
  | cons c rest ih =>
    have here := passes.append blank (c :: rest)
    rw [List.cons_append] at here ⊢
    cases skip with
    | succ skip => rw [findAllFrom, findAllFrom, ih]
    | zero =>
      rw [findAllFrom, findAllFrom, here, ih]
      cases recognise (c :: rest) with
      | none => rfl
      | some found =>
        have taken : (rest ++ blanks).length + 1 - (found.2 ++ blanks).length =
            rest.length + 1 - found.2.length := by
          simp only [List.length_append]
          omega
        simp only [Option.map_some, taken, ih]

/-- Blanks at the end of a text hold no occurrence and end none. -/
theorem findAll_append_blank {α : Type} {recognise : Recogniser α}
    (passes : PassesBlanks recognise) (edge : Bool) {blanks : List Char} (blank : AllBlank blanks)
    (s : List Char) : findAll edge recognise (s ++ blanks) = findAll edge recognise s :=
  findAllFrom_append_blank passes edge blank 0 none 0 s

/-- A word with more text after it. -/
def WordSite.extend (more : List Char) (s : WordSite) : WordSite :=
  { s with after := s.after ++ more }

theorem map_extend_runSite (stop : Nat) (before run after more : List Char) :
    (runSite stop before run after).map (WordSite.extend more) =
      runSite stop before run (after ++ more) := by
  unfold runSite
  split
  · rfl
  · split
    · rfl
    · rfl

theorem scanSitesFrom_of_allBlank {blanks : List Char} (blank : AllBlank blanks) (offset : Nat)
    (before : List Char) : scanSitesFrom offset before [] blanks = [] := by
  induction blanks generalizing offset before with
  | nil => rfl
  | cons b bs ih =>
    obtain ⟨blankB, blankRest⟩ := List.forall_mem_cons.mp blank
    rw [scanSitesFrom, isWordChar_of_isBlank blankB, List.nil_append, ih blankRest]
    rfl

theorem scanSitesFrom_append_blank {blanks : List Char} (blank : AllBlank blanks) (offset : Nat)
    (before run s : List Char) :
    scanSitesFrom offset before run (s ++ blanks) =
      (scanSitesFrom offset before run s).map (WordSite.extend blanks) := by
  induction s generalizing offset before run with
  | nil =>
    rw [scanSitesFrom, map_extend_runSite]
    cases blanks with
    | nil => rfl
    | cons b bs =>
      obtain ⟨blankB, blankRest⟩ := List.forall_mem_cons.mp blank
      simp [scanSitesFrom, isWordChar_of_isBlank blankB, scanSitesFrom_of_allBlank blankRest]
  | cons c rest ih =>
    rw [List.cons_append, scanSitesFrom, scanSitesFrom]
    split
    · exact ih ..
    · rw [List.map_append, map_extend_runSite, ih]
      rfl

/-- Blanks at the end of a text make no word and no word longer. -/
theorem scanSites_append_blank {blanks : List Char} (blank : AllBlank blanks) (s : List Char) :
    scanSites (s ++ blanks) = (scanSites s).map (WordSite.extend blanks) :=
  scanSitesFrom_append_blank blank 0 [] [] s

namespace Undeclared

theorem isNoUse_append_blank {blanks : List Char} (blank : AllBlank blanks)
    (before after : List Char) : isNoUse before (after ++ blanks) = isNoUse before after := by
  cases blanks with
  | nil => rw [List.append_nil]
  | cons b bs =>
    have differs {c : Char} (visible : isBlank c = false) : b ≠ c := by
      rintro rfl
      rw [blank b List.mem_cons_self] at visible
      cases visible
    have angle : ((after ++ b :: bs).head? == some '>') = (after.head? == some '>') := by
      cases after with
      | nil => simp [differs (c := '>') (by decide)]
      | cons c rest => rfl
    unfold isNoUse
    rw [angle, trimStart_append_blank blank]
    congr 1
    -- A colon with a blank after it marks a key, as one at the end of the line does.
    rcases trimStart after with _ | ⟨c, _ | ⟨d, rest⟩⟩
    · rfl
    · by_cases colon : c = ':'
      · simp [colon, differs (c := ':') (by decide), differs (c := '=') (by decide)]
      · simp [colon]
    · by_cases colon : c = ':'
      · simp [colon]
      · simp [colon]

/-- Blanks at the end of a line use nothing. -/
theorem uses_append_blank {blanks : List Char} (blank : AllBlank blanks) (s : List Char) :
    uses (s ++ blanks) = uses s := by
  unfold uses
  rw [findAll_append_blank passesBlanks_declarationSite true blank, scanSites_append_blank blank]
  simp only [List.filter_map, List.map_map, Function.comp_def, WordSite.extend,
    isNoUse_append_blank blank]

end Undeclared

end LexLint
