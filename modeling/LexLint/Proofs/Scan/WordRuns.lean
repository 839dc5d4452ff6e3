import LexLint.Proofs.Scan.TrailingBlanks
import LexLint.Proofs.Scan.Words

/-!
# Texts as words and what stands between them

A text is made of whole words and of characters that belong to none (`word_induction`), and the
scan for words takes it apart in that way (`scanSitesFrom_word`, `scanSitesFrom_cons_other`). Words
come in text order (`scanSites_separated`), and those of two texts with such a character between
them are the words of the one and then the words of the other (`scanSites_append_cons`).
-/

namespace LexLint

/-- Nothing but word characters. -/
def AllWord (s : List Char) : Prop := ∀ c ∈ s, isWordChar c = true

/-- A text begins with no word character. -/
abbrev NoWordFirst (s : List Char) : Prop := s.head?.any isWordChar = false

theorem noWordFirst_cons {c : Char} {rest : List Char} :
    NoWordFirst (c :: rest) ↔ isWordChar c = false := by
  simp [NoWordFirst]

theorem noWordFirst_dropWhile (s : List Char) : NoWordFirst (s.dropWhile isWordChar) := by
  have first := List.head?_dropWhile_not isWordChar s
  rw [NoWordFirst]
  cases h : (s.dropWhile isWordChar).head? with
  | none => rfl
  | some c => simpa [h] using first

theorem takeWhile_word_append {word after : List Char} (all : AllWord word)
    (ends : NoWordFirst after) : (word ++ after).takeWhile isWordChar = word := by
  rw [List.takeWhile_append_of_pos all]
  cases after with
  | nil => simp
  | cons c rest =>
    simp [noWordFirst_cons.mp ends]

/-- The whole word at the start of a text is told by the text. -/
theorem word_append_inj {word word' after after' : List Char} (all : AllWord word)
    (all' : AllWord word') (ends : NoWordFirst after) (ends' : NoWordFirst after')
    (h : word ++ after = word' ++ after') : word = word' ∧ after = after' := by
  have same : word = word' := by
    rw [← takeWhile_word_append all ends, h, takeWhile_word_append all' ends']
  subst same
  exact ⟨rfl, List.append_cancel_left h⟩

/-- A text is empty, or begins with a character that belongs to no word, or with a whole word. -/
theorem word_induction {motive : List Char → Prop} (nil : motive [])
    (other : ∀ c rest, isWordChar c = false → motive rest → motive (c :: rest))
    (word : ∀ word after, word ≠ [] → AllWord word → NoWordFirst after → motive after →
      motive (word ++ after)) (text : List Char) : motive text := by
  induction size : text.length using Nat.strong_induction_on generalizing text with
  | _ n ih =>
    cases text with
    | nil => exact nil
    | cons c rest =>
      by_cases start : isWordChar c = true
      · have split := List.takeWhile_append_dropWhile (p := isWordChar) (l := c :: rest)
        have nonempty : (c :: rest).takeWhile isWordChar ≠ [] := by simp [start]
        have shorter : ((c :: rest).dropWhile isWordChar).length < n := by
          have := congrArg List.length split
          have := List.length_pos_iff.mpr nonempty
          rw [List.length_append] at *
          omega
        rw [← split]
        exact word _ _ nonempty (fun d hd => List.mem_takeWhile_imp hd) (noWordFirst_dropWhile _)
          (ih _ shorter _ rfl)
      · refine other c rest (by simpa using start) (ih rest.length ?_ rest rfl)
        rw [← size, List.length_cons]
        exact Nat.lt_succ_self _

theorem Undeclared.shift_zero (w : Word) : shift 0 w = w := by
  simp [shift]

theorem Undeclared.shift_shift (m n : Nat) (w : Word) : shift m (shift n w) = shift (m + n) w := by
  simp [shift, Nat.add_assoc]

theorem runSite_nil (stop : Nat) (before after : List Char) : runSite stop before [] after = [] :=
  rfl

/-- The word that a run of word characters is, if it begins as one. -/
theorem runSite_reverse {word : List Char} (all : AllWord word) (stop : Nat)
    (before after : List Char) :
    runSite stop before word.reverse after =
      if isIdentifier word then
        [⟨⟨stop - word.length, stop, String.ofList word⟩, before, after⟩]
      else [] := by
  rw [runSite, List.reverse_reverse]
  cases word with
  | nil => rfl
  | cons c rest =>
    have tail : rest.all isWordChar = true :=
      List.all_eq_true.mpr fun d hd => all d (List.mem_cons_of_mem c hd)
    simp [isIdentifier, tail]

theorem scanSitesFrom_cons_word {c : Char} (h : isWordChar c = true) (offset : Nat)
    (before run rest : List Char) :
    scanSitesFrom offset before run (c :: rest) =
      scanSitesFrom (offset + 1) before (c :: run) rest := by
  rw [scanSitesFrom, if_pos h]

/-- A run ends at a character that belongs to no word. -/
theorem scanSitesFrom_cons_end {c : Char} (h : isWordChar c = false) (offset : Nat)
    (before run rest : List Char) :
    scanSitesFrom offset before run (c :: rest) =
      runSite offset before run (c :: rest) ++
        scanSitesFrom (offset + 1) (c :: (run ++ before)) [] rest := by
  rw [scanSitesFrom, h, if_neg Bool.false_ne_true]

theorem scanSitesFrom_cons_other {c : Char} (h : isWordChar c = false) (offset : Nat)
    (before rest : List Char) :
    scanSitesFrom offset before [] (c :: rest) =
      scanSitesFrom (offset + 1) (c :: before) [] rest :=
  scanSitesFrom_cons_end h offset before [] rest

theorem scanSitesFrom_run {word : List Char} (all : AllWord word) (offset : Nat)
    (before run rest : List Char) :
    scanSitesFrom offset before run (word ++ rest) =
      scanSitesFrom (offset + word.length) before (word.reverse ++ run) rest := by
  induction word generalizing offset run with
  | nil => rfl
  | cons c tail ih =>
    obtain ⟨here, later⟩ := List.forall_mem_cons.mp all
    rw [List.cons_append, scanSitesFrom_cons_word here, ih later]
    congr 1
    · rw [List.length_cons]
      omega
    · simp

/-- A whole word is found, and the scan goes on behind it. -/
theorem scanSitesFrom_word {word after : List Char} (all : AllWord word)
    (ends : NoWordFirst after) (offset : Nat) (before : List Char) :
    scanSitesFrom offset before [] (word ++ after) =
      runSite (offset + word.length) before word.reverse after ++
        scanSitesFrom (offset + word.length) (word.reverse ++ before) [] after := by
  rw [scanSitesFrom_run all, List.append_nil]
  cases after with
  | nil => simp [scanSitesFrom, runSite_nil]
  | cons c rest =>
    have other := noWordFirst_cons.mp ends
    rw [scanSitesFrom_cons_other other, scanSitesFrom_cons_end other]

/-- A word of a text that stands behind another. -/
def WordSite.behind (pre : List Char) (s : WordSite) : WordSite :=
  { word := Undeclared.shift pre.length s.word
    before := s.before ++ pre.reverse
    after := s.after }

theorem runSite_behind (pre : List Char) {stop : Nat} {run : List Char} (h : run.length ≤ stop)
    (before after : List Char) :
    runSite (pre.length + stop) (before ++ pre.reverse) run after =
      (runSite stop before run after).map (WordSite.behind pre) := by
  unfold runSite
  split
  · rfl
  · split
    · simp [WordSite.behind, Undeclared.shift, Nat.add_sub_assoc h]
    · rfl

/-- Behind a text the same words are found, further on. -/
theorem scanSitesFrom_behind (pre : List Char) {offset : Nat} (run : List Char)
    (h : run.length ≤ offset) (before rest : List Char) :
    scanSitesFrom (pre.length + offset) (before ++ pre.reverse) run rest =
      (scanSitesFrom offset before run rest).map (WordSite.behind pre) := by
  induction rest generalizing offset before run with
  | nil => exact runSite_behind pre h before []
  | cons c rest ih =>
    simp only [scanSitesFrom]
    split
    · exact ih (c :: run) (Nat.succ_le_succ h) before
    · have later := ih [] (Nat.zero_le (offset + 1)) (c :: (run ++ before))
      rw [List.map_append, runSite_behind pre h, ← later]
      simp [Nat.add_assoc]

/-- A character that belongs to no word parts the words before it from those behind it. -/
theorem scanSitesFrom_append_cons {c : Char} (h : isWordChar c = false) (offset : Nat)
    (before run a b : List Char) :
    scanSitesFrom offset before run (a ++ c :: b) =
      (scanSitesFrom offset before run a).map (WordSite.extend (c :: b)) ++
        scanSitesFrom (offset + a.length + 1) (c :: (a.reverse ++ (run ++ before))) [] b := by
  induction a generalizing offset before run with
  | nil =>
    rw [List.nil_append, scanSitesFrom, scanSitesFrom, map_extend_runSite, h]
    simp
  | cons d rest ih =>
    have next : offset + (d :: rest).length + 1 = offset + 1 + rest.length + 1 := by
      rw [List.length_cons]
      omega
    rw [List.cons_append, scanSitesFrom, scanSitesFrom, next]
    split
    · rw [ih]
      simp
    · rw [ih, List.map_append, map_extend_runSite]
      simp

theorem scanSites_append_cons {c : Char} (h : isWordChar c = false) (a b : List Char) :
    scanSites (a ++ c :: b) =
      (scanSites a).map (WordSite.extend (c :: b)) ++
        (scanSites b).map (WordSite.behind (a ++ [c])) := by
  have later := scanSitesFrom_behind (a ++ [c]) [] (Nat.zero_le 0) [] b
  rw [scanSites, scanSites, scanSites, scanSitesFrom_append_cons h, ← later]
  simp

theorem le_start_of_mem_runSite {stop : Nat} {before run after : List Char} {s : WordSite}
    (h : s ∈ runSite stop before run after) :
    s.word.start = stop - run.length ∧ s.word.stop = stop := by
  obtain ⟨c, rest, -, -, rfl⟩ := mem_runSite h
  exact ⟨rfl, rfl⟩

theorem le_start_of_mem_scanSitesFrom {offset : Nat} {before run rest : List Char} {s : WordSite}
    (h : s ∈ scanSitesFrom offset before run rest) : offset - run.length ≤ s.word.start := by
  induction rest generalizing offset before run with
  | nil => exact Nat.le_of_eq (le_start_of_mem_runSite h).1.symm
  | cons c rest ih =>
    unfold scanSitesFrom at h
    split at h
    · have := ih h
      rw [List.length_cons] at this
      omega
    · rcases List.mem_append.mp h with here | later
      · exact Nat.le_of_eq (le_start_of_mem_runSite here).1.symm
      · have := ih later
        rw [List.length_nil] at this
        omega

theorem pairwise_runSite {R : WordSite → WordSite → Prop} (stop : Nat)
    (before run after : List Char) : (runSite stop before run after).Pairwise R := by
  unfold runSite
  split
  · exact List.Pairwise.nil
  · split
    · exact List.pairwise_singleton ..
    · exact List.Pairwise.nil

theorem scanSitesFrom_separated (offset : Nat) (before run rest : List Char) :
    (scanSitesFrom offset before run rest).Pairwise fun s t => s.word.stop < t.word.start := by
  induction rest generalizing offset before run with
  | nil => exact pairwise_runSite ..
  | cons c rest ih =>
    unfold scanSitesFrom
    split
    · exact ih ..
    · refine List.pairwise_append.mpr ⟨pairwise_runSite .., ih .., fun s hs t ht => ?_⟩
      have stop := (le_start_of_mem_runSite hs).2
      have start := le_start_of_mem_scanSitesFrom ht
      rw [List.length_nil] at start
      omega

/-- Words come in text order, with something between each two. -/
theorem scanSites_separated (text : List Char) :
    (scanSites text).Pairwise fun s t => s.word.stop < t.word.start :=
  scanSitesFrom_separated 0 [] [] text

end LexLint
