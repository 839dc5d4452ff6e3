import LexLint.Checker.Dictionaries
import LexLint.Proofs.Text.Trim
import LexLint.Scan.Bracket

/-!
# Brackets and braces where they stand

A bracket at fault stands at the offset that is given for it (`getElem?_of_mem_scanBrackets`), and
only blanks stand between a word and the brace looked for after it
(`Dictionaries.braceWithin?_eq_some`).
-/

namespace LexLint

theorem getElem?_of_mem_scanBracketsFrom {offset : Nat} {stack : List (Bracket × Nat)}
    (pre : List Char) {rest : List Char} {e : BracketEvent}
    (h : e ∈ scanBracketsFrom offset stack rest) (place : offset = pre.length)
    (opened : ∀ b ∈ stack, (pre ++ rest)[b.2]? = some b.1.opener) :
    (pre ++ rest)[e.offset]? = some e.char := by
  induction rest generalizing offset stack pre with
  | nil =>
    simp only [scanBracketsFrom, List.mem_map, List.mem_reverse] at h
    obtain ⟨b, member, rfl⟩ := h
    exact opened b member
  | cons c rest ih =>
    have here : (pre ++ c :: rest)[offset]? = some c := by
      rw [place, List.getElem?_append_right (Nat.le_refl _), Nat.sub_self]
      rfl
    -- The rest of the scan has one more character behind it and a stack of openers found so far.
    have next {stack' : List (Bracket × Nat)}
        (later : e ∈ scanBracketsFrom (offset + 1) stack' rest)
        (opened' : ∀ b ∈ stack', (pre ++ c :: rest)[b.2]? = some b.1.opener) :
        (pre ++ c :: rest)[e.offset]? = some e.char := by
      have found := ih (pre ++ [c]) later (by simp [place]) (by simpa using opened')
      simpa using found
    simp only [scanBracketsFrom] at h
    split at h
    · rename_i b opener
      refine next h (List.forall_mem_cons.mpr ⟨?_, opened⟩)
      rw [here, Bracket.ofOpener?_eq_some.mp opener]
    · split at h
      · exact next h opened
      · rename_i b closer
        have closes : (pre ++ c :: rest)[offset]? = some b.closer := by
          rw [here, Bracket.ofCloser?_eq_some.mp closer]
        split at h
        · rcases List.mem_cons.mp h with rfl | later
          · exact closes
          · exact next later opened
        · rename_i top _ below
          have remaining := (List.forall_mem_cons.mp opened).2
          split at h
          · exact next h remaining
          · rcases List.mem_cons.mp h with rfl | later
            · exact closes
            · exact next later remaining

/-- A bracket at fault stands where the scan says. -/
theorem getElem?_of_mem_scanBrackets {text : List Char} {e : BracketEvent}
    (h : e ∈ scanBrackets text) : text[e.offset]? = some e.char :=
  getElem?_of_mem_scanBracketsFrom [] h rfl (by simp)

theorem Dictionaries.braceWithin?_eq_some {window distance : Nat} {s : List Char}
    (h : braceWithin? window s = some distance) :
    ∃ blanks rest, AllBlank blanks ∧ blanks.length = distance ∧ s = blanks ++ '\x7b' :: rest := by
  induction window generalizing s distance with
  | zero => cases h
  | succ window ih =>
    cases s with
    | nil => cases h
    | cons c tail =>
      simp only [braceWithin?] at h
      by_cases brace : c = '\x7b'
      · rw [if_pos brace] at h
        obtain rfl := Option.some.inj h
        exact ⟨[], tail, by simp [AllBlank], rfl, by rw [brace]; rfl⟩
      · rw [if_neg brace] at h
        by_cases blank : isBlank c = true
        · rw [if_pos blank, Option.map_eq_some_iff] at h
          obtain ⟨closer, found, rfl⟩ := h
          obtain ⟨blanks, rest, all, size, rfl⟩ := ih found
          exact ⟨c :: blanks, rest, List.forall_mem_cons.mpr ⟨blank, all⟩,
            by rw [List.length_cons, size], rfl⟩
        · rw [if_neg blank] at h
          cases h

end LexLint
