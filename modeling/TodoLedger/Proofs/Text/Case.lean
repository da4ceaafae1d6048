import TodoLedger.Proofs.Text.OneLine
import TodoLedger.Text.Case
/-!
# Words in any case

A text starts with a word in any case exactly when its first characters are case variants of the
letters of the word. The upper-case forms of such variants have bytes that are read back.
-/

namespace TodoLedger

open Utf8

namespace Text

/-- The two texts are the same word in some case. -/
def SameWord (s t : Text) : Prop := s.map Rune.letter = t.map Rune.letter

theorem SameWord.length_eq {s t : Text} (h : SameWord s t) : s.length = t.length := by
  simpa using congrArg List.length h

/-- Each character of a word in some case is a variant of one of the word. -/
theorem SameWord.exists_letter {s t : Text} (h : SameWord s t) {c : Rune} (hc : c ∈ s) :
    ∃ d ∈ t, d.letter = c.letter := by
  have hletter : c.letter ∈ s.map Rune.letter := List.mem_map_of_mem hc
  rw [h] at hletter
  exact List.mem_map.mp hletter

theorem dropWord?_eq_some_iff {p t r : Text} :
    dropWord? p t = some r ↔ ∃ word, t = word ++ r ∧ SameWord word p := by
  induction p generalizing t with
  | nil => simp [dropWord?, SameWord, eq_comm]
  | cons a p ih =>
      cases t with
      | nil =>
          constructor
          · intro h
            cases h
          · rintro ⟨word, hsplit, hsame⟩
            obtain ⟨rfl, -⟩ := List.append_eq_nil_iff.mp hsplit.symm
            cases hsame
      | cons b t =>
          rw [dropWord?]
          constructor
          · intro h
            split_ifs at h with hletter
            obtain ⟨word, rfl, hsame⟩ := ih.mp h
            refine ⟨b :: word, rfl, ?_⟩
            rw [SameWord, List.map_cons, List.map_cons, hletter, hsame]
          · rintro ⟨word, hsplit, hsame⟩
            cases word with
            | nil => cases hsame
            | cons d word =>
                obtain ⟨rfl, rfl⟩ := List.cons.inj hsplit
                obtain ⟨hletter, hrest⟩ := List.cons.inj hsame
                rw [if_pos hletter.symm]
                exact ih.mpr ⟨word, rfl, hrest⟩

end Text

namespace Rune

variable {c d : Rune}

/-- Only four characters outside ASCII are variants of ASCII letters. -/
theorem isBasic_of_letter (h : c.letter.IsBasic) : c.IsBasic ∨
    c = ofNat 0x212A ∨ c = ofNat 0x130 ∨ c = ofNat 0x131 ∨ c = ofNat 0x17F := by
  rw [letter] at h
  split_ifs at h with hcapital hkelvin hi hs
  · left
    simp only [Bool.and_eq_true, decide_eq_true_eq] at hcapital
    constructor
    · omega
    · omega
  · exact Or.inr (Or.inl (Rune.ext hkelvin))
  · simp only [Bool.or_eq_true, decide_eq_true_eq] at hi
    rcases hi with hi | hi
    · exact Or.inr (Or.inr (Or.inl (Rune.ext hi)))
    · exact Or.inr (Or.inr (Or.inr (Or.inl (Rune.ext hi))))
  · exact Or.inr (Or.inr (Or.inr (Or.inr (Rune.ext hs))))
  · exact Or.inl h

theorem plain_upper_of_letter (h : c.letter.IsBasic) :
    ∀ d ∈ c.upper, isEncodable d = true ∧ isEscape d = false := by
  rcases isBasic_of_letter h with hbasic | rfl | rfl | rfl | rfl
  · have hascii : c.code < 0x80 := hbasic.2
    intro d hd
    rw [upper, if_pos hascii, List.mem_singleton] at hd
    have hplain : d.IsBasic := by
      rw [hd]
      split_ifs with hletter
      · simp only [Bool.and_eq_true, decide_eq_true_eq] at hletter
        have hcode : (ofNat (c.code - 32)).code = c.code - 32 := code_ofNat (by omega)
        constructor
        · omega
        · omega
      · exact hbasic
    exact ⟨hplain.plain.1, hplain.plain.2.1⟩
  · decide +kernel
  · decide +kernel
  · decide +kernel
  · decide +kernel

end Rune

theorem isStable_of_plain {t : Text} (h : ∀ c ∈ t, isEncodable c = true ∧ isEscape c = false) :
    IsStable t := by
  induction t with
  | nil => trivial
  | cons c t ih =>
      obtain ⟨⟨hencodable, hescape⟩, ht⟩ := List.forall_mem_cons.mp h
      exact (isStable_cons hencodable hescape).mpr (ih ht)

/-- The upper-case form of an ASCII word in any case is stable. -/
theorem Text.isStable_upper {word p : Text} (h : SameWord word p)
    (hp : ∀ c ∈ p, c.letter.IsBasic) : IsStable (upper word) := by
  apply isStable_of_plain
  intro d hd
  obtain ⟨c, hc, hd⟩ := List.mem_flatMap.mp hd
  obtain ⟨a, ha, hsame⟩ := h.exists_letter hc
  exact Rune.plain_upper_of_letter (hsame ▸ hp a ha) d hd

namespace Text

/-! ## Lower case -/

theorem lowerAfter_append (seen s t : Text) :
    ∃ front, lowerAfter seen (s ++ t) = front ++ lowerAfter (s.reverse ++ seen) t := by
  induction s generalizing seen with
  | nil => exact ⟨[], rfl⟩
  | cons c s ih =>
      obtain ⟨front, hfront⟩ := ih (c :: seen)
      rw [List.cons_append, lowerAfter, hfront, ← List.append_assoc, List.reverse_cons,
        List.append_assoc s.reverse]
      exact ⟨_, rfl⟩

/-- Lower-case characters stay wherever they stand. -/
theorem lowerAfter_of_lower {s : Text} (h : ∀ c ∈ s, c.code ≠ 0x3A3 ∧ c.lower = [c])
    (seen t : Text) : lowerAfter seen (s ++ t) = s ++ lowerAfter (s.reverse ++ seen) t := by
  induction s generalizing seen with
  | nil => rfl
  | cons c s ih =>
      obtain ⟨⟨hsigma, hlower⟩, hs⟩ := List.forall_mem_cons.mp h
      rw [List.cons_append, lowerAfter, if_neg hsigma, hlower, ih hs]
      simp

/-- A character that no sigma sees at the front of a text has no effect on the rest of it. -/
theorem lowerAfter_concat {c : Rune} (hc : seesCased [c] = false) (seen t : Text) :
    lowerAfter (seen ++ [c]) t = lowerAfter seen t := by
  have hsees : ∀ s, seesCased (s ++ [c]) = seesCased s := by
    intro s
    rw [seesCased, seesCased, List.dropWhile_append]
    cases hdrop : s.dropWhile (Rune.within caseIgnorableRanges) with
    | nil => simpa [seesCased] using hc
    | cons d r => rfl
  induction t generalizing seen with
  | nil => rfl
  | cons d t ih => rw [lowerAfter, lowerAfter, hsees, ← List.cons_append, ih]

end Text

end TodoLedger
