import TodoLedger.Proofs.Text.Numeral
import Mathlib.Tactic.Ring
/-!
# The order of texts

Texts are compared as the lists of their code points. Numerals of one width are in the order of their
numbers.
-/

namespace TodoLedger

namespace Text

variable {s t u v : Text} {n m width : Nat}

theorem le_cons_cons (a b : Rune) (s t : Text) : le (a :: s) (b :: t) = true ↔
    a.code < b.code ∨ a.code = b.code ∧ le s t = true := by
  rw [le]
  split_ifs with hcode <;> simp [hcode]

@[simp] theorem le_refl (t : Text) : le t t = true := by
  induction t with
  | nil => rfl
  | cons c t ih => exact (le_cons_cons c c t t).mpr (Or.inr ⟨rfl, ih⟩)

theorem le_total (s t : Text) : le s t || le t s := by
  rw [Bool.or_eq_true]
  induction s generalizing t with
  | nil => exact Or.inl rfl
  | cons a s ih =>
      cases t with
      | nil => exact Or.inr rfl
      | cons b t =>
          rw [le_cons_cons, le_cons_cons]
          rcases Nat.lt_trichotomy a.code b.code with hlt | heq | hgt
          · exact Or.inl (Or.inl hlt)
          · exact (ih t).imp (fun h => Or.inr ⟨heq, h⟩) fun h => Or.inr ⟨heq.symm, h⟩
          · exact Or.inr (Or.inl hgt)

theorem le_trans (hst : le s t) (htu : le t u) : le s u := by
  induction s generalizing t u with
  | nil => rfl
  | cons a s ih =>
      cases t with
      | nil => cases hst
      | cons b t =>
          cases u with
          | nil => cases htu
          | cons c u =>
              rw [le_cons_cons] at hst htu ⊢
              rcases hst with hab | ⟨hab, hst⟩
              · exact Or.inl (htu.elim hab.trans fun hbc => hbc.1 ▸ hab)
              · exact htu.imp (hab ▸ ·) fun hbc => ⟨hab.trans hbc.1, ih hst hbc.2⟩

theorem le_antisymm (hst : le s t) (hts : le t s) : s = t := by
  induction s generalizing t with
  | nil =>
      cases t with
      | nil => rfl
      | cons b t => cases hts
  | cons a s ih =>
      cases t with
      | nil => cases hst
      | cons b t =>
          rw [le_cons_cons] at hst hts
          obtain ⟨hcode, hst, hts⟩ : a.code = b.code ∧ le s t ∧ le t s := by
            rcases hst with hab | ⟨hab, hst⟩ <;> rcases hts with hba | ⟨hba, hts⟩
            · omega
            · omega
            · omega
            · exact ⟨hab, hst, hts⟩
          rw [Rune.ext hcode, ih hst hts]

/-- One text is strictly before the other. -/
def Before (s t : Text) : Prop := le t s = false

theorem before_cons_cons (a b : Rune) (s t : Text) : Before (a :: s) (b :: t) ↔
    a.code < b.code ∨ a.code = b.code ∧ Before s t := by
  rw [Before, Before, le]
  split_ifs with hcode
  · simp [hcode]
  · rw [decide_eq_false_iff_not]
    omega

theorem Before.le (h : Before s t) : Text.le s t = true := by
  have htotal := le_total s t
  rw [Before] at h
  rwa [h, Bool.or_false] at htotal

theorem Before.ne (h : Before s t) : s ≠ t := by
  rintro rfl
  rw [Before, le_refl] at h
  cases h

theorem before_append_left : Before (s ++ t) (s ++ u) ↔ Before t u := by
  induction s with
  | nil => rfl
  | cons a s ih => simpa [before_cons_cons] using ih

/-- Of two texts of one length, what follows them does not change their order. -/
theorem Before.append (h : Before s t) (hlength : s.length = t.length) :
    Before (s ++ u) (t ++ v) := by
  induction s generalizing t with
  | nil =>
      obtain rfl : t = [] := List.length_eq_zero_iff.mp hlength.symm
      exact absurd rfl h.ne
  | cons a s ih =>
      cases t with
      | nil => cases hlength
      | cons b t =>
          rw [List.cons_append, List.cons_append, before_cons_cons]
          rw [before_cons_cons] at h
          rcases h with hcode | ⟨hcode, hrest⟩
          · exact Or.inl hcode
          · exact Or.inr ⟨hcode, ih hrest (Nat.succ.inj hlength)⟩

/-! ## Numerals of one width -/

private theorem foldl_digits_eq (t : Text) (init : Nat) :
    t.foldl (fun n c => 10 * n + (c.digit?.getD 0)) init =
      init * 10 ^ t.length + digitsValue t := by
  induction t generalizing init with
  | nil => simp [digitsValue]
  | cons c t ih =>
      rw [digitsValue, List.foldl_cons, List.foldl_cons, ih, ih (10 * 0 + _), List.length_cons]
      ring

theorem digitsValue_cons {c : Rune} (hc : c.IsDigit) (t : Text) :
    digitsValue (c :: t) = (c.code - 48) * 10 ^ t.length + digitsValue t := by
  rw [digitsValue, List.foldl_cons, foldl_digits_eq, hc.digit?_eq]
  simp

theorem digitsValue_lt (h : ∀ c ∈ t, c.IsDigit) : digitsValue t < 10 ^ t.length := by
  induction t with
  | nil => decide
  | cons c t ih =>
      obtain ⟨hc, ht⟩ := List.forall_mem_cons.mp h
      have hrest := ih ht
      have hdigit : c.code - 48 + 1 ≤ 10 := by
        have := hc.2
        omega
      have hscaled := Nat.mul_le_mul_right (10 ^ t.length) hdigit
      rw [digitsValue_cons hc, List.length_cons, Nat.pow_succ]
      rw [Nat.add_mul, Nat.one_mul] at hscaled
      omega

/-- Of two numerals of one width the one with the smaller number comes first. -/
theorem before_of_digitsValue (hs : ∀ c ∈ s, c.IsDigit) (ht : ∀ c ∈ t, c.IsDigit)
    (hlength : s.length = t.length) (h : digitsValue s < digitsValue t) : Before s t := by
  induction s generalizing t with
  | nil =>
      obtain rfl : t = [] := List.length_eq_zero_iff.mp hlength.symm
      exact absurd h (Nat.lt_irrefl _)
  | cons a s ih =>
      cases t with
      | nil => cases hlength
      | cons b t =>
          obtain ⟨ha, hs⟩ := List.forall_mem_cons.mp hs
          obtain ⟨hb, ht⟩ := List.forall_mem_cons.mp ht
          have hsame : s.length = t.length := Nat.succ.inj hlength
          rw [digitsValue_cons ha, digitsValue_cons hb, hsame] at h
          rw [before_cons_cons]
          rcases Nat.lt_trichotomy a.code b.code with hlt | heq | hgt
          · exact Or.inl hlt
          · rw [heq] at h
            exact Or.inr ⟨heq, ih hs ht hsame (Nat.add_lt_add_iff_left.mp h)⟩
          · exfalso
            have hrest := digitsValue_lt ht
            have hdigit : b.code - 48 + 1 ≤ a.code - 48 := by
              have := hb.1
              omega
            have hscaled := Nat.mul_le_mul_right (10 ^ t.length) hdigit
            rw [Nat.add_mul, Nat.one_mul] at hscaled
            omega

theorem before_padded (hwidth : 0 < width) (h : n < m) (hm : m < 10 ^ width) :
    Before (padded width n) (padded width m) := by
  apply before_of_digitsValue (fun c => isDigit_of_mem_padded) (fun c => isDigit_of_mem_padded)
  · rw [length_padded hwidth (h.trans hm), length_padded hwidth hm]
  · rwa [digitsValue_padded, digitsValue_padded]

/-- A number of so many digits needs no zeros in front. -/
theorem padded_of_le (hwidth : 0 < width) (h : 10 ^ width ≤ n) :
    padded (width + 1) n = ofNat n := by
  have hlong : ¬(ofNat n).length ≤ width := by
    rw [length_ofNat_le_iff hwidth]
    omega
  rw [padded, Nat.sub_eq_zero_of_le (Nat.lt_of_not_le hlong)]
  rfl

end Text

end TodoLedger
