import TodoLedger.Link
import TodoLedger.Proofs.Comment.Marker
import TodoLedger.Proofs.Comment.Syntax
import TodoLedger.Proofs.Text.Numeral
import TodoLedger.Workspace
/-!
# The ids of gathered issues

An id is made of a time and a token of eight hexadecimal digits. It consists of letters, digits and
dashes, so that it can stand in a marker, and the marker in any comment. The tokens are drawn at
random. That those of a run are distinct is a hypothesis where it is needed.
-/

namespace TodoLedger

/-- An ASCII letter, a digit or a dash. -/
def Rune.IsSlug (c : Rune) : Prop :=
  c.code < 0x80 ∧ (c = Rune.ofChar '-' ∨ c.isAlphanumeric = true)

instance (c : Rune) : Decidable c.IsSlug := inferInstanceAs (Decidable (_ ∧ _))

def Rune.IsHexDigit (c : Rune) : Prop :=
  c.IsDigit ∨ (65 ≤ c.code ∧ c.code ≤ 70) ∨ (97 ≤ c.code ∧ c.code ≤ 102)

instance (c : Rune) : Decidable c.IsHexDigit :=
  inferInstanceAs (Decidable ((48 ≤ c.code ∧ c.code ≤ 57) ∨ _))

/-- What a new id ends in. -/
structure IsToken (token : Text) : Prop where
  length : token.length = 8
  digits : ∀ c ∈ token, c.IsHexDigit

namespace Rune

variable {c : Rune}

theorem IsHexDigit.isSlug (h : c.IsHexDigit) : c.IsSlug := by
  have hrange : (48 ≤ c.code ∧ c.code ≤ 57) ∨ (65 ≤ c.code ∧ c.code ≤ 70) ∨
    (97 ≤ c.code ∧ c.code ≤ 102) := h
  have hascii : c.code < 0x80 := by omega
  refine ⟨hascii, Or.inr ?_⟩
  rw [isAlphanumeric, if_pos hascii, isAsciiDigit]
  simp only [Bool.or_eq_true, Bool.and_eq_true, decide_eq_true_eq]
  omega

theorem IsDigit.isSlug (h : c.IsDigit) : c.IsSlug := IsHexDigit.isSlug (Or.inl h)

/-- Apart from the dash these are the letters and digits of ASCII. -/
theorem IsSlug.code_cases (h : c.IsSlug) : c.code = 45 ∨ (48 ≤ c.code ∧ c.code ≤ 57) ∨
    (65 ≤ c.code ∧ c.code ≤ 90) ∨ (97 ≤ c.code ∧ c.code ≤ 122) := by
  obtain ⟨hascii, rfl | halpha⟩ := h
  · exact Or.inl rfl
  · rw [isAlphanumeric, if_pos hascii, isAsciiDigit] at halpha
    simp only [Bool.or_eq_true, Bool.and_eq_true, decide_eq_true_eq] at halpha
    omega

theorem IsSlug.isVisible (h : c.IsSlug) : c.IsVisible := by
  have hcode := h.code_cases
  constructor
  · omega
  · omega

theorem IsSlug.isIdRune (h : c.IsSlug) : Marker.isIdRune c = true := by
  have hcode := h.code_cases
  have hend : c ≠ Rune.ofChar ']' := by
    rintro rfl
    have hbracket : (Rune.ofChar ']').code = 93 := rfl
    omega
  rw [Marker.isIdRune, h.isVisible.isBlank]
  simp [hend]

end Rune

theorem isHexDigit_of_mem_hex {c : Rune} {width n : Nat} (h : c ∈ Text.hex width n) :
    c.IsHexDigit := by
  have hcode := Text.code_of_mem_hex h
  have hrange : (48 ≤ c.code ∧ c.code ≤ 57) ∨ (65 ≤ c.code ∧ c.code ≤ 70) ∨
    (97 ≤ c.code ∧ c.code ≤ 102) := by omega
  exact hrange

theorem IsToken.isVisible {token : Text} (h : IsToken token) : ∀ c ∈ token, c.IsVisible :=
  fun c hc => (h.digits c hc).isSlug.isVisible

theorem Workspace.isToken_token (w : Workspace) (n : Nat) : IsToken (w.token n) where
  length := Text.length_hex (by decide) (UInt32.toNat_lt _)
  digits := fun _ hc => isHexDigit_of_mem_hex hc

/-- When a token has been drawn the next one is the first. -/
theorem Workspace.token_drawn (w : Workspace) (n : Nat) :
    token { w with tokens := w.tokens + 1 } n = w.token (n + 1) := by
  simp only [token, Nat.add_assoc, Nat.add_comm 1 n]

/-- The next tokens, as many as are asked for, are distinct. -/
def Workspace.DrawsDistinct (w : Workspace) (n : Nat) : Prop :=
  ∀ i < n, ∀ j < n, w.token i = w.token j → i = j

/-- Tokens are distinct just as the random numbers are that they show. -/
theorem Workspace.drawsDistinct_iff {w : Workspace} {n : Nat} : w.DrawsDistinct n ↔
    ∀ i < n, ∀ j < n, w.random (w.tokens + i) = w.random (w.tokens + j) → i = j := by
  have hsame : ∀ i j,
      w.token i = w.token j ↔ w.random (w.tokens + i) = w.random (w.tokens + j) := fun i j => by
    rw [token, token, (Text.hex_injective 8).eq_iff, UInt32.toNat_inj]
  simp only [DrawsDistinct, hsame]

variable {token id : Text} {now : DateTime}

theorem isSlug_gatheredId (htoken : ∀ c ∈ token, c.IsHexDigit) :
    ∀ c ∈ gatheredId now token, c.IsSlug := by
  have hdate : ∀ c ∈ now.dateDigits, c.IsSlug := fun c hc =>
    (DateTime.isDigit_of_mem_dateDigits hc).isSlug
  have htime : ∀ c ∈ now.timeDigits, c.IsSlug := fun c hc =>
    (DateTime.isDigit_of_mem_timeDigits hc).isSlug
  have hgather : ∀ c ∈ ("gather-" : Text), c.IsSlug := by decide
  have hdash : ∀ c ∈ ("-" : Text), c.IsSlug := by decide
  simp only [gatheredId, List.forall_mem_append]
  exact ⟨⟨⟨⟨⟨hgather, hdate⟩, hdash⟩, htime⟩, hdash⟩, fun c hc => (htoken c hc).isSlug⟩

/-- No comment is closed by a marker with such an id, nor by its end and what follows. -/
theorem CommentForm.IsKnown.apart_marker {form : CommentForm} (h : form.IsKnown)
    (hid : ∀ c ∈ id, c.IsSlug) :
    ∀ closer ∈ form.closers, Text.Apart closer (" " ++ (Marker.text id ++ " ")) := by
  intro closer hcloser
  obtain ⟨hne, hspace⟩ := h.closer closer hcloser
  constructor
  · exact hne
  · intro c hc hmem
    obtain ⟨hdash, halpha, hmarker⟩ := h.last closer hcloser c (by rw [hc]; exact List.mem_singleton_self c)
    have hparts : c ∈ (" [orgi:] " : Text) ∨ c ∈ id := by
      have hsplit : (" [orgi:] " : Text) = " " ++ Marker.opening ++ "]" ++ " " := rfl
      simp only [Marker.text, List.mem_append] at hmem
      simp only [hsplit, List.mem_append]
      tauto
    rcases hparts with hfixed | hslug
    · exact hmarker hfixed
    · rcases (hid c hslug).2 with hc' | hc'
      · exact hdash hc'
      · rw [halpha] at hc'
        cases hc'
  · intro c hc hmem
    have hblank : c = Rune.ofChar ' ' := by
      rw [← List.append_assoc, List.getLast?_append] at hc
      exact (Option.some.inj hc).symm
    have hspace' := hspace c hmem
    rw [hblank] at hspace'
    revert hspace'
    decide

end TodoLedger
