import TodoLedger.Proofs.Text.Case
import TodoLedger.Proofs.Text.CaseImage
/-!
# Variants of ASCII letters

A word in any case may be spelled with the four characters outside ASCII that are variants of ASCII
letters. The case mappings see them in their own way. Two of them are upper case already, so that a word
with one of them is not the word in ASCII when it is written in upper case. And a word that shows in a
lower-case form was spelled in ASCII, but for a K and an I in front of a dot.
-/

namespace TodoLedger

namespace Rune

variable {c d : Rune}

/-- The dotted capital I and the Kelvin sign, which upper case leaves as they are. -/
def isCapitalVariant (c : Rune) : Bool := c = ofNat 0x130 || c = ofNat 0x212A

/-- A variant of an ASCII letter has the upper case of that letter, or is upper case itself. -/
theorem upper_of_letter (h : c.letter.IsBasic) :
    c.upper = if c.isCapitalVariant then [c] else c.letter.upper := by
  rcases isBasic_of_letter h with hbasic | rfl | rfl | rfl | rfl
  · have hall : ∀ n : Fin 0x80, (ofNat n).upper =
        if (ofNat n).isCapitalVariant then [ofNat n] else (ofNat n).letter.upper := by
      decide +kernel
    obtain ⟨n, rfl⟩ := exists_ascii hbasic.2
    exact hall n
  · decide +kernel
  · decide +kernel
  · decide +kernel
  · decide +kernel

theorem lower_of_ascii (h : c.code < 0x80) : c.lower = [c.letter] := by
  have hall : ∀ n : Fin 0x80, (ofNat n).lower = [(ofNat n).letter] := by decide +kernel
  obtain ⟨n, rfl⟩ := exists_ascii h
  exact hall n

/-- Only the dotted capital I and the Kelvin sign have ASCII characters in a lower-case form. -/
theorem eq_of_ascii_mem_lower (hc : ¬c.code < 0x80) (hd : d ∈ c.lower) (hascii : d.code < 0x80) :
    c = ofNat 0x130 ∧ d = ofChar 'i' ∨ c = ofNat 0x212A ∧ d = ofChar 'k' := by
  rw [lower, if_neg hc] at hd
  rcases Text.mapped_cases Text.lowerRuns Text.lowerExpansions c with
    ⟨image, hmem, himage⟩ | ⟨r, hr, hfirst, hlast, himage⟩ | himage
  · have hall : ∀ e ∈ Text.lowerExpansions, ∀ n ∈ e.2, (ofNat n).code < 0x80 →
        ofNat e.1 = ofNat 0x130 ∧ ofNat n = ofChar 'i' := by
      decide +kernel
    rw [himage] at hd
    obtain ⟨n, hn, rfl⟩ := List.mem_map.mp hd
    have hvalue := hall _ hmem n hn hascii
    rw [ofNat_code] at hvalue
    exact Or.inl hvalue
  · have hall : ∀ r ∈ Text.lowerRuns, (0x80 : Int) ≤ r.first + r.shift ∨ r.last < 0x80 ∨
        r.first = r.last ∧ ofNat r.first = ofNat 0x212A ∧
          ofNat (r.first + r.shift).toNat = ofChar 'k' := by
      decide +kernel
    rw [himage, List.mem_singleton] at hd
    subst hd
    rcases hall r hr with hhigh | hlow | ⟨hone, hkelvin, hvalue⟩
    · have := le_code_ofNat (n := (c.code + r.shift).toNat) (by omega)
      omega
    · omega
    · have hcode : r.first = c.code := by omega
      rw [hcode] at hkelvin hvalue
      rw [ofNat_code] at hkelvin
      exact Or.inr ⟨hkelvin, hvalue⟩
  · rw [himage, List.mem_singleton] at hd
    rw [hd] at hascii
    exact absurd hascii hc

end Rune

namespace Text

variable {s t word seen : Text}

/-! ## Upper case -/

/-- A word in any case has the upper case of the word, unless one of its letters stays as it is. -/
theorem upper_eq_upper_letters (hletters : ∀ c ∈ word, c.letter.IsBasic)
    (hplain : ∀ c ∈ word, c.isCapitalVariant = false) : upper word = upper (word.map Rune.letter) := by
  rw [upper, upper, List.flatMap_map]
  apply List.flatMap_congr
  intro c hc
  rw [Rune.upper_of_letter (hletters c hc), hplain c hc]
  rfl

theorem mem_upper_of_isCapitalVariant {c : Rune} (hmem : c ∈ word)
    (hc : c.isCapitalVariant = true) : c ∈ upper word := by
  refine List.mem_flatMap.mpr ⟨c, hmem, ?_⟩
  rw [Rune.isCapitalVariant, Bool.or_eq_true, decide_eq_true_eq, decide_eq_true_eq] at hc
  rcases hc with rfl | rfl
  · decide +kernel
  · decide +kernel

/-! ## Lower case -/

/-- A word of ASCII characters shows its letters in the lower-case form of a text. -/
theorem lowerAfter_of_ascii (h : ∀ c ∈ s, c.code < 0x80) (seen t : Text) :
    lowerAfter seen (s ++ t) = s.map Rune.letter ++ lowerAfter (s.reverse ++ seen) t := by
  induction s generalizing seen with
  | nil => rfl
  | cons c s ih =>
      obtain ⟨hc, hs⟩ := List.forall_mem_cons.mp h
      rw [List.cons_append, lowerAfter, if_neg (by omega), Rune.lower_of_ascii hc, ih hs]
      simp

/-- What a character adds to a lower-case form: its letter if it is of ASCII. Another one adds an ASCII
character only if this is a K, or an I with a dot above behind it. -/
private def Adds (c : Rune) (image : Text) : Prop :=
  c.code < 0x80 ∧ image = [c.letter] ∨ ∀ d ∈ image, d.code < 0x80 →
    d = Rune.ofChar 'k' ∨ d = Rune.ofChar 'i' ∧ image = [Rune.ofChar 'i', Rune.ofNat 0x307]

private theorem exists_adds (seen : Text) (c : Rune) (t : Text) : ∃ image, image ≠ [] ∧
    lowerAfter seen (c :: t) = image ++ lowerAfter (c :: seen) t ∧ Adds c image := by
  by_cases hsigma : c.code = 0x3A3
  · refine ⟨_, List.cons_ne_nil _ _, by rw [lowerAfter, if_pos hsigma], Or.inr fun d hd hascii => ?_⟩
    have hcodes : ∀ final : Bool, ¬(Rune.ofNat (if final then 0x3C2 else 0x3C3)).code < 0x80 := by
      decide
    rw [List.mem_singleton.mp hd] at hascii
    exact absurd hascii (hcodes _)
  · refine ⟨c.lower, Rune.lower_ne_nil c, by rw [lowerAfter, if_neg hsigma], ?_⟩
    by_cases hc : c.code < 0x80
    · exact Or.inl ⟨hc, Rune.lower_of_ascii hc⟩
    · right
      intro d hd hascii
      rcases Rune.eq_of_ascii_mem_lower hc hd hascii with ⟨rfl, rfl⟩ | ⟨-, hk⟩
      · exact Or.inr ⟨rfl, by decide +kernel⟩
      · exact Or.inl hk

/-- A word of ASCII without a K, whose last letter is no I. -/
structure ShowsSpelling (word : Text) : Prop where
  ascii : ∀ d ∈ word, d.code < 0x80 ∧ d ≠ Rune.ofChar 'k'
  last : word.getLast? ≠ some (Rune.ofChar 'i')

private theorem ShowsSpelling.tail {d : Rune} (h : ShowsSpelling (d :: word)) : ShowsSpelling word where
  ascii := fun e he => h.ascii e (List.mem_cons_of_mem _ he)
  last := by
    intro hlast
    apply h.last
    rw [List.getLast?_cons, hlast]
    rfl

/-- What such a word begins with is added by a character of ASCII. -/
private theorem Adds.ascii {c d : Rune} {image rest : Text} (hadds : Adds c image)
    (h : ShowsSpelling (d :: word)) (hne : image ≠ []) (hopens : d :: word <+: image ++ rest) :
    c.code < 0x80 ∧ image = [c.letter] := by
  apply hadds.resolve_right
  intro hothers
  cases image with
  | nil => exact hne rfl
  | cons e image =>
      rw [List.cons_append, List.cons_prefix_cons] at hopens
      obtain ⟨rfl, hrest⟩ := hopens
      obtain ⟨hascii, hk⟩ := h.ascii d List.mem_cons_self
      obtain ⟨hi, hwhole⟩ := (hothers d List.mem_cons_self hascii).resolve_left hk
      obtain ⟨-, rfl⟩ := List.cons.inj hwhole
      cases word with
      | nil => exact h.last (congrArg some hi)
      | cons e word =>
          -- what follows the I would be the dot
          rw [List.singleton_append, List.cons_prefix_cons] at hrest
          have hdot := (h.ascii e (by simp)).1
          rw [hrest.1] at hdot
          exact absurd hdot (by decide)

private theorem exists_prefix_of_lowerAfter (h : ShowsSpelling word)
    (hopens : word <+: lowerAfter seen t) :
    ∃ s, s <+: t ∧ s.map Rune.letter = word ∧ ∀ c ∈ s, c.code < 0x80 := by
  induction word generalizing seen t with
  | nil => exact ⟨[], List.nil_prefix, rfl, by simp⟩
  | cons d word ih =>
      cases t with
      | nil => simp [lowerAfter] at hopens
      | cons c t =>
          obtain ⟨image, hne, himage, hadds⟩ := exists_adds seen c t
          rw [himage] at hopens
          obtain ⟨hc, rfl⟩ := hadds.ascii h hne hopens
          rw [List.singleton_append, List.cons_prefix_cons] at hopens
          obtain ⟨s, hs, hletters, hcodes⟩ := ih h.tail hopens.2
          refine ⟨c :: s, List.cons_prefix_cons.mpr ⟨rfl, hs⟩, ?_,
            List.forall_mem_cons.mpr ⟨hc, hcodes⟩⟩
          rw [List.map_cons, hletters, hopens.1]

/-- An ASCII character other than a K is the first of what a character adds. -/
private theorem Adds.eq_nil {c d : Rune} {image before rest : Text} (h : Adds c image)
    (hd : d.code < 0x80 ∧ d ≠ Rune.ofChar 'k') (hsplit : image = before ++ d :: rest) :
    before = [] := by
  rcases h with ⟨-, rfl⟩ | hothers
  · cases before with
    | nil => rfl
    | cons b before => simp at hsplit
  · have hmem : d ∈ image := by
      rw [hsplit]
      simp
    obtain ⟨hi, himage⟩ := (hothers d hmem hd.1).resolve_left hd.2
    rw [himage] at hsplit
    cases before with
    | nil => rfl
    | cons b before =>
        -- a second character would be the dot
        obtain ⟨-, hdot⟩ := List.cons.inj hsplit
        cases before with
        | nil =>
            rw [hi] at hdot
            exact absurd (List.cons.inj hdot).1 (by decide)
        | cons b' before => simp at hdot

/-- Such a word stands in the lower-case form of a text exactly if the text has it, in ASCII letters of
any case. -/
theorem infix_lower_iff (h : ShowsSpelling word) (hne : word ≠ []) : word <:+: lower t ↔
    ∃ s, s <:+: t ∧ s.map Rune.letter = word ∧ ∀ c ∈ s, c.code < 0x80 := by
  constructor
  · suffices hafter : ∀ seen, word <:+: lowerAfter seen t →
        ∃ s, s <:+: t ∧ s.map Rune.letter = word ∧ ∀ c ∈ s, c.code < 0x80 from hafter []
    induction t with
    | nil =>
        intro seen hinfix
        exact absurd (List.infix_nil.mp hinfix) hne
    | cons c t ih =>
        rintro seen ⟨before, behind, hsplit⟩
        obtain ⟨image, -, himage, hadds⟩ := exists_adds seen c t
        have hlater : word <:+: lowerAfter (c :: seen) t → ∃ s, s <:+: c :: t ∧
            s.map Rune.letter = word ∧ ∀ c ∈ s, c.code < 0x80 := by
          intro hinfix
          obtain ⟨s, hs, hword⟩ := ih (c :: seen) hinfix
          exact ⟨s, List.infix_cons hs, hword⟩
        have hsplit' := hsplit
        rw [himage, List.append_assoc, List.append_eq_append_iff] at hsplit'
        obtain ⟨rest, hrest, hword⟩ | ⟨rest, hrest, hword⟩ := hsplit'
        · cases rest with
          | nil => exact hlater ⟨[], behind, hword⟩
          | cons e rest =>
              -- the word begins in the image, so that it begins with it
              obtain ⟨a, word, rfl⟩ := List.exists_cons_of_ne_nil hne
              obtain ⟨rfl, -⟩ := List.cons.inj hword
              have hbegins : before = [] :=
                hadds.eq_nil (h.ascii a List.mem_cons_self) hrest
              rw [hbegins, List.nil_append] at hsplit
              obtain ⟨s, hs, hword⟩ := exists_prefix_of_lowerAfter h ⟨behind, hsplit⟩
              exact ⟨s, hs.isInfix, hword⟩
        · exact hlater ⟨rest, behind, by rw [hword, List.append_assoc]⟩
  · rintro ⟨s, ⟨before, behind, rfl⟩, rfl, hcodes⟩
    obtain ⟨front, hfront⟩ := lowerAfter_append [] before (s ++ behind)
    rw [lower, List.append_assoc, hfront, lowerAfter_of_ascii hcodes]
    exact ⟨front, _, by rw [List.append_assoc]⟩

end Text

end TodoLedger
