import TodoLedger.Proofs.Text.Trim
import TodoLedger.Text.Case
/-!
# What case mappings reach

Outside ASCII the image of a character is listed, or it lies at the distance of a run, or it is the
character itself. So facts about all images are read off the tables. Texts that fold to one ASCII word
have one upper-case form, but for a word with a K, to which the Kelvin sign folds, and for one with a
double S. No colon arises in upper case.
-/

namespace TodoLedger

namespace Text

variable {runs : List CaseRun} {expansions : List (Nat × List Nat)}

theorem image?_eq_some {r : CaseRun} {n m : Nat} (h : r.image? n = some m) :
    r.first ≤ n ∧ n ≤ r.last ∧ m = (n + r.shift).toNat := by
  rw [CaseRun.image?] at h
  split_ifs at h with hrun
  simp only [Bool.and_eq_true, decide_eq_true_eq] at hrun
  exact ⟨hrun.1.1, hrun.1.2, (Option.some.inj h).symm⟩

private theorem mem_of_lookup {n : Nat} {image : List Nat} (h : expansions.lookup n = some image) :
    (n, image) ∈ expansions := by
  induction expansions with
  | nil => cases h
  | cons e expansions ih =>
      rw [List.lookup_cons] at h
      split at h
      · rename_i hsame
        obtain rfl := Option.some.inj h
        rw [beq_iff_eq] at hsame
        rw [hsame]
        exact List.mem_cons_self
      · exact List.mem_cons_of_mem _ (ih h)

/-- The image of a character is listed, or at the distance of a run, or the character. -/
theorem mapped_cases (runs : List CaseRun) (expansions : List (Nat × List Nat)) (c : Rune) :
    (∃ image, (c.code, image) ∈ expansions ∧
      mapped runs expansions c = image.map Rune.ofNat) ∨
    (∃ r ∈ runs, r.first ≤ c.code ∧ c.code ≤ r.last ∧
      mapped runs expansions c = [Rune.ofNat (c.code + r.shift).toNat]) ∨
    mapped runs expansions c = [c] := by
  rw [mapped]
  cases hlookup : expansions.lookup c.code with
  | some image => exact Or.inl ⟨image, mem_of_lookup hlookup, rfl⟩
  | none =>
      right
      cases hrun : runs.findSome? (·.image? c.code) with
      | none =>
          right
          rw [Option.getD_none, Rune.ofNat_code]
      | some n =>
          obtain ⟨r, hr, hn⟩ := List.exists_of_findSome?_eq_some hrun
          obtain ⟨hfirst, hlast, rfl⟩ := image?_eq_some hn
          exact Or.inl ⟨r, hr, hfirst, hlast, rfl⟩

/-- Where no image is listed as empty, none is. -/
theorem mapped_ne_nil (h : ∀ e ∈ expansions, e.2 ≠ []) (c : Rune) : mapped runs expansions c ≠ [] := by
  rcases mapped_cases runs expansions c with ⟨image, hmem, himage⟩ | ⟨r, -, -, -, himage⟩ | himage
  · rw [himage, ne_eq, List.map_eq_nil_iff]
    exact h _ hmem
  · rw [himage]
    exact List.cons_ne_nil _ _
  · rw [himage]
    exact List.cons_ne_nil _ _

end Text

namespace Rune

variable {c d : Rune}

theorem le_code_ofNat {n : Nat} (h : 0x80 ≤ n) : 0x80 ≤ (ofNat n).code := by
  rw [ofNat]
  split_ifs
  · exact h
  · decide

theorem exists_ascii (h : c.code < 0x80) : ∃ n : Fin 0x80, c = ofNat n :=
  ⟨⟨c.code, h⟩, (ofNat_code c).symm⟩

/-! ## Folded and upper-case forms -/

/-- A character that folds to ASCII characters other than K and a double S has their upper case. -/
theorem upper_of_fold (hascii : ∀ d ∈ c.fold, d.code < 0x80 ∧ d ≠ ofChar 'k')
    (hsharp : c.fold ≠ "ss".toText) : c.upper = Text.upper c.fold := by
  by_cases hc : c.code < 0x80
  · have hall : ∀ n : Fin 0x80, (ofNat n).upper = Text.upper (ofNat n).fold := by decide +kernel
    obtain ⟨n, rfl⟩ := exists_ascii hc
    exact hall n
  have hfold : c.fold = Text.mapped Text.foldRuns Text.foldExpansions c := by rw [fold, if_neg hc]
  rcases Text.mapped_cases Text.foldRuns Text.foldExpansions c with
    ⟨image, hmem, himage⟩ | ⟨r, hr, hfirst, hlast, himage⟩ | himage
  · have hall : ∀ e ∈ Text.foldExpansions, (∀ n ∈ e.2, (ofNat n).code < 0x80) →
        e.2.map ofNat ≠ "ss".toText → (ofNat e.1).upper = Text.upper (e.2.map ofNat) := by
      decide +kernel
    rw [hfold, himage] at hascii hsharp ⊢
    have hupper := hall _ hmem (fun n hn => (hascii _ (List.mem_map_of_mem hn)).1) hsharp
    rwa [ofNat_code] at hupper
  · have hall : ∀ r ∈ Text.foldRuns, (0x80 : Int) ≤ r.first + r.shift ∨ r.first = r.last ∧
        (ofNat (r.first + r.shift).toNat = ofChar 'k' ∨
          (ofNat r.first).upper = Text.upper [ofNat (r.first + r.shift).toNat]) := by
      decide +kernel
    rw [hfold, himage] at hascii ⊢
    obtain ⟨hlow, hkelvin⟩ := hascii _ (List.mem_singleton_self _)
    rcases hall r hr with hhigh | ⟨hone, hvalue⟩
    · have := le_code_ofNat (n := (c.code + r.shift).toNat) (by omega)
      omega
    · have hcode : r.first = c.code := by omega
      rw [hcode, ofNat_code] at hvalue
      exact hvalue.resolve_left hkelvin
  · rw [hfold, himage] at hascii
    exact absurd (hascii c (List.mem_singleton_self c)).1 hc

theorem upper_ne_nil (c : Rune) : c.upper ≠ [] := by
  rw [upper]
  split_ifs
  · exact List.cons_ne_nil _ _
  · exact List.cons_ne_nil _ _
  · exact Text.mapped_ne_nil (by decide +kernel) c

theorem lower_ne_nil (c : Rune) : c.lower ≠ [] := by
  rw [lower]
  split_ifs
  · exact List.cons_ne_nil _ _
  · exact List.cons_ne_nil _ _
  · exact Text.mapped_ne_nil (by decide +kernel) c

theorem eq_of_colon_mem_upper (h : ofChar ':' ∈ c.upper) : c = ofChar ':' := by
  by_cases hc : c.code < 0x80
  · have hall : ∀ n : Fin 0x80, ofChar ':' ∈ (ofNat n).upper → ofNat n = ofChar ':' := by decide +kernel
    obtain ⟨n, rfl⟩ := exists_ascii hc
    exact hall n h
  rw [upper, if_neg hc] at h
  rcases Text.mapped_cases Text.upperRuns Text.upperExpansions c with
    ⟨image, hmem, himage⟩ | ⟨r, hr, hfirst, hlast, himage⟩ | himage
  · have hall : ∀ e ∈ Text.upperExpansions, ofChar ':' ∉ e.2.map ofNat := by decide +kernel
    rw [himage] at h
    exact absurd h (hall _ hmem)
  · have hall : ∀ r ∈ Text.upperRuns, (0x80 : Int) ≤ r.first + r.shift ∨ r.first = r.last ∧
        ofChar ':' ≠ ofNat (r.first + r.shift).toNat := by
      decide +kernel
    rw [himage, List.mem_singleton] at h
    rcases hall r hr with hhigh | ⟨hone, hne⟩
    · have hcode := le_code_ofNat (n := (c.code + r.shift).toNat) (by omega)
      rw [← h] at hcode
      exact absurd hcode (by decide)
    · have hcode : r.first = c.code := by omega
      rw [hcode] at hne
      exact absurd h hne
  · rw [himage, List.mem_singleton] at h
    exact h.symm

end Rune

namespace Text

variable {t word : Text}

theorem upper_append (s t : Text) : upper (s ++ t) = upper s ++ upper t := List.flatMap_append

/-- Texts that fold to one ASCII word have the upper case of that word. -/
theorem upper_eq_of_fold (hword : ∀ d ∈ word, d.code < 0x80 ∧ d ≠ Rune.ofChar 'k')
    (hsharp : ¬"ss".toText <:+: word) (h : fold t = word) : upper t = upper word := by
  induction t generalizing word with
  | nil =>
      obtain rfl : word = [] := h.symm
      rfl
  | cons c t ih =>
      have hsplit : c.fold ++ fold t = word := h
      subst hsplit
      obtain ⟨hfront, hrest⟩ := List.forall_mem_append.mp hword
      have hone := Rune.upper_of_fold hfront fun hss => hsharp (by
        rw [hss]
        exact (List.prefix_append _ _).isInfix)
      have hothers := ih hrest (fun hss => hsharp (hss.trans (List.suffix_append _ _).isInfix)) rfl
      rw [upper_append, ← hone, ← hothers]
      rfl

theorem colon_not_mem_upper (h : Rune.ofChar ':' ∉ t) : Rune.ofChar ':' ∉ upper t := by
  intro hmem
  obtain ⟨c, hc, hcolon⟩ := List.mem_flatMap.mp hmem
  rw [Rune.eq_of_colon_mem_upper hcolon] at hc
  exact h hc

end Text

end TodoLedger
