import TodoLedger.Text.Search
import Mathlib.Tactic.Common
/-!
# Leading parts, first occurrences and cuts

A text starts with a pattern exactly when the pattern is a prefix of it. Where a pattern occurs first
is settled by the text up to the end of that occurrence. Cut at a character a text comes apart into
parts without that character, and no other parts are joined to it.
-/

namespace TodoLedger.Text

theorem dropLeading?_eq_some_iff {p t r : Text} : dropLeading? p t = some r ↔ t = p ++ r := by
  induction p generalizing t with
  | nil => simp [dropLeading?]
  | cons a p ih =>
      cases t with
      | nil => simp [dropLeading?]
      | cons b t =>
          by_cases h : a = b
          · simp [dropLeading?, h, ih]
          · simp [dropLeading?, h, Ne.symm h]

theorem startsWith_iff {t p : Text} : startsWith t p = true ↔ p <+: t := by
  rw [startsWith, Option.isSome_iff_exists]
  constructor
  · rintro ⟨r, hr⟩
    exact ⟨r, (dropLeading?_eq_some_iff.mp hr).symm⟩
  · rintro ⟨r, hr⟩
    exact ⟨r, dropLeading?_eq_some_iff.mpr hr.symm⟩

/-- A text is cut around an occurrence of the pattern. -/
theorem of_cut?_eq_some {p t before after : Text} (h : cut? p t = some (before, after)) :
    t = before ++ (p ++ after) := by
  induction t generalizing before with
  | nil =>
      rw [cut?] at h
      split_ifs at h with hempty
      cases h
      rw [List.isEmpty_iff.mp hempty]
      rfl
  | cons a t ih =>
      rw [cut?] at h
      cases hlead : dropLeading? p (a :: t) with
      | some rest =>
          simp only [hlead, Option.some.injEq, Prod.mk.injEq] at h
          obtain ⟨rfl, rfl⟩ := h
          exact (@dropLeading?_eq_some_iff p _ _).mp hlead
      | none =>
          simp only [hlead, Option.map_eq_some_iff] at h
          obtain ⟨⟨s, r⟩, hcut, hpair⟩ := h
          cases hpair
          rw [ih hcut]
          rfl

theorem dropLeading?_append (p r : Text) : dropLeading? p (p ++ r) = some r :=
  dropLeading?_eq_some_iff.mpr rfl

/-- A cut is at the first occurrence. -/
theorem exists_cut?_append (p s r : Text) : ∃ before after,
    cut? p (s ++ (p ++ r)) = some (before, after) ∧ before.length ≤ s.length := by
  induction s with
  | nil =>
      rw [List.nil_append]
      cases hpr : p ++ r with
      | nil =>
          obtain ⟨rfl, -⟩ := List.append_eq_nil_iff.mp hpr
          exact ⟨[], [], rfl, Nat.le_refl _⟩
      | cons a t =>
          refine ⟨[], r, ?_, Nat.le_refl _⟩
          rw [cut?, ← hpr, dropLeading?_append]
  | cons a s ih =>
      obtain ⟨before, after, hcut, hle⟩ := ih
      rw [List.cons_append, cut?]
      cases dropLeading? p (a :: (s ++ (p ++ r))) with
      | some rest => exact ⟨[], rest, rfl, Nat.zero_le _⟩
      | none => exact ⟨a :: before, after, by simp only [hcut, Option.map_some], Nat.succ_le_succ hle⟩

theorem includes_iff {t p : Text} : includes t p = true ↔ p <:+: t := by
  induction t with
  | nil => simp [includes, startsWith_iff]
  | cons c t ih =>
      rw [includes, Bool.or_eq_true, startsWith_iff, ih, List.infix_cons_iff]

/-- The first occurrence of a pattern does not depend on what stands behind it. -/
theorem cut?_exchange {p before r : Text} (s : Text)
    (h : cut? p (before ++ (p ++ r)) = some (before, r)) :
    cut? p (before ++ (p ++ s)) = some (before, s) := by
  induction before with
  | nil =>
      rw [List.nil_append]
      cases hps : p ++ s with
      | nil =>
          obtain ⟨rfl, rfl⟩ := List.append_eq_nil_iff.mp hps
          rfl
      | cons a t => rw [cut?, ← hps, dropLeading?_append]
  | cons a before ih =>
      rw [List.cons_append, cut?] at h ⊢
      cases hlead : dropLeading? p (a :: (before ++ (p ++ r))) with
      | some rest => simp [hlead] at h
      | none =>
          simp only [hlead, Option.map_eq_some_iff] at h
          obtain ⟨found, hcut, hpair⟩ := h
          obtain rfl : found = (before, r) := by
            simpa [Prod.ext_iff] using hpair
          cases hlead' : dropLeading? p (a :: (before ++ (p ++ s))) with
          | some rest =>
              -- such an occurrence would end before the exchanged part begins
              have hwhole : p <+: a :: (before ++ (p ++ s)) :=
                ⟨rest, (dropLeading?_eq_some_iff.mp hlead').symm⟩
              have hlength : p.length ≤ (a :: (before ++ p)).length := by
                simp only [List.length_cons, List.length_append]
                omega
              obtain ⟨x, hx⟩ := List.prefix_of_prefix_length_le hwhole ⟨s, by simp⟩ hlength
              have hsome : dropLeading? p (a :: (before ++ (p ++ r))) = some (x ++ r) := by
                rw [dropLeading?_eq_some_iff, ← List.append_assoc p, hx]
                simp
              rw [hlead] at hsome
              cases hsome
          | none => simp only [ih hcut, Option.map_some]

/-- The pattern cannot begin in some text in front of another: its last character does not occur
there, and the text ends in a character that the pattern does not have. -/
structure Apart (p lead : Text) : Prop where
  ne_nil : p ≠ []
  last : ∀ c, p.getLast? = some c → c ∉ lead
  seam : ∀ c, lead.getLast? = some c → c ∉ p

theorem Apart.of_cons {p lead : Text} {c : Rune} (h : Apart p (c :: lead)) : Apart p lead where
  ne_nil := h.ne_nil
  last := fun d hd hmem => h.last d hd (List.mem_cons_of_mem _ hmem)
  seam := by
    intro d hd
    apply h.seam
    rw [List.getLast?_cons, hd]
    rfl

theorem Apart.dropLeading?_eq_none {p lead : Text} (h : Apart p lead) (hne : lead ≠ []) (t : Text) :
    dropLeading? p (lead ++ t) = none := by
  cases hlead : dropLeading? p (lead ++ t) with
  | none => rfl
  | some rest =>
      exfalso
      have hsplit := dropLeading?_eq_some_iff.mp hlead
      have hleft : p <+: lead ++ t := ⟨rest, hsplit.symm⟩
      rcases Nat.le_total p.length lead.length with hle | hle
      · have hfits := List.prefix_of_prefix_length_le hleft (List.prefix_append lead t) hle
        have hlast := List.getLast?_eq_some_getLast h.ne_nil
        exact h.last _ hlast (hfits.subset (List.getLast_mem h.ne_nil))
      · have hfits := List.prefix_of_prefix_length_le (List.prefix_append lead t) hleft hle
        have hlast := List.getLast?_eq_some_getLast hne
        exact h.seam _ hlast (hfits.subset (List.getLast_mem hne))

theorem Apart.cut?_append {p lead : Text} (h : Apart p lead) (t : Text) :
    cut? p (lead ++ t) = (cut? p t).map fun found => (lead ++ found.1, found.2) := by
  induction lead with
  | nil => simp
  | cons c lead ih =>
      have hnone := h.dropLeading?_eq_none (List.cons_ne_nil c lead) t
      rw [List.cons_append] at hnone ⊢
      rw [cut?, hnone]
      simp only [ih h.of_cons, Option.map_map]
      rfl

/-! ## Cuts at a character -/

/-- Cutting at a character is the splitting of lists. -/
theorem splitAt_eq_splitOn (c : Rune) (t : Text) : splitAt c t = t.splitOn c := by
  induction t with
  | nil => rw [splitAt, List.splitOn_nil]
  | cons a t ih =>
      rw [splitAt, List.splitOn_cons_eq_if_modifyHead, ih]
      by_cases h : a = c
      · simp [h]
      · rw [if_neg h, beq_eq_false_iff_ne.mpr h]
        cases hsplit : t.splitOn c with
        | nil => exact absurd hsplit (List.splitOn_ne_nil c t)
        | cons p ps => rfl

theorem join_splitAt (c : Rune) (t : Text) : join [c] (splitAt c t) = t := by
  rw [splitAt_eq_splitOn]
  exact List.intercalate_splitOn _

theorem splitAt_join {c : Rune} {parts : List Text} (h : ∀ p ∈ parts, c ∉ p) (hne : parts ≠ []) :
    splitAt c (join [c] parts) = parts := by
  rw [splitAt_eq_splitOn]
  exact List.splitOn_intercalate _ h hne

theorem splitAt_append_cons (c : Rune) (s t : Text) :
    splitAt c (s ++ c :: t) = splitAt c s ++ splitAt c t := by
  rw [splitAt_eq_splitOn, splitAt_eq_splitOn, splitAt_eq_splitOn]
  exact List.splitOnP_append_cons s t (beq_self_eq_true c)

theorem splitAt_cons_self (c : Rune) (t : Text) : splitAt c (c :: t) = [] :: splitAt c t := by
  rw [splitAt, if_pos rfl]

theorem length_splitAt (c : Rune) (t : Text) : (splitAt c t).length = t.count c + 1 := by
  induction t with
  | nil => rfl
  | cons a t ih =>
      rw [splitAt]
      split_ifs with ha
      · rw [List.length_cons, ih, ha, List.count_cons_self]
      · rw [List.count_cons_of_ne ha, ← ih]
        cases hsplit : splitAt c t with
        | nil => simp [hsplit] at ih
        | cons p ps => rfl

/-- The parts of a text are parts of it without the character, the first of which stands in front. -/
theorem splitAt_spec (c : Rune) (t : Text) : (∀ p, (splitAt c t).head? = some p → p <+: t) ∧
    ∀ p ∈ splitAt c t, p <:+: t ∧ c ∉ p := by
  induction t with
  | nil => simp [splitAt]
  | cons a t ih =>
      obtain ⟨hhead, hall⟩ := ih
      rw [splitAt]
      split_ifs with ha
      · refine ⟨by simp, List.forall_mem_cons.mpr ⟨⟨List.nil_infix, by simp⟩, fun p hp => ?_⟩⟩
        exact ⟨List.infix_cons (hall p hp).1, (hall p hp).2⟩
      · cases hsplit : splitAt c t with
        | nil =>
            have hlength := length_splitAt c t
            rw [hsplit] at hlength
            simp at hlength
        | cons q qs =>
            rw [hsplit] at hhead hall
            obtain ⟨⟨-, hfree⟩, hrest⟩ := List.forall_mem_cons.mp hall
            have hfront : a :: q <+: a :: t := List.cons_prefix_cons.mpr ⟨rfl, hhead q rfl⟩
            refine ⟨fun p hp => Option.some.inj hp ▸ hfront, List.forall_mem_cons.mpr ⟨⟨hfront.isInfix, ?_⟩,
              fun p hp => ⟨List.infix_cons (hrest p hp).1, (hrest p hp).2⟩⟩⟩
            rw [List.mem_cons, not_or]
            exact ⟨Ne.symm ha, hfree⟩

end TodoLedger.Text
