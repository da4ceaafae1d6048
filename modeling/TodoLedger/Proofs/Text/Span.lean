import Mathlib.Data.List.TakeWhile
import Mathlib.Tactic.Common
/-!
# Leading runs

A list falls into the longest beginning whose elements all have a property and the rest.
-/

namespace TodoLedger.Span

variable {α : Type} {p : α → Bool}

theorem drop_length_takeWhile (l : List α) :
    l.drop (l.takeWhile p).length = l.dropWhile p := by
  induction l with
  | nil => rfl
  | cons a l ih =>
      rw [List.takeWhile_cons, List.dropWhile_cons]
      split_ifs with ha
      · simpa using ih
      · rfl

/-- The run ends where the first element without the property stands. -/
theorem takeWhile_append_cons {s t : List α} {a : α} (hs : ∀ b ∈ s, p b = true)
    (ha : p a = false) : (s ++ a :: t).takeWhile p = s := by
  rw [List.takeWhile_append_of_pos hs]
  simp [ha]

theorem dropWhile_append_cons {s t : List α} {a : α} (hs : ∀ b ∈ s, p b = true)
    (ha : p a = false) : (s ++ a :: t).dropWhile p = a :: t := by
  rw [List.dropWhile_append_of_pos hs]
  simp [ha]

theorem not_of_dropWhile_eq_cons {l t : List α} {a : α} (h : l.dropWhile p = a :: t) :
    p a = false := by
  have hne : l.dropWhile p ≠ [] := by simp [h]
  have hhead := List.head_dropWhile_not p hne
  simpa [h] using hhead

/-- The run up to an element ends in front of its first occurrence. -/
theorem takeWhile_ne_append_cons [DecidableEq α] {s t : List α} {a : α} (h : a ∉ s) :
    (s ++ a :: t).takeWhile (fun b => b ≠ a) = s := by
  refine takeWhile_append_cons (fun b hb => ?_) (by simp)
  rw [decide_eq_true_eq]
  rintro rfl
  exact h hb

/-- The parts before and behind the first of some element are settled by the list. -/
theorem split_at_first {s t u v : List α} {a : α} (hs : a ∉ s) (ht : a ∉ t)
    (h : s ++ a :: u = t ++ a :: v) : s = t ∧ u = v := by
  classical
  obtain rfl : s = t := by
    rw [← takeWhile_ne_append_cons (t := u) hs, h, takeWhile_ne_append_cons ht]
  exact ⟨rfl, (List.cons.inj (List.append_cancel_left h)).2⟩

/-- A list that goes on behind the run up to an element goes on with that element. -/
theorem exists_append_of_takeWhile_ne [DecidableEq α] {l : List α} {a : α}
    (h : (l.takeWhile fun b => b ≠ a).length ≠ l.length) :
    (a ∉ l.takeWhile fun b => b ≠ a) ∧ ∃ r, l = (l.takeWhile fun b => b ≠ a) ++ a :: r := by
  refine ⟨fun hmem => by simpa using List.mem_takeWhile_imp hmem, ?_⟩
  have hsplit := List.takeWhile_append_dropWhile (p := fun b => decide (b ≠ a)) (l := l)
  cases hdrop : l.dropWhile fun b => b ≠ a with
  | nil =>
      rw [hdrop, List.append_nil] at hsplit
      exact absurd (congrArg List.length hsplit) h
  | cons b r =>
      obtain rfl : b = a := by simpa using not_of_dropWhile_eq_cons hdrop
      rw [hdrop] at hsplit
      exact ⟨r, hsplit.symm⟩

theorem not_of_head?_dropWhile {l : List α} {a : α} (h : (l.dropWhile p).head? = some a) :
    p a = false := by
  obtain ⟨t, ht⟩ := List.head?_eq_some_iff.mp h
  exact not_of_dropWhile_eq_cons ht

theorem dropWhile_append_of_ne_nil {s : List α} (h : s.dropWhile p ≠ []) (t : List α) :
    (s ++ t).dropWhile p = s.dropWhile p ++ t := by
  rw [List.dropWhile_append, if_neg (by simpa using h)]

theorem getLast?_dropWhile {s : List α} (h : s.dropWhile p ≠ []) :
    (s.dropWhile p).getLast? = s.getLast? := by
  conv_rhs => rw [← List.takeWhile_append_dropWhile (p := p) (l := s)]
  rw [List.getLast?_append, List.getLast?_eq_some_getLast h]
  rfl

theorem dropWhile_ne_nil {s : List α} {a : α} (ha : a ∈ s) (hp : p a = false) :
    s.dropWhile p ≠ [] := by
  intro hnil
  have htrue := List.dropWhile_eq_nil_iff.mp hnil a ha
  rw [hp] at htrue
  cases htrue

end TodoLedger.Span
