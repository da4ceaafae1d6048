import TodoLedger.Issue
import TodoLedger.Sorted
import Mathlib.Data.List.Sort
/-!
# Laws of lists

`sorted` is the sort by insertion of the library, so that its laws carry over. The first occurrences
in a list are its elements, each once. Lists that are related pair by pair are so element by element.
-/

namespace TodoLedger

variable {α : Type} {le : α → α → Bool}

private theorem insertSorted_eq (le : α → α → Bool) (a : α) (l : List α) :
    insertSorted le a l = l.orderedInsert (fun a b => le a b = true) a := by
  induction l with
  | nil => rfl
  | cons b l ih => rw [insertSorted, ih, List.orderedInsert_cons]

theorem sorted_eq_insertionSort (le : α → α → Bool) (l : List α) :
    sorted le l = l.insertionSort (fun a b => le a b = true) := by
  induction l with
  | nil => rfl
  | cons a l ih => rw [sorted, ih, insertSorted_eq, List.insertionSort_cons]

theorem perm_sorted (le : α → α → Bool) (l : List α) : (sorted le l).Perm l := by
  rw [sorted_eq_insertionSort]
  exact List.perm_insertionSort _ l

@[simp] theorem mem_sorted {a : α} {l : List α} : a ∈ sorted le l ↔ a ∈ l :=
  (perm_sorted le l).mem_iff

theorem pairwise_sorted (htotal : ∀ a b, le a b || le b a)
    (htrans : ∀ a b c, le a b → le b c → le a c) (l : List α) :
    (sorted le l).Pairwise fun a b => le a b = true := by
  have : Std.Total fun a b => le a b = true := ⟨fun a b => by simpa using htotal a b⟩
  have : IsTrans α fun a b => le a b = true := ⟨htrans⟩
  rw [sorted_eq_insertionSort]
  exact List.pairwise_insertionSort _ l

theorem mem_distinct [DecidableEq α] {a : α} {l : List α} : a ∈ distinct l ↔ a ∈ l := by
  induction l with
  | nil => simp [distinct]
  | cons b l ih =>
      rw [distinct, List.mem_cons, List.mem_filter, ih, List.mem_cons]
      by_cases h : a = b <;> simp [h]

theorem nodup_distinct [DecidableEq α] (l : List α) : (distinct l).Nodup := by
  induction l with
  | nil => exact List.nodup_nil
  | cons b l ih =>
      rw [distinct, List.nodup_cons]
      exact ⟨by simp, ih.filter _⟩

theorem distinct_of_nodup [DecidableEq α] {l : List α} (h : l.Nodup) : distinct l = l := by
  induction l with
  | nil => rfl
  | cons b l ih =>
      obtain ⟨hb, hl⟩ := List.nodup_cons.mp h
      rw [distinct, ih hl, List.filter_eq_self.mpr]
      intro a ha
      simpa using fun hab : a = b => hb (hab ▸ ha)

/-! ## Lists that are related pair by pair -/

theorem forall₂_imp_of_mem {α β : Type} {R S : α → β → Prop} {as : List α} {bs : List β}
    (h : List.Forall₂ R as bs) (himp : ∀ a ∈ as, ∀ b, R a b → S a b) : List.Forall₂ S as bs := by
  induction h with
  | nil => exact .nil
  | cons hab _ ih =>
      obtain ⟨ha, has⟩ := List.forall_mem_cons.mp himp
      exact .cons (ha _ hab) (ih has)

/-- What relates two lists pair by pair relates each element of the second to one of the first. -/
theorem exists_of_mem_right {α β : Type} {R : α → β → Prop} {as : List α} {bs : List β}
    (h : List.Forall₂ R as bs) : ∀ b ∈ bs, ∃ a ∈ as, R a b := by
  induction h with
  | nil => simp
  | @cons a b as bs hab _ ih =>
      refine List.forall_mem_cons.mpr ⟨⟨a, by simp, hab⟩, fun b' hb' => ?_⟩
      obtain ⟨a', ha', hab'⟩ := ih b' hb'
      exact ⟨a', List.mem_cons_of_mem _ ha', hab'⟩

end TodoLedger
