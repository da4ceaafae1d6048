import TodoLedger.Edit
import Mathlib.Tactic.Common
/-!
# Edits of one line

An edit that changes something puts new lines in the place of its target. The lines before and behind
the target stay.
-/

namespace TodoLedger.Edit

variable {e : Edit} {p : Path} {lines ls : List Line} {m : Text} {count i : Nat} {line : Int}

theorem eq_of_index? (h : index? count line = some i) : line = (i + 1 : Nat) := by
  rw [index?] at h
  split_ifs at h with hrange
  have hi := Option.some.inj h
  omega

theorem apply_eq_changed (h : e.apply p lines = .ok (.changed ls m)) :
    ∃ front l back new, lines = front ++ l :: back ∧ e.target = (front.length + 1 : Nat) ∧
      e.applyLine (CommentSyntax.ofPath p) l = .ok (new, m) ∧ ls = front ++ new ++ back := by
  rw [apply] at h
  cases hfound : (index? lines.length e.target).bind fun i => (lines[i]?).map (i, ·) with
  | none =>
      rw [hfound] at h
      cases h
  | some found =>
      obtain ⟨i, l⟩ := found
      rw [hfound] at h
      obtain ⟨k, hindex, hline⟩ := Option.bind_eq_some_iff.mp hfound
      obtain ⟨l', hl, hpair⟩ := Option.map_eq_some_iff.mp hline
      cases hpair
      obtain ⟨hlt, rfl⟩ := List.getElem?_eq_some_iff.mp hl
      simp only at h
      split at h
      · cases h
      · rename_i new message hnew
        cases h
        refine ⟨lines.take i, lines[i], lines.drop (i + 1), new, ?_, ?_, hnew, rfl⟩
        · rw [List.getElem_cons_drop hlt, List.take_append_drop]
        · rw [List.length_take_of_le (Nat.le_of_lt hlt)]
          exact eq_of_index? hindex

/-- The edit of a line is that of its place. -/
theorem apply_at {l : Line} {front back : List Line} (hline : e.target = (front.length + 1 : Nat)) :
    e.apply p (front ++ l :: back) =
      match e.applyLine (CommentSyntax.ofPath p) l with
      | .error message => .ok (.unchanged message)
      | .ok (new, message) => .ok (.changed (front ++ new ++ back) message) := by
  have hindex : index? (front ++ l :: back).length e.target = some front.length := by
    rw [index?, hline, List.length_append, List.length_cons, if_pos (by omega)]
    simp
  have hl : (front ++ l :: back)[front.length]? = some l := by simp
  rw [apply, hindex]
  simp only [Option.bind_some, hl, Option.map_some]
  have htake : (front ++ l :: back).take front.length = front := by simp
  have hdrop : (front ++ l :: back).drop (front.length + 1) = back := by
    rw [← List.drop_drop, List.drop_left]
    rfl
  cases e.applyLine (CommentSyntax.ofPath p) l with
  | error message => rfl
  | ok made => simp only [htake, hdrop]

/-- The edit of a line that is looked up by its position. -/
theorem apply_getElem? {l : Line} {k : Nat} (hline : e.target = (k + 1 : Nat))
    (hl : lines[k]? = some l) : e.apply p lines =
      match e.applyLine (CommentSyntax.ofPath p) l with
      | .error message => .ok (.unchanged message)
      | .ok (new, message) => .ok (.changed (lines.take k ++ new ++ lines.drop (k + 1)) message) := by
  obtain ⟨hlt, rfl⟩ := List.getElem?_eq_some_iff.mp hl
  have hsplit : lines = lines.take k ++ lines[k] :: lines.drop (k + 1) := by
    rw [List.getElem_cons_drop hlt, List.take_append_drop]
  conv_lhs => rw [hsplit]
  apply apply_at
  rw [List.length_take_of_le (Nat.le_of_lt hlt)]
  exact hline

end TodoLedger.Edit
