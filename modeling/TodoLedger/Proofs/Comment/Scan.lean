import TodoLedger.Comment.Task
import TodoLedger.Proofs.Text.Case
import TodoLedger.Proofs.Text.Search
import TodoLedger.Proofs.Text.Trim
/-!
# What a scan finds

A scan of a line finds keywords in any case with texts that are parts of the line. Its offsets are
places in the line.
-/

namespace TodoLedger

namespace Scan

variable {t line word rest : Text} {f : Found}

theorem of_keyword?_eq_some (h : keyword? t = some (word, rest)) :
    t = word ++ Rune.ofChar ':' :: rest ∧ ∃ k ∈ taskKeywords, Text.SameWord word k := by
  obtain ⟨k, hk, hfound⟩ := List.exists_of_findSome?_eq_some h
  simp only [bind, Option.bind_eq_some_iff] at hfound
  obtain ⟨r, hdrop, hrest⟩ := hfound
  obtain ⟨w, rfl, hsame⟩ := Text.dropWord?_eq_some_iff.mp hdrop
  cases r with
  | nil => cases hrest
  | cons c r =>
      simp only at hrest
      split_ifs at hrest with hc
      rw [← hsame.length_eq, List.take_left] at hrest
      cases hrest
      rw [hc]
      exact ⟨rfl, k, hk, hsame⟩

theorem of_opened?_eq_some {opener : Text} (h : opened? opener t = some (word, rest)) :
    rest <:+ t ∧ t ≠ [] ∧ ∃ k ∈ taskKeywords, Text.SameWord word k := by
  simp only [opened?, bind, Option.bind_eq_some_iff] at h
  obtain ⟨r, hdrop, hkeyword⟩ := h
  have hopener := Text.dropLeading?_eq_some_iff.mp hdrop
  obtain ⟨hsplit, hword⟩ := of_keyword?_eq_some hkeyword
  have htrim : Text.trimStart r <:+ t := by
    rw [hopener]
    exact (List.dropWhile_suffix _).trans (List.suffix_append _ _)
  have hrest : rest <:+ Text.trimStart r := by
    rw [hsplit]
    exact (List.suffix_cons _ _).trans (List.suffix_append _ _)
  refine ⟨hrest.trans htrim, ?_, hword⟩
  rintro rfl
  rw [List.suffix_nil.mp htrim] at hsplit
  simp at hsplit

/-- What was found lies on the line. -/
structure Found.IsOn (f : Found) (offset : Nat) (line : Text) : Prop where
  offset_le : offset ≤ f.offset
  offset_lt : f.offset < offset + line.length
  keyword : ∃ k ∈ taskKeywords, Text.SameWord f.keyword k
  text : f.text <:+: line
  trimmed : Text.IsTrimmed f.text

theorem Found.IsOn.cons {offset : Nat} {c : Rune} (h : f.IsOn (offset + 1) line) :
    f.IsOn offset (c :: line) where
  offset_le := by
    have := h.offset_le
    omega
  offset_lt := by
    have := h.offset_lt
    rw [List.length_cons]
    omega
  keyword := h.keyword
  text := List.infix_cons h.text
  trimmed := h.trimmed

theorem isOn_of_mem_toLineEnd {opener : Text} {offset : Nat} (hf : f ∈ toLineEnd opener offset line) :
    f.IsOn offset line := by
  induction line generalizing offset with
  | nil => cases hf
  | cons c r ih =>
      rw [toLineEnd] at hf
      split at hf
      · rename_i word a rest hopened
        obtain ⟨hrest, -, hword⟩ := of_opened?_eq_some hopened
        obtain rfl := List.mem_singleton.mp hf
        refine ⟨Nat.le_refl _, Nat.lt_add_of_pos_right (Nat.succ_pos _), hword, ?_,
          Text.isTrimmed_trim _⟩
        exact (Text.trim_isInfix _).trans hrest.isInfix
      · exact (ih hf).cons

theorem isOn_of_mem_blocks {opener closer : Text} {offset skip : Nat}
    (hf : f ∈ blocks opener closer offset skip line) : f.IsOn offset line := by
  induction line generalizing offset skip with
  | nil =>
      rw [blocks] at hf
      cases hf
  | cons c r ih =>
      cases skip with
      | succ skip => exact (ih hf).cons
      | zero =>
          rw [blocks] at hf
          cases hopened : opened? opener (c :: r) with
          | none =>
              rw [hopened] at hf
              exact (ih hf).cons
          | some found =>
              obtain ⟨word, rest⟩ := found
              obtain ⟨hrest, -, hword⟩ := of_opened?_eq_some hopened
              rw [hopened] at hf
              simp only [List.mem_cons] at hf
              rcases hf with rfl | hf
              · refine ⟨Nat.le_refl _, Nat.lt_add_of_pos_right (Nat.succ_pos _), hword, ?_,
                  Text.isTrimmed_trim _⟩
                refine (Text.trim_isInfix _).trans (List.IsInfix.trans ?_ hrest.isInfix)
                cases hcut : Text.cut? closer rest with
                | none => exact List.infix_rfl
                | some cut =>
                    rw [Text.of_cut?_eq_some hcut]
                    exact (List.prefix_append _ _).isInfix
              · exact (ih hf).cons

/-- What a scan finds lies on its line. -/
theorem isOn_of_mem_ofLine {comments : CommentSyntax} (hf : f ∈ ofLine comments line) :
    f.IsOn 0 line := by
  obtain ⟨form, -, hf⟩ := List.mem_flatMap.mp hf
  cases form with
  | toLineEnd opener => exact isOn_of_mem_toLineEnd hf
  | block opener closer => exact isOn_of_mem_blocks hf

end Scan

end TodoLedger
