import TodoLedger.Proofs.Text.Lines
import TodoLedger.Proofs.Text.Utf8
/-!
# Stable lines

The lines of a stable text are stable, and stable lines of which only the last is open make a stable
text again, because an ending never continues a character.
-/

namespace TodoLedger

open Utf8

/-- No line but the last is open. -/
def Terminated (ls : List Line) : Prop := ls.Pairwise fun l _ => l.ending ≠ .open

namespace Text

theorem WellCut.terminated {ls : List Line} (h : WellCut ls) : Terminated ls := by
  induction h with
  | nil => exact .nil
  | last => exact List.pairwise_singleton _ _
  | cons _ he _ _ ih => exact List.pairwise_cons.mpr ⟨fun _ _ => he, ih⟩

theorem body_infix_of_mem_lines {t : Text} {l : Line} (h : l ∈ lines t) : l.body <:+: t := by
  have htext : l.text <:+: t := by
    conv_rhs => rw [← ofLines_lines t]
    rw [ofLines, List.flatMap_def]
    exact List.infix_of_mem_flatten (List.mem_map_of_mem h)
  exact ((List.prefix_append _ _).isInfix).trans htext

theorem isStable_of_mem_lines {t : Text} {l : Line} (ht : IsStable t) (h : l ∈ lines t) :
    IsStable l.body := ht.of_infix (body_infix_of_mem_lines h)

private theorem isStable_ending_append {e : Ending} {t : Text} (ht : IsStable t) :
    IsStable (e.text ++ t) := by
  have hlf : IsStable (Rune.ofChar '\n' :: t) := (isStable_cons (by decide) (by decide)).mpr ht
  cases e with
  | «open» => exact ht
  | lf => exact hlf
  | cr => exact (isStable_cons (by decide) (by decide)).mpr ht
  | crlf => exact (isStable_cons (by decide) (by decide)).mpr hlf

private theorem head?_ending_append {e : Ending} {t : Text} {c : Rune} (he : e ≠ .open ∨ t = [])
    (hc : (e.text ++ t).head? = some c) : isEscape c = false := by
  cases e with
  | «open» =>
      rcases he with he | rfl
      · exact absurd rfl he
      · cases hc
  | lf => exact Option.some.inj hc ▸ by decide
  | cr => exact Option.some.inj hc ▸ by decide
  | crlf => exact Option.some.inj hc ▸ by decide

theorem isStable_ofLines {ls : List Line} (h : ∀ l ∈ ls, IsStable l.body)
    (hends : Terminated ls) : IsStable (ofLines ls) := by
  induction ls with
  | nil => trivial
  | cons l ls ih =>
      obtain ⟨hl, hls⟩ := List.forall_mem_cons.mp h
      obtain ⟨hend, hrest⟩ := List.pairwise_cons.mp hends
      rw [ofLines_cons, Line.text, List.append_assoc]
      refine hl.append (isStable_ending_append (ih hls hrest)) fun c hc => ?_
      refine head?_ending_append ?_ hc
      cases ls with
      | nil => exact Or.inr rfl
      | cons m ls => exact Or.inl (hend m (by simp))

/-- Some of the lines of a stable text make a stable text. -/
theorem isStable_ofLines_of_sublist {t : Text} {ls : List Line} (ht : IsStable t)
    (h : List.Sublist ls (lines t)) : IsStable (ofLines ls) :=
  isStable_ofLines (fun _ hl => isStable_of_mem_lines ht (h.subset hl))
    ((wellCut_lines t).terminated.sublist h)

end Text

end TodoLedger
