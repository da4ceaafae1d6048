import TodoLedger.Proofs.Text.Stable
/-!
# Lines without lone carriage returns

A lone carriage return joins a line feed that comes to stand behind it. Lines that hold none can be
taken away, and the lines of the text that is written are just those that are left.
-/

namespace TodoLedger

open Utf8

/-- The lines can be written and are read back; none ends in a lone carriage return. -/
structure Clean (ls : List Line) : Prop where
  bodies : ∀ l ∈ ls, Text.EndFree l.body ∧ IsStable l.body
  opened : ∀ l ∈ ls, l.ending = .open → l.body ≠ []
  noReturn : ∀ l ∈ ls, l.ending ≠ .cr
  terminated : Terminated ls

namespace Clean

variable {ls ms : List Line}

theorem wellCut (h : Clean ls) : Text.WellCut ls := by
  induction ls with
  | nil => exact .nil
  | cons l ls ih =>
      obtain ⟨⟨hfree, -⟩, hbodies⟩ := List.forall_mem_cons.mp h.bodies
      obtain ⟨hopened, hopeneds⟩ := List.forall_mem_cons.mp h.opened
      obtain ⟨hreturn, hreturns⟩ := List.forall_mem_cons.mp h.noReturn
      obtain ⟨hend, hends⟩ := List.pairwise_cons.mp h.terminated
      have hrest := ih ⟨hbodies, hopeneds, hreturns, hends⟩
      by_cases hlast : l.ending = .open
      · have hnil : ls = [] := by
          rw [List.eq_nil_iff_forall_not_mem]
          intro m hm
          exact hend m hm hlast
        have hline : l = ⟨l.body, .open⟩ := by rw [← hlast]
        rw [hnil, hline]
        exact .last (hopened hlast) hfree
      · exact .cons hfree hlast (fun hcr => absurd hcr hreturn) hrest

theorem isStable_ofLines (h : Clean ls) : IsStable (Text.ofLines ls) :=
  Text.isStable_ofLines (fun l hl => (h.bodies l hl).2) h.terminated

/-- Clean lines are read back from their bytes. -/
theorem lines_decode (h : Clean ls) : Text.lines (decode (bytesOf (Text.ofLines ls))) = ls := by
  rw [h.isStable_ofLines.decode_bytesOf, Text.lines_ofLines h.wellCut]

theorem sublist (h : Clean ls) (hms : List.Sublist ms ls) : Clean ms where
  bodies := fun l hl => h.bodies l (hms.subset hl)
  opened := fun l hl => h.opened l (hms.subset hl)
  noReturn := fun l hl => h.noReturn l (hms.subset hl)
  terminated := List.Pairwise.sublist hms h.terminated

end Clean

/-- The lines of a text without lone carriage returns are clean. -/
theorem clean_lines {t : Text} (ht : IsStable t) (hcr : ∀ l ∈ Text.lines t, l.ending ≠ .cr) :
    Clean (Text.lines t) where
  bodies := fun l hl => ⟨(Text.wellCut_lines t).endFree l hl, Text.isStable_of_mem_lines ht hl⟩
  opened := (Text.wellCut_lines t).opened
  noReturn := hcr
  terminated := (Text.wellCut_lines t).terminated

end TodoLedger
