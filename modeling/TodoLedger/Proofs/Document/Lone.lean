import TodoLedger.Proofs.Document.Rendering
/-!
# A document of one entry

The text of one entry is followed to its end: it is refused for its headline, or else it is read as the
draft that the headline, the drawer and the body make. What the properties of the entry hold is left to
the draft.
-/

namespace TodoLedger

variable {e : EntryLines} {h : Headline}

private theorem dropBom_ofBodies (hline : Reader.isHeadlineLine e.headline = true) :
    Text.dropBom (Text.ofBodies e.lines) = Text.ofBodies e.lines := by
  obtain ⟨r, hr⟩ := List.head?_eq_some_iff.mp (Reader.isHeadlineLine_eq_true.mp hline)
  have hbom : Rune.ofChar '*' ≠ Rune.bom := by decide
  rw [EntryLines.lines, Text.ofBodies_cons, hr, List.cons_append, Text.dropBom, if_neg hbom]

/-- A draft is finished at the end of the document. -/
private theorem finish_body (n : Nat) (d : Draft) : (Reader.finish ⟨.body, n, some d, []⟩).map
    Reader.issues = d.toIssue.map fun i => [i] := by
  rw [Reader.finish, if_neg (by simp), Reader.settleIfAny]
  simp only [Option.isNone_some, Bool.false_eq_true, if_false, Reader.settle]
  cases d.toIssue <;> rfl

/-- The text of an entry is refused for the headline, or it is read to what the entry makes. -/
theorem readDocument_lone (he : e.HasShape) (hline : Reader.isHeadlineLine e.headline = true)
    (hfree : ∀ line ∈ e.lines, Text.EndFree line) :
    readDocument (Text.ofBodies e.lines) =
      match Headline.decode e.headline with
      | .error cause => .error (.document 1 (.headline cause))
      | .ok h => (Draft.mk 1 h e.properties e.body).toIssue.map fun i => [i] := by
  rw [readDocument_eq, dropBom_ofBodies hline, Text.bodies_ofBodies hfree, Reader.readAll,
    EntryLines.lines, Reader.feedAll, Reader.feedNext, Reader.feed]
  rw [if_pos hline]
  simp only [Reader.start, Reader.feedHeadline, reduceCtorEq, if_false, Reader.settleIfAny,
    Option.isNone_none, if_true]
  cases Headline.decode e.headline with
  | error cause => rfl
  | ok h =>
      obtain ⟨m, hrun⟩ := @Reader.feedAll_entry 1 [] 1 h e he hfree
      simp only
      rw [show ((0 + 1 : Nat) : Int) = 1 from rfl, hrun]
      exact finish_body m _

/-- What an entry makes is read of its text. -/
theorem readDocument_lone_of_decode (he : e.HasShape)
    (hfree : ∀ line ∈ e.lines, Text.EndFree line) (hdecode : Headline.decode e.headline = .ok h) :
    readDocument (Text.ofBodies e.lines) =
      (Draft.mk 1 h e.properties e.body).toIssue.map fun i => [i] := by
  rw [readDocument_lone he (Reader.isHeadlineLine_of_decode hdecode) hfree, hdecode]

end TodoLedger
