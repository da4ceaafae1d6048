import TodoLedger.Proofs.Document.Acceptance
import TodoLedger.Proofs.Tasks
import TodoLedger.Proofs.Text.WholeLines
/-!
# Line ends

A text has one cut into physical lines. Documents and source files are read through the bodies of these
lines, so that neither the kind of their line ends nor a byte order mark in front makes a difference.
-/

namespace TodoLedger

open Text

variable {bodies : List Text} {e : Ending} {mark : Text}

/-- Lines that begin with no byte order mark are read back with and without one, whatever ends them. -/
theorem bodies_dropBom_flatMap (he : e ≠ .open) (hmark : mark = [] ∨ mark = [Rune.bom])
    (hfree : ∀ b ∈ bodies, EndFree b)
    (hbom : ∀ b, bodies.head? = some b → b.head? ≠ some Rune.bom) :
    Text.bodies (dropBom (mark ++ bodies.flatMap fun b => b ++ e.text)) = bodies := by
  have hbodies : Text.bodies (bodies.flatMap fun b => b ++ e.text) = bodies := by
    rw [Text.bodies, lines_flatMap_append he hfree, List.map_map]
    exact bodies.map_id
  rcases hmark with rfl | rfl
  · rw [List.nil_append, dropBom_of_head?, hbodies]
    cases bodies with
    | nil => simp
    | cons b bodies =>
        have hb := hbom b rfl
        rw [List.flatMap_cons, List.append_assoc]
        cases b with
        | nil => cases e <;> simp_all [Ending.text] <;> decide
        | cons c b => exact hb
  · exact hbodies

/-- A document is read alike, and a source file has the same tasks, whatever ends the lines. -/
theorem reads_alike {e' : Ending} {mark' : Text} (he : e ≠ .open) (he' : e' ≠ .open)
    (hmark : mark = [] ∨ mark = [Rune.bom]) (hmark' : mark' = [] ∨ mark' = [Rune.bom])
    (hfree : ∀ b ∈ bodies, EndFree b)
    (hbom : ∀ b, bodies.head? = some b → b.head? ≠ some Rune.bom) :
    readDocument (mark ++ bodies.flatMap fun b => b ++ e.text) =
        readDocument (mark' ++ bodies.flatMap fun b => b ++ e'.text) ∧
      ∀ path withMarked,
        tasksOf path withMarked (mark ++ bodies.flatMap fun b => b ++ e.text) =
          tasksOf path withMarked (mark' ++ bodies.flatMap fun b => b ++ e'.text) := by
  have hbodies := bodies_dropBom_flatMap he hmark hfree hbom
  have hbodies' := bodies_dropBom_flatMap he' hmark' hfree hbom
  refine ⟨?_, fun path withMarked => ?_⟩
  · rw [readDocument_eq, readDocument_eq, hbodies, hbodies']
  · rw [tasksOf, tasksOf, hbodies, hbodies']

/-- The lines of a text make it up, are the only lines that do, and come apart into bodies and endings.
Texts are cut one by one if a line ends between them. Which line ends a text of lines has, and whether
a byte order mark stands in front, is not seen by those who read it. -/
theorem wholeLines_spec :
    (∀ t : Text, (wholeLines t).flatten = t ∧ AreLines (wholeLines t) ∧
      (∀ ts, AreLines ts → ts.flatten = t → ts = wholeLines t) ∧
      Text.bodies t = (wholeLines t).map stripEnding) ∧
    (∀ (body : Text) (e : Ending), EndFree body →
      stripEnding (body ++ e.text) = body ∧ ending (body ++ e.text) = e) ∧
    (∀ a b : Text, (a = [] ∨ ∃ c, a.getLast? = some c ∧ c.isLineEnd = true) →
      ¬(a.getLast? = some (Rune.ofChar '\r') ∧ b.head? = some (Rune.ofChar '\n')) →
      wholeLines (a ++ b) = wholeLines a ++ wholeLines b) ∧
    ∀ (bodies : List Text) (e e' : Ending) (mark mark' : Text), e ≠ .open → e' ≠ .open →
      (mark = [] ∨ mark = [Rune.bom]) → (mark' = [] ∨ mark' = [Rune.bom]) →
      (∀ b ∈ bodies, EndFree b) → (∀ b, bodies.head? = some b → b.head? ≠ some Rune.bom) →
      readDocument (mark ++ bodies.flatMap fun b => b ++ e.text) =
          readDocument (mark' ++ bodies.flatMap fun b => b ++ e'.text) ∧
        ∀ path withMarked,
          tasksOf path withMarked (mark ++ bodies.flatMap fun b => b ++ e.text) =
            tasksOf path withMarked (mark' ++ bodies.flatMap fun b => b ++ e'.text) := by
  refine ⟨fun t => ?_, fun body e hfree => ?_, fun a b => wholeLines_append, ?_⟩
  · exact ⟨flatten_wholeLines t, areLines_wholeLines t, fun ts hts => hts.eq_wholeLines,
      bodies_eq_map_stripEnding t⟩
  · exact ⟨stripEnding_append hfree e, ending_append hfree e⟩
  · intro bodies e e' mark mark' he he' hmark hmark' hfree hbom
    exact reads_alike he he' hmark hmark' hfree hbom

/-- The lines of an entry with a task in its body. -/
def entryWithTask : List Text :=
  ["* TODO b", ":PROPERTIES:", ":ID: 1", ":CREATED: <2025-12-18 Thu 14:30>", ":END:", "", "# FIXME: c"]

theorem wholeLines_spec_mixedEnds :
    (AreLines ["a\r".toText, "\r\n".toText, "b".toText] ∧
      ["a\r".toText, "\r\n".toText, "b".toText] = wholeLines "a\r\r\nb") ∧
    (EndFree "a" ∧ stripEnding ("a".toText ++ Ending.crlf.text) = "a" ∧
      ending ("a".toText ++ Ending.crlf.text) = .crlf) ∧
    (("a\r".toText.getLast? = some (Rune.ofChar '\r') ∧ (Rune.ofChar '\r').isLineEnd = true) ∧
      "\r\n".toText.head? ≠ some (Rune.ofChar '\n') ∧
      wholeLines ("a\r".toText ++ "\r\n".toText) = wholeLines "a\r" ++ wholeLines "\r\n") ∧
    (∀ b ∈ entryWithTask, EndFree b) ∧
    readDocument (Rune.bom :: entryWithTask.flatMap fun b => b ++ Ending.crlf.text) =
        readDocument (entryWithTask.flatMap fun b => b ++ Ending.cr.text) ∧
      tasksOf ⟨.relative, ["a.py"]⟩ false
          (Rune.bom :: entryWithTask.flatMap fun b => b ++ Ending.crlf.text) =
        tasksOf ⟨.relative, ["a.py"]⟩ false
          (entryWithTask.flatMap fun b => b ++ Ending.cr.text) := by
  obtain ⟨hunique, hending, happend, hread⟩ := wholeLines_spec
  have hlines : AreLines ["a\r".toText, "\r\n".toText, "b".toText] :=
    @WellCut.areLines [⟨"a", .cr⟩, ⟨"", .crlf⟩, ⟨"b", .open⟩]
      (.cons (by decide) (by decide) (by decide)
        (.cons (by decide) (by decide) (by decide) (.last (by decide) (by decide))))
  have hfree : EndFree "a" := by decide
  have hseam : "\r\n".toText.head? ≠ some (Rune.ofChar '\n') := by decide
  have hbodies : ∀ b ∈ entryWithTask, EndFree b := by decide
  have hbom : ∀ b, entryWithTask.head? = some b → b.head? ≠ some Rune.bom := by
    intro b hb
    obtain rfl := Option.some.inj hb
    decide
  obtain ⟨hdocument, htasks⟩ := hread entryWithTask .crlf .cr [Rune.bom] [] (by decide) (by decide)
    (Or.inr rfl) (Or.inl rfl) hbodies hbom
  exact ⟨⟨hlines, (hunique _).2.2.1 _ hlines (by decide)⟩, ⟨hfree, hending _ _ hfree⟩,
    ⟨⟨by decide, by decide⟩, hseam,
      happend _ _ (Or.inr ⟨Rune.ofChar '\r', by decide, by decide⟩) fun hboth => hseam hboth.2⟩,
    hbodies, hdocument, htasks _ _⟩

end TodoLedger
