import TodoLedger.Proofs.Document.Rendering
import TodoLedger.Proofs.Text.Append
/-!
# Entries behind a document

Entries that are put behind a document leave what is read of it and are read after it. A document that
is refused is still refused when entries follow.
-/

namespace TodoLedger

namespace Reader

variable {lines rest : List Text} {line : Text} {entries : List EntryLines} {r r' settled : Reader}

/-- Where a reader has come to an end, only its position and its issues count for what follows. -/
private theorem readAll_settled_iff (hfinish : r.finish = .ok r) (hline : isHeadlineLine line = true) :
    r.readAll (line :: rest) = .ok r' ↔
      readAll ⟨.unassigned, r.line, none, r.issues⟩ (line :: rest) = .ok r' := by
  have hplain : finish ⟨.unassigned, r.line, none, r.issues⟩ =
      .ok ⟨.unassigned, r.line, none, r.issues⟩ :=
    finish_eq_ok_iff.mpr ⟨by simp, Or.inl ⟨rfl, rfl⟩⟩
  simp only [readAll_cons, feedNext_headline_iff hline, hfinish, hplain, Except.ok.injEq]
  constructor
  · rintro ⟨next, ⟨_, h, rfl, hdecode, rfl⟩, hrest⟩
    exact ⟨_, ⟨_, h, rfl, hdecode, rfl⟩, hrest⟩
  · rintro ⟨next, ⟨_, h, rfl, hdecode, rfl⟩, hrest⟩
    exact ⟨_, ⟨_, h, rfl, hdecode, rfl⟩, hrest⟩

/-- Entries behind lines that can be read are read after them. -/
theorem readAll_append_entries (h : start.readAll lines = .ok settled) (hne : entries ≠ [])
    (he : ∀ e ∈ entries, e.IsEntry)
    (hfree : ∀ line ∈ entries.flatMap EntryLines.lines, Text.EndFree line) :
    ∃ r made, start.readAll (lines ++ entries.flatMap EntryLines.lines) = .ok r ∧
      r.issues = settled.issues ++ made ∧ List.Forall₂ EntryLines.Yields entries made := by
  obtain ⟨m, made, hmade, hread⟩ := @readAll_entries settled.line settled.issues entries he hfree
  obtain ⟨e, es, rfl⟩ := List.exists_cons_of_ne_nil hne
  obtain ⟨headline, hdecode⟩ := (he e List.mem_cons_self).headline
  have hline := isHeadlineLine_of_decode hdecode
  have hfinish : settled.finish = .ok settled := by
    rw [readAll] at h
    cases hfed : start.feedAll lines with
    | error fault => simp [hfed, Except.bind] at h
    | ok reached =>
        rw [hfed] at h
        exact finish_of_finish h
  rw [List.flatMap_cons, EntryLines.lines, List.cons_append] at hread ⊢
  have hbehind := (readAll_settled_iff hfinish hline).mpr hread
  exact ⟨_, made, (readAll_append_iff hline).mpr ⟨settled, h, hbehind⟩, rfl, hmade⟩

/-- Lines that are refused as a document are refused with a headline behind them as well. -/
theorem readAll_append_error (rest : List Text) {n : Int} {cause : DocumentFault}
    (h : start.readAll lines = .error (.document n cause)) (hline : isHeadlineLine line = true) :
    ∃ n' cause', start.readAll (lines ++ line :: rest) = .error (.document n' cause') := by
  rw [readAll] at h
  rw [readAll, feedAll_append]
  cases hfed : start.feedAll lines with
  | error fault =>
      rw [hfed] at h
      obtain rfl := Except.error.inj h
      exact ⟨n, cause, rfl⟩
  | ok reached =>
      rw [hfed] at h
      have hfinish : reached.finish = .error (.document n cause) := h
      simp only [Except.bind, feedAll, feedNext, feed, hline, if_true, feedHeadline]
      rw [finish] at hfinish
      by_cases hphase : reached.phase = .properties
      · simp [hphase]
      · -- The entry that cannot end where the document does cannot end before a headline.
        simp only [hphase, if_false] at hfinish
        have hsettle : ∀ k, settleIfAny { reached with line := k } = .error (.document n cause) := by
          intro k
          obtain ⟨phase, position, draft, issues⟩ := reached
          cases draft with
          | none => cases hfinish
          | some d =>
              simp only [settleIfAny, Option.isNone_some, Bool.false_eq_true, if_false, settle] at hfinish ⊢
              cases hissue : d.toIssue with
              | error fault =>
                  rw [hissue] at hfinish
                  obtain rfl := Except.error.inj hfinish
                  rfl
              | ok i =>
                  rw [hissue] at hfinish
                  cases hfinish
        simp [hphase, hsettle]

end Reader

/-! ## A text behind a document -/

section Behind

variable {u old : Text} {entries : List EntryLines} {is js : List Issue}

/-- A text that starts with a star starts with the line of a headline. -/
theorem exists_headline_of_head? (h : u.head? = some (Rune.ofChar '*')) :
    ∃ line rest, Text.bodies u = line :: rest ∧ Reader.isHeadlineLine line = true := by
  obtain ⟨r, rfl⟩ := List.head?_eq_some_iff.mp h
  have hlf : Rune.ofChar '*' ≠ Rune.ofChar '\n' := by decide
  have hcr : Rune.ofChar '*' ≠ Rune.ofChar '\r' := by decide
  rw [Text.bodies, Text.lines_cons]
  cases Text.lines r with
  | nil => exact ⟨[Rune.ofChar '*'], [], by simp [Text.consLine, hlf, hcr], rfl⟩
  | cons l ls =>
      refine ⟨Rune.ofChar '*' :: l.body, ls.map Line.body, ?_, rfl⟩
      simp [Text.consLine, hlf, hcr, Line.push]

/-- The lines of a text with headlines behind it: those before the first headline read as the text
does. -/
private theorem exists_lines (hhead : u.head? = some (Rune.ofChar '*')) (old : Text) :
    ∃ lines, readDocument old = (Reader.start.readAll lines).map Reader.issues ∧
      readDocument (old ++ (Text.gap old ++ u)) =
        (Reader.start.readAll (lines ++ Text.bodies u)).map Reader.issues := by
  have hlf : u.head? ≠ some (Rune.ofChar '\n') := by
    rw [hhead]
    decide
  have hbom : u.head? ≠ some Rune.bom := by
    rw [hhead]
    decide
  rcases Text.bodies_dropBom_append hlf hbom old with happend | ⟨hnothing, happend⟩
  · exact ⟨_, readDocument_eq old, by rw [readDocument_eq, happend]⟩
  · -- Behind a byte order mark alone the entries start on the second line.
    refine ⟨[[]], ?_, by rw [readDocument_eq, happend]; rfl⟩
    rw [readDocument_eq, hnothing]
    rfl

/-- Entries that are written behind a document are read after its own. -/
theorem readDocument_append_entries (hu : Text.bodies u = entries.flatMap EntryLines.lines)
    (hhead : u.head? = some (Rune.ofChar '*')) (he : ∀ e ∈ entries, e.IsEntry)
    (hread : readDocument old = .ok is) :
    ∃ js, readDocument (old ++ (Text.gap old ++ u)) = .ok (is ++ js) ∧
      List.Forall₂ EntryLines.Yields entries js := by
  obtain ⟨lines, hold, hnew⟩ := exists_lines hhead old
  rw [hold] at hread
  cases hsettled : Reader.start.readAll lines with
  | error fault => simp [hsettled, Except.map] at hread
  | ok settled =>
      rw [hsettled] at hread
      obtain rfl := Except.ok.inj hread
      have hne : entries ≠ [] := by
        rintro rfl
        obtain ⟨line, rest, hlines, -⟩ := exists_headline_of_head? hhead
        rw [hlines] at hu
        cases hu
      have hfree : ∀ line ∈ entries.flatMap EntryLines.lines, Text.EndFree line := by
        rw [← hu]
        exact fun line hline => Text.endFree_of_mem_bodies hline
      obtain ⟨r, js, hr, hissues, hyields⟩ :=
        Reader.readAll_append_entries hsettled hne he hfree
      refine ⟨js, ?_, hyields⟩
      rw [hnew, hu, hr]
      exact congrArg Except.ok hissues

/-- What is read with headlines behind it can be read without them. -/
theorem exists_readDocument_of_append (hhead : u.head? = some (Rune.ofChar '*'))
    (h : readDocument (old ++ (Text.gap old ++ u)) = .ok js) :
    ∃ is, readDocument old = .ok is := by
  obtain ⟨lines, hold, hnew⟩ := exists_lines hhead old
  obtain ⟨line, rest, hbodies, hline⟩ := exists_headline_of_head? hhead
  rw [hnew, hbodies] at h
  cases hall : Reader.start.readAll (lines ++ line :: rest) with
  | error fault => simp [hall, Except.map] at h
  | ok r =>
      obtain ⟨settled, hsettled, -⟩ := (Reader.readAll_append_iff hline).mp hall
      exact ⟨settled.issues, by rw [hold, hsettled]; rfl⟩

/-- A document that is refused is refused with headlines behind it as well. -/
theorem readDocument_append_error (hhead : u.head? = some (Rune.ofChar '*')) {n : Int}
    {cause : DocumentFault} (hread : readDocument old = .error (.document n cause)) :
    ∃ n' cause', readDocument (old ++ (Text.gap old ++ u)) = .error (.document n' cause') := by
  obtain ⟨lines, hold, hnew⟩ := exists_lines hhead old
  obtain ⟨line, rest, hbodies, hline⟩ := exists_headline_of_head? hhead
  rw [hold] at hread
  cases hrefused : Reader.start.readAll lines with
  | ok settled => simp [hrefused, Except.map] at hread
  | error fault =>
      rw [hrefused] at hread
      obtain rfl := Except.error.inj hread
      obtain ⟨n', cause', herror⟩ :=
        Reader.readAll_append_error rest hrefused hline
      refine ⟨n', cause', ?_⟩
      rw [hnew, hbodies, herror]
      rfl

end Behind

/-! ## Issues behind a document -/

variable {Q : Text → Prop} {issues is : List Issue} {states : Issue → State} {old : Text}

private theorem exists_headline (hQ : Text.LineClass Q) (h : ∀ i ∈ issues, i.IsWritable Q)
    (hne : issues ≠ []) : ∃ line rest, writtenLines issues states = line :: rest ∧
      Reader.isHeadlineLine line = true := by
  obtain ⟨i, issues, rfl⟩ := List.exists_cons_of_ne_nil hne
  obtain ⟨_, _, _, -, hdecode⟩ :=
    Issue.headline_entryLines hQ (h i List.mem_cons_self) (states i)
  rw [writtenLines, List.flatMap_cons, EntryLines.lines]
  exact ⟨_, _, rfl, Reader.isHeadlineLine_of_decode hdecode⟩

theorem head?_written (hQ : Text.LineClass Q) (h : ∀ i ∈ issues, i.IsWritable Q)
    (hne : issues ≠ []) :
    (Text.ofBodies (writtenLines issues states)).head? = some (Rune.ofChar '*') := by
  obtain ⟨line, rest, hlines, hline⟩ := @exists_headline Q issues states hQ h hne
  obtain ⟨r, rfl⟩ := List.head?_eq_some_iff.mp (Reader.isHeadlineLine_eq_true.mp hline)
  rw [hlines]
  rfl

/-- Issues that are written behind a document are read after its own. -/
theorem readDocument_append (states : Issue → State) (hQ : Text.LineClass Q)
    (h : ∀ i ∈ issues, i.IsWritable Q) (hne : issues ≠ []) (hread : readDocument old = .ok is) :
    ∃ js, readDocument (old ++ (Text.gap old ++ Text.ofBodies (writtenLines issues states))) =
        .ok (is ++ js) ∧
      List.Forall₂ (fun i j => (i.entryLines (states i)).Yields j) issues js := by
  have hfits := @fits_of_mem_writtenLines Q issues states hQ h
  have hbodies := Text.bodies_ofBodies fun b hb => hQ.endFree (hfits b hb)
  have hentries : writtenLines issues states =
      (issues.map fun i => i.entryLines (states i)).flatMap EntryLines.lines := by
    rw [List.flatMap_map]
    rfl
  have hall : ∀ e ∈ issues.map fun i => i.entryLines (states i), e.IsEntry := by
    intro e he
    obtain ⟨i, hi, rfl⟩ := List.mem_map.mp he
    exact Issue.isEntry_entryLines hQ (h i hi) (states i)
  obtain ⟨js, hjs, hyields⟩ := readDocument_append_entries (hbodies.trans hentries)
    (head?_written hQ h hne) hall hread
  exact ⟨js, hjs, List.forall₂_map_left_iff.mp hyields⟩

end TodoLedger
