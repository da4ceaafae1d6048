import TodoLedger.Proofs.Document.Reading
import Mathlib.Data.List.Forall2
/-!
# The documents that are accepted

The reader accepts the lines of an entry and makes its issue; conversely lines on which it comes to
an end are those of an entry. By induction on the entries of a document this gives
`readDocument_spec`.
-/

namespace TodoLedger

namespace Reader

variable {n : Nat} {d : Draft} {issues : List Issue} {line : Text} {lines : List Text}

/-! ## Reading the lines of an entry -/

private theorem finish_unassigned :
    finish ⟨.unassigned, n, none, issues⟩ = .ok ⟨.unassigned, n, none, issues⟩ :=
  finish_eq_ok_iff.mpr ⟨by simp, Or.inl ⟨rfl, rfl⟩⟩

/-- The lines behind a headline leave the draft of their entry. -/
theorem feedAll_entry {k : Int} {h : Headline} {e : EntryLines} (he : e.HasShape)
    (hfree : ∀ line ∈ e.lines, Text.EndFree line) :
    ∃ m, feedAll ⟨.headline, n, some (.ofHeadline k h), issues⟩
        (e.blanks ++ e.opening :: (e.drawer ++ e.closing :: e.body)) =
      .ok ⟨.body, m, some ⟨k, h, e.properties, e.body⟩, issues⟩ := by
  have hdrawer : ∀ line ∈ e.drawer, Text.EndFree line :=
    fun line hline => hfree line (by simp [EntryLines.lines, hline])
  rw [feedAll_append, feedAll_blanks he.blanks]
  simp only [Except.bind]
  rw [feedAll, feedNext_opening he.opening]
  simp only
  rw [feedAll_append, feedAll_drawer hdrawer he.drawer]
  simp only [Except.bind]
  rw [feedAll, feedNext_end he.closing]
  simp only
  rw [feedAll_body he.body]
  exact ⟨_, rfl⟩

theorem readAll_entry {e : EntryLines} (he : e.IsEntry)
    (hfree : ∀ line ∈ e.lines, Text.EndFree line) :
    ∃ m i, e.Yields i ∧ readAll ⟨.unassigned, n, none, issues⟩ e.lines =
      .ok ⟨.unassigned, m, none, issues ++ [i]⟩ := by
  obtain ⟨h, hdecode⟩ := he.headline
  obtain ⟨m, hrun⟩ := @feedAll_entry (n + 1) issues (n + 1) h e he.hasShape hfree
  obtain ⟨i, hi⟩ := (Draft.exists_toIssue_iff ⟨n + 1, h, e.properties, e.body⟩).mpr
    he.complete
  refine ⟨m, i, ⟨h, _, hdecode, hi⟩, ?_⟩
  rw [EntryLines.lines, readAll_cons]
  refine ⟨_, (feedNext_headline_iff (isHeadlineLine_of_decode hdecode)).mpr
    ⟨_, h, finish_unassigned, hdecode, rfl⟩, ?_⟩
  rw [readAll]
  simp only
  rw [hrun]
  simp only [Except.bind]
  exact finish_eq_ok_iff.mpr ⟨by simp, Or.inr ⟨_, i, rfl, hi, rfl⟩⟩

/-- The lines of entries, one after the other, are read to one issue each. -/
theorem readAll_entries {entries : List EntryLines} (he : ∀ e ∈ entries, e.IsEntry)
    (hfree : ∀ line ∈ entries.flatMap EntryLines.lines, Text.EndFree line) :
    ∃ m made, List.Forall₂ EntryLines.Yields entries made ∧
      readAll ⟨.unassigned, n, none, issues⟩ (entries.flatMap EntryLines.lines) =
        .ok ⟨.unassigned, m, none, issues ++ made⟩ := by
  induction entries generalizing n issues with
  | nil => exact ⟨n, [], .nil, by simp [readAll, feedAll, Except.bind, finish_unassigned]⟩
  | cons e entries ih =>
      obtain ⟨hfirst, hothers⟩ := List.forall_mem_cons.mp he
      have hfreeFirst : ∀ line ∈ e.lines, Text.EndFree line :=
        fun line hline => hfree line (by simp [hline])
      obtain ⟨m, i, hyields, hread⟩ := @readAll_entry n issues e hfirst hfreeFirst
      have hfreeOthers : ∀ line ∈ entries.flatMap EntryLines.lines, Text.EndFree line :=
        fun line hline => hfree line (by rw [List.flatMap_cons]; exact List.mem_append_right _ hline)
      obtain ⟨k, made, hmade, hrest⟩ := @ih m (issues ++ [i]) hothers hfreeOthers
      refine ⟨k, i :: made, .cons hyields hmade, ?_⟩
      rw [List.flatMap_cons]
      rw [List.append_assoc] at hrest
      cases hentries : entries with
      | nil =>
          subst hentries
          simp only [List.flatMap_nil, List.append_nil] at hrest ⊢
          cases hmade
          simp only [readAll, feedAll, Except.bind, finish_unassigned] at hrest
          rw [hread]
          simpa using hrest
      | cons next others =>
          have hnext : next.IsEntry := hothers next (by simp [hentries])
          obtain ⟨h, hdecode⟩ := hnext.headline
          rw [hentries] at hrest
          exact (readAll_append_iff (isHeadlineLine_of_decode hdecode)).mpr ⟨_, hread, hrest⟩

/-! ## Finding the parts of an entry -/

/-- In a drawer a line is taken only if it ends the drawer or may stand in it. -/
private theorem feedNext_drawer_cases {r : Reader}
    (h : feedNext ⟨.properties, n, some d, issues⟩ line = (r, none))
    (hline : isHeadlineLine line = false) :
    isMarkerLine endMarker line = true ∨
      IsDrawerLine line ∧ ∃ next, r = ⟨.properties, n + 1, some next, issues⟩ := by
  by_cases hend : isMarkerLine endMarker line = true
  · exact Or.inl hend
  · rw [Bool.not_eq_true] at hend
    right
    simp only [feedNext, feed, hline, Bool.false_eq_true, if_false, feedInner, inDrawer,
      hend] at h
    by_cases hcolon : (Text.trim line).head? = some (Rune.ofChar ':')
    · simp only [hcolon, ne_eq, not_true_eq_false, if_false] at h
      cases hproperty : propertyOf? (Text.trim line) with
      | none => simp [hproperty] at h
      | some pair =>
          obtain ⟨key, value⟩ := pair
          simp only [hproperty] at h
          split_ifs at h with hempty
          · simp at h
          · have hne : key ≠ [] := by simpa using hempty
            have hr := (Prod.mk.inj h).1
            exact ⟨⟨hline, hend, fun _ => isSetting_of_propertyOf? hproperty hne⟩, _, hr.symm⟩
    · simp only [ne_eq, hcolon, not_false_eq_true, if_true, Prod.mk.injEq, and_true] at h
      exact ⟨⟨hline, hend, fun hc => absurd hc hcolon⟩, d, h.symm⟩

/-- A drawer that is left has been closed. -/
theorem exists_drawer_of_feedAll {r : Reader}
    (h : feedAll ⟨.properties, n, some d, issues⟩ lines = .ok r)
    (hlines : ∀ line ∈ lines, isHeadlineLine line = false) (hleft : r.phase ≠ .properties) :
    ∃ drawer closing body, lines = drawer ++ closing :: body ∧
      (∀ line ∈ drawer, IsDrawerLine line) ∧ isMarkerLine endMarker closing = true := by
  induction lines generalizing n d with
  | nil =>
      simp only [feedAll, Except.ok.injEq] at h
      exact absurd (h ▸ rfl) hleft
  | cons line lines ih =>
      obtain ⟨hline, hrest⟩ := List.forall_mem_cons.mp hlines
      rw [feedAll] at h
      cases hfeed : feedNext ⟨.properties, n, some d, issues⟩ line with
      | mk next fault =>
          cases fault with
          | some fault => simp [hfeed] at h
          | none =>
              simp only [hfeed] at h
              rcases feedNext_drawer_cases hfeed hline with hend | ⟨hdrawer, d', rfl⟩
              · exact ⟨[], line, lines, rfl, by simp, hend⟩
              · obtain ⟨drawer, closing, body, hsplit, hall, hclosing⟩ := ih h hrest
                refine ⟨line :: drawer, closing, body, by rw [hsplit]; rfl, ?_, hclosing⟩
                exact List.forall_mem_cons.mpr ⟨hdrawer, hall⟩

/-- An entry without properties makes no issue. -/
private theorem not_toIssue_of_empty {i : Issue} (hd : d.properties = .empty) :
    d.toIssue ≠ .ok i := by
  intro h
  obtain ⟨id, -, hid, -⟩ := (Draft.toIssue_eq_ok_iff d i).mp h
  rw [hd] at hid
  cases hid

/-- Behind a headline only blank lines stand before the drawer is opened. -/
theorem exists_opening_of_readAll {r : Reader} (hd : d.properties = .empty)
    (h : readAll ⟨.headline, n, some d, issues⟩ lines = .ok r)
    (hlines : ∀ line ∈ lines, isHeadlineLine line = false) :
    ∃ blanks opening rest, lines = blanks ++ opening :: rest ∧
      (∀ line ∈ blanks, Text.isBlank line = true) ∧ isMarkerLine drawerMarker opening = true := by
  have hsettled : ∀ {phase m body}, finish ⟨phase, m, some { d with body }, issues⟩ ≠ .ok r := by
    intro phase m body hfinish
    obtain ⟨-, ⟨hnone, -⟩ | ⟨e, i, he, hi, -⟩⟩ := finish_eq_ok_iff.mp hfinish
    · cases hnone
    · obtain rfl := Option.some.inj he
      exact not_toIssue_of_empty (d := { d with body }) hd hi
  induction lines generalizing n d with
  | nil => exact absurd h (@hsettled .headline n d.body)
  | cons line lines ih =>
      obtain ⟨hline, hrest⟩ := List.forall_mem_cons.mp hlines
      by_cases hopen : isMarkerLine drawerMarker line = true
      · exact ⟨[], line, lines, rfl, by simp, hopen⟩
      · rw [Bool.not_eq_true] at hopen
        by_cases hblank : Text.isBlank line = true
        · have hstep : feedNext ⟨.headline, n, some d, issues⟩ line =
              (⟨.headline, n + 1, some (addBody d line), issues⟩, none) := by
            simp [feedNext, feed, hline, feedInner, afterHeadline, hopen, hblank]
          rw [readAll, feedAll, hstep] at h
          obtain ⟨blanks, opening, rest, hsplit, hall, hopening⟩ :=
            ih (n := n + 1) (d := addBody d line) hd h hrest hsettled
          refine ⟨line :: blanks, opening, rest, by rw [hsplit]; rfl, ?_, hopening⟩
          exact List.forall_mem_cons.mpr ⟨hblank, hall⟩
        · have hstep : feedNext ⟨.headline, n, some d, issues⟩ line =
              (⟨.body, n + 1, some (addBody d line), issues⟩, none) := by
            simp [feedNext, feed, hline, feedInner, afterHeadline, hopen, hblank]
          rw [readAll, feedAll, hstep] at h
          simp only [feedAll_body hrest, Except.bind] at h
          exact absurd h hsettled

/-- Lines from one headline up to the next that can be read are those of an entry. -/
theorem exists_entry_of_readAll {r r' : Reader} (h : r.readAll (line :: lines) = .ok r')
    (hline : isHeadlineLine line = true) (hlines : ∀ line ∈ lines, isHeadlineLine line = false)
    (hfree : ∀ line ∈ lines, Text.EndFree line) :
    ∃ e : EntryLines, e.lines = line :: lines ∧ e.IsEntry := by
  obtain ⟨next, hnext, hread⟩ := readAll_cons.mp h
  obtain ⟨settled, headline, -, hdecode, rfl⟩ := (feedNext_headline_iff hline).mp hnext
  obtain ⟨blanks, opening, rest, rfl, hblanks, hopening⟩ :=
    exists_opening_of_readAll rfl hread hlines
  rw [readAll, feedAll_append, Draft.ofHeadline, feedAll_blanks hblanks] at hread
  simp only [Except.bind] at hread
  rw [feedAll, feedNext_opening hopening] at hread
  simp only at hread
  have hrestLines : ∀ line ∈ rest, isHeadlineLine line = false :=
    fun line hl => hlines line (by simp [hl])
  split at hread
  · cases hread
  · rename_i reached hrest
    obtain ⟨drawer, closing, body, rfl, hdrawer, hclosing⟩ :=
      exists_drawer_of_feedAll hrest hrestLines (finish_eq_ok_iff.mp hread).1
    let e : EntryLines := ⟨line, blanks, opening, drawer, closing, body⟩
    have hbody : ∀ line ∈ body, isHeadlineLine line = false :=
      fun line hl => hrestLines line (by simp [hl])
    have hdrawerFree : ∀ line ∈ drawer, Text.EndFree line :=
      fun line hl => hfree line (by simp [hl])
    rw [feedAll_append, feedAll_drawer hdrawerFree hdrawer] at hrest
    simp only [Except.bind] at hrest
    rw [feedAll, feedNext_end hclosing] at hrest
    simp only [feedAll_body hbody, Except.ok.injEq] at hrest
    subst hrest
    obtain ⟨-, ⟨hnone, -⟩ | ⟨d, i, hd, hi, -⟩⟩ := finish_eq_ok_iff.mp hread
    · cases hnone
    · obtain rfl := Option.some.inj hd
      exact ⟨e, rfl, ⟨headline, hdecode⟩, hblanks, hopening, hdrawer, hclosing, hbody,
        (Draft.exists_toIssue_iff _).mp ⟨i, hi⟩⟩

/-! ## The entries of a document -/

/-- Lines fall into those before the first headline and the rest. -/
private theorem split_at_headline (lines : List Text) :
    ∃ before rest, lines = before ++ rest ∧ (∀ line ∈ before, isHeadlineLine line = false) ∧
      ∀ line others, rest = line :: others → isHeadlineLine line = true := by
  refine ⟨lines.takeWhile fun l => !isHeadlineLine l, lines.dropWhile fun l => !isHeadlineLine l,
    List.takeWhile_append_dropWhile.symm, fun line hline => ?_, fun line others hrest => ?_⟩
  · simpa using List.mem_takeWhile_imp hline
  · simpa using Span.not_of_dropWhile_eq_cons hrest

/-- Lines that start at a headline and can be read are those of entries. The induction is on the
number of lines, because an entry is taken off in front as a whole. -/
theorem exists_entries_of_readAll {r : Reader}
    (h : readAll ⟨.unassigned, n, none, issues⟩ lines = .ok r)
    (hhead : ∀ line others, lines = line :: others → isHeadlineLine line = true)
    (hfree : ∀ line ∈ lines, Text.EndFree line) :
    ∃ entries : List EntryLines, lines = entries.flatMap EntryLines.lines ∧
      ∀ e ∈ entries, e.IsEntry := by
  induction hlen : lines.length using Nat.strong_induction_on generalizing lines n issues with
  | _ size ih =>
      cases lines with
      | nil => exact ⟨[], rfl, by simp⟩
      | cons line others =>
          have hline := hhead line others rfl
          obtain ⟨inner, rest, rfl, hinner, hrest⟩ := split_at_headline others
          have hinnerFree : ∀ line ∈ inner, Text.EndFree line :=
            fun l hl => hfree l (by simp [hl])
          cases rest with
          | nil =>
              rw [List.append_nil] at h ⊢
              obtain ⟨e, he, hentry⟩ := exists_entry_of_readAll h hline hinner hinnerFree
              exact ⟨[e], by simp [he], by simpa using hentry⟩
          | cons next rest =>
              have hnext := hrest next rest rfl
              rw [← List.cons_append] at h hfree hlen ⊢
              obtain ⟨settled, hfirst, hothers⟩ := (readAll_append_iff hnext).mp h
              obtain ⟨e, he, hentry⟩ := exists_entry_of_readAll hfirst hline hinner hinnerFree
              have heFree : ∀ line ∈ e.lines, Text.EndFree line := by
                rw [he]
                exact fun l hl => hfree l (List.mem_append_left _ hl)
              obtain ⟨m, i, -, hread⟩ := @readAll_entry n issues e hentry heFree
              rw [he, hfirst, Except.ok.injEq] at hread
              subst hread
              have hshort : (next :: rest).length < size := by
                rw [← hlen]
                simp only [List.length_cons, List.length_append]
                omega
              obtain ⟨entries, hentries, hall⟩ := ih _ hshort hothers
                (fun l os hl => by rw [← (List.cons.inj hl).1]; exact hnext)
                (fun l hl => hfree l (List.mem_append_right _ hl)) rfl
              refine ⟨e :: entries, ?_, List.forall_mem_cons.mpr ⟨hentry, hall⟩⟩
              rw [List.flatMap_cons, he, hentries]

/-- Lines that can be read are a preamble and the lines of entries. -/
theorem exists_document_of_readAll {r : Reader} (h : start.readAll lines = .ok r)
    (hfree : ∀ line ∈ lines, Text.EndFree line) :
    ∃ preamble entries, IsDocument lines preamble entries := by
  obtain ⟨preamble, rest, rfl, hpreamble, hrest⟩ := split_at_headline lines
  rw [readAll, feedAll_append, start, feedAll_unassigned hpreamble] at h
  obtain ⟨entries, hentries, hall⟩ := exists_entries_of_readAll h hrest
    (fun line hline => hfree line (List.mem_append_right _ hline))
  exact ⟨preamble, entries, by rw [hentries], hpreamble, hall⟩

/-- The lines of a document are read to one issue an entry. -/
theorem readAll_of_isDocument {preamble : List Text} {entries : List EntryLines}
    (h : IsDocument lines preamble entries) (hfree : ∀ line ∈ lines, Text.EndFree line) :
    ∃ r, start.readAll lines = .ok r ∧ List.Forall₂ EntryLines.Yields entries r.issues := by
  obtain ⟨rfl, hpreamble, hentries⟩ := h
  obtain ⟨m, made, hmade, hread⟩ := @readAll_entries (0 + preamble.length) [] entries
    hentries (fun line hline => hfree line (List.mem_append_right _ hline))
  refine ⟨⟨.unassigned, m, none, made⟩, ?_, hmade⟩
  rw [readAll, feedAll_append, start, feedAll_unassigned hpreamble]
  exact hread

end Reader

/-- The description of an issue is that of the lines that make it. -/
theorem EntryLines.Yields.description_eq {e : EntryLines} {i : Issue} (h : e.Yields i) :
    i.description = e.description := by
  obtain ⟨headline, line, -, hissue⟩ := h
  obtain ⟨id, moment, -, -, -, -, rfl⟩ := (Draft.toIssue_eq_ok_iff _ i).mp hissue
  rfl

/-- The lines of an entry make one issue only. -/
theorem EntryLines.Yields.unique {e : EntryLines} {i j : Issue} (hi : e.Yields i)
    (hj : e.Yields j) : i = j := by
  obtain ⟨h, line, hheadline, hissue⟩ := hi
  obtain ⟨h', line', hheadline', hissue'⟩ := hj
  obtain rfl := Except.ok.inj (hheadline.symm.trans hheadline')
  obtain ⟨id, moment, hid, -, ⟨value, hfirst, hmoment⟩, -, rfl⟩ :=
    (Draft.toIssue_eq_ok_iff _ i).mp hissue
  obtain ⟨id', moment', hid', -, ⟨value', hfirst', hmoment'⟩, -, rfl⟩ :=
    (Draft.toIssue_eq_ok_iff _ j).mp hissue'
  obtain rfl := Option.some.inj (hid.symm.trans hid')
  obtain rfl := Option.some.inj (hfirst.symm.trans hfirst')
  obtain rfl := Except.ok.inj (hmoment.symm.trans hmoment')
  rfl

theorem readDocument_eq (text : Text) :
    readDocument text = (Reader.start.readAll (Text.bodies (Text.dropBom text))).map
      Reader.issues := by
  simp only [readDocument, Reader.readAll]
  cases Reader.start.feedAll (Text.bodies (Text.dropBom text)) with
  | error fault => rfl
  | ok r =>
      simp only [bind, Except.bind]
      cases r.finish <;> rfl

/-- What is read was made of the entries of a document. -/
theorem exists_document_of_readDocument {text : Text} {issues : List Issue}
    (h : readDocument text = .ok issues) :
    ∃ preamble entries, IsDocument (Text.bodies (Text.dropBom text)) preamble entries ∧
      List.Forall₂ EntryLines.Yields entries issues := by
  have hfree : ∀ line ∈ Text.bodies (Text.dropBom text), Text.EndFree line :=
    fun line hline => Text.endFree_of_mem_bodies hline
  rw [readDocument_eq] at h
  cases hr : Reader.start.readAll (Text.bodies (Text.dropBom text)) with
  | error fault => simp [hr, Except.map] at h
  | ok r =>
      rw [hr] at h
      obtain rfl := Except.ok.inj h
      obtain ⟨preamble, entries, hdocument⟩ := Reader.exists_document_of_readAll hr hfree
      obtain ⟨r', hr', hyields⟩ := Reader.readAll_of_isDocument hdocument hfree
      obtain rfl := Except.ok.inj (hr.symm.trans hr')
      exact ⟨preamble, entries, hdocument, hyields⟩

/-- A text is read exactly when its lines are those of a document, and it is read to one issue an
entry, in order. -/
theorem readDocument_spec (text : Text) :
    ((∃ issues, readDocument text = .ok issues) ↔
      ∃ preamble entries, IsDocument (Text.bodies (Text.dropBom text)) preamble entries) ∧
    ∀ preamble entries, IsDocument (Text.bodies (Text.dropBom text)) preamble entries →
      ∃ issues, readDocument text = .ok issues ∧
        List.Forall₂ (fun e i => EntryLines.Yields e i ∧ i.description = e.description)
          entries issues := by
  have hfree : ∀ line ∈ Text.bodies (Text.dropBom text), Text.EndFree line :=
    fun line hline => Text.endFree_of_mem_bodies hline
  have hread : ∀ preamble entries,
      IsDocument (Text.bodies (Text.dropBom text)) preamble entries →
      ∃ issues, readDocument text = .ok issues ∧
        List.Forall₂ (fun e i => EntryLines.Yields e i ∧ i.description = e.description)
          entries issues := by
    intro preamble entries hdocument
    obtain ⟨r, hr, hyields⟩ := Reader.readAll_of_isDocument hdocument hfree
    refine ⟨r.issues, by rw [readDocument_eq, hr]; rfl, ?_⟩
    exact hyields.imp fun _ _ h => ⟨h, h.description_eq⟩
  refine ⟨⟨?_, ?_⟩, hread⟩
  · rintro ⟨issues, hissues⟩
    rw [readDocument_eq] at hissues
    cases hr : Reader.start.readAll (Text.bodies (Text.dropBom text)) with
    | error fault => simp [hr, Except.map] at hissues
    | ok r => exact Reader.exists_document_of_readAll hr hfree
  · rintro ⟨preamble, entries, hdocument⟩
    obtain ⟨issues, hissues, -⟩ := hread preamble entries hdocument
    exact ⟨issues, hissues⟩

end TodoLedger
