import TodoLedger.Proofs.Document.Grammar
/-!
# Reading the lines of a document

The reader is followed line by line: through the blanks behind a headline, the drawer and the body.
A run over the lines of one entry makes its issue, a run that comes to an end has read an entry, and
runs over entries compose at each headline. Together these give `readDocument_spec`.
-/

namespace TodoLedger

/-! ## What a drawer line sets -/

theorem exists_setting?_of_isSetting {line : Text} (hfree : Text.EndFree line)
    (h : IsSetting line) :
    ∃ key value, propertyOf? (Text.trim line) = some (key, value) ∧ key ≠ [] := by
  obtain ⟨key, value, hform, hkey, hblank⟩ := h
  have hvalue : Rune.ofChar '\n' ∉ value := by
    refine (Text.EndFree.of_infix ?_ hfree).not_mem_lf
    refine List.IsInfix.trans ?_ (Text.trim_isInfix line)
    rw [hform]
    exact ((List.suffix_cons _ _).trans (List.suffix_append _ _)).isInfix
  refine ⟨Text.trim key, Text.trim value, ?_, ?_⟩
  · rw [hform]
    exact propertyOf?_of_form hkey hvalue
  · intro hnil
    rw [Text.trim_eq_nil_iff, hblank] at hnil
    cases hnil

theorem isSetting_of_propertyOf? {line key value : Text}
    (h : propertyOf? (Text.trim line) = some (key, value)) (hne : key ≠ []) :
    IsSetting line := by
  obtain ⟨k, v, hform, hnot, rfl, rfl⟩ := form_of_propertyOf? h
  refine ⟨k, v, hform, hnot, ?_⟩
  by_contra hblank
  exact hne (Text.trim_eq_nil_iff.mpr (by simpa using hblank))

theorem Properties.setAll_append (p : Properties) (s t : List (Text × Text)) :
    p.setAll (s ++ t) = (p.setAll s).setAll t := by
  simp [Properties.setAll, List.foldl_append]

namespace Reader

theorem feedAll_append (r : Reader) (s t : List Text) :
    r.feedAll (s ++ t) = (r.feedAll s).bind fun r => r.feedAll t := by
  induction s generalizing r with
  | nil => rfl
  | cons line s ih =>
      rw [List.cons_append, feedAll, feedAll]
      split
      · exact ih _
      · rfl

/-! ## Running through an entry -/

section Run

variable {n : Nat} {d : Draft} {issues : List Issue} {line : Text} {lines : List Text}

theorem feedAll_unassigned (h : ∀ line ∈ lines, isHeadlineLine line = false) :
    feedAll ⟨.unassigned, n, none, issues⟩ lines =
      .ok ⟨.unassigned, n + lines.length, none, issues⟩ := by
  induction lines generalizing n with
  | nil => rfl
  | cons line lines ih =>
      obtain ⟨hline, hlines⟩ := List.forall_mem_cons.mp h
      simp only [feedAll, feedNext, feed, hline, Bool.false_eq_true, if_false, feedInner]
      rw [ih hlines, List.length_cons, Nat.add_right_comm, Nat.add_assoc]

theorem feedAll_body (h : ∀ line ∈ lines, isHeadlineLine line = false) :
    feedAll ⟨.body, n, some d, issues⟩ lines =
      .ok ⟨.body, n + lines.length, some { d with body := d.body ++ lines }, issues⟩ := by
  induction lines generalizing n d with
  | nil => simp [feedAll]
  | cons line lines ih =>
      obtain ⟨hline, hlines⟩ := List.forall_mem_cons.mp h
      simp only [feedAll, feedNext, feed, hline, Bool.false_eq_true, if_false, feedInner, addBody]
      rw [ih hlines]
      simp only [List.length_cons, List.append_assoc, List.singleton_append]
      rw [Nat.add_right_comm, Nat.add_assoc]

theorem feedNext_drawer (hfree : Text.EndFree line) (h : IsDrawerLine line) :
    feedNext ⟨.properties, n, some d, issues⟩ line =
      (⟨.properties, n + 1, some { d with
        properties := d.properties.setAll (setting? line).toList }, issues⟩, none) := by
  simp only [feedNext, feed, h.notHeadline, Bool.false_eq_true, if_false, feedInner, inDrawer,
    h.notEnd, setting?]
  by_cases hcolon : (Text.trim line).head? = some (Rune.ofChar ':')
  · obtain ⟨key, value, hproperty, hne⟩ := exists_setting?_of_isSetting hfree (h.setting hcolon)
    have hempty : key.isEmpty = false := by simpa using hne
    simp [hcolon, hproperty, hempty, Properties.setAll]
  · simp [hcolon, Properties.setAll]

theorem feedAll_drawer (hfree : ∀ line ∈ lines, Text.EndFree line)
    (h : ∀ line ∈ lines, IsDrawerLine line) :
    feedAll ⟨.properties, n, some d, issues⟩ lines =
      .ok ⟨.properties, n + lines.length, some { d with
        properties := d.properties.setAll (lines.filterMap setting?) }, issues⟩ := by
  induction lines generalizing n d with
  | nil => simp [feedAll, Properties.setAll]
  | cons line lines ih =>
      obtain ⟨hline, hlines⟩ := List.forall_mem_cons.mp h
      obtain ⟨hfline, hflines⟩ := List.forall_mem_cons.mp hfree
      rw [feedAll, feedNext_drawer hfline hline]
      simp only
      rw [ih hflines hlines, List.length_cons, Nat.add_right_comm, Nat.add_assoc]
      have hset : (line :: lines).filterMap setting? =
          (setting? line).toList ++ lines.filterMap setting? := by
        cases hs : setting? line <;> simp [hs]
      rw [hset, Properties.setAll_append]

theorem feedNext_end (hend : isMarkerLine endMarker line = true) :
    feedNext ⟨.properties, n, some d, issues⟩ line =
      (⟨.body, n + 1, some d, issues⟩, none) := by
  have hline : isHeadlineLine line = false := notHeadline_of_marker (by decide) hend
  simp [feedNext, feed, hline, feedInner, inDrawer, hend]

theorem feedAll_blanks (h : ∀ line ∈ lines, Text.isBlank line = true) :
    feedAll ⟨.headline, n, some d, issues⟩ lines =
      .ok ⟨.headline, n + lines.length, some { d with body := d.body ++ lines }, issues⟩ := by
  induction lines generalizing n d with
  | nil => simp [feedAll]
  | cons line lines ih =>
      obtain ⟨hline, hlines⟩ := List.forall_mem_cons.mp h
      have hnot : isHeadlineLine line = false := notHeadline_of_blank hline
      have hmark : isMarkerLine drawerMarker line = false :=
        notMarker_of_blank (by decide) hline
      simp only [feedAll, feedNext, feed, hnot, Bool.false_eq_true, if_false, feedInner,
        afterHeadline, hmark, hline, if_true, addBody]
      rw [ih hlines]
      simp only [List.length_cons, List.append_assoc, List.singleton_append]
      rw [Nat.add_right_comm, Nat.add_assoc]

theorem feedNext_opening (hopen : isMarkerLine drawerMarker line = true) :
    feedNext ⟨.headline, n, some d, issues⟩ line =
      (⟨.properties, n + 1, some { d with body := [] }, issues⟩, none) := by
  have hline : isHeadlineLine line = false := notHeadline_of_marker (by decide) hopen
  simp [feedNext, feed, hline, feedInner, afterHeadline, hopen]

end Run

/-! ## Settling at a headline and at the end -/

/-- Reads lines up to the end of a document. -/
def readAll (r : Reader) (lines : List Text) : Except ReadFault Reader :=
  (r.feedAll lines).bind finish

theorem finish_eq_ok_iff {r r' : Reader} : r.finish = .ok r' ↔ r.phase ≠ .properties ∧
    (r.draft = none ∧ r' = r ∨ ∃ d i, r.draft = some d ∧ d.toIssue = .ok i ∧
      r' = ⟨.unassigned, r.line, none, r.issues ++ [i]⟩) := by
  obtain ⟨phase, n, draft, issues⟩ := r
  rw [finish]
  by_cases hphase : phase = .properties
  · simp [hphase]
  · simp only [hphase, if_false, ne_eq, not_false_eq_true, true_and, settleIfAny]
    cases draft with
    | none => simp [eq_comm]
    | some d =>
        simp only [Option.isNone_some, Bool.false_eq_true, if_false, settle]
        cases hissue : d.toIssue with
        | error fault => simp [Except.map, hissue]
        | ok i => simp [Except.map, hissue, eq_comm]

theorem finish_of_finish {r r' : Reader} (h : r.finish = .ok r') : r'.finish = .ok r' := by
  rw [finish_eq_ok_iff] at h ⊢
  obtain ⟨hphase, ⟨hdraft, rfl⟩ | ⟨d, i, -, -, rfl⟩⟩ := h
  · exact ⟨hphase, Or.inl ⟨hdraft, rfl⟩⟩
  · exact ⟨by simp, Or.inl ⟨rfl, rfl⟩⟩

theorem line_of_finish {r r' : Reader} (h : r.finish = .ok r') : r'.line = r.line := by
  obtain ⟨-, ⟨-, rfl⟩ | ⟨d, i, -, -, rfl⟩⟩ := finish_eq_ok_iff.mp h <;> rfl

/-- A headline is taken where the document might have ended. -/
theorem feedNext_headline_iff {r r' : Reader} {line : Text}
    (hline : isHeadlineLine line = true) :
    r.feedNext line = (r', none) ↔ ∃ settled h, r.finish = .ok settled ∧
      Headline.decode line = .ok h ∧
      r' = ⟨.headline, r.line + 1, some (.ofHeadline (r.line + 1) h), settled.issues⟩ := by
  obtain ⟨phase, n, draft, issues⟩ := r
  simp only [feedNext, feed, hline, if_true, feedHeadline, finish_eq_ok_iff]
  by_cases hphase : phase = .properties
  · simp [hphase]
  · simp only [hphase, if_false, settleIfAny, ne_eq, not_false_eq_true, true_and]
    cases draft with
    | none =>
        cases hdecode : Headline.decode line with
        | error cause => simp
        | ok h => simp [eq_comm]
    | some d =>
        simp only [Option.isNone_some, Bool.false_eq_true, if_false, settle]
        cases hissue : d.toIssue with
        | error fault => simp [Except.map, hissue]
        | ok i =>
            cases hdecode : Headline.decode line with
            | error cause => simp [Except.map]
            | ok h => simp [Except.map, hissue, eq_comm]

theorem readAll_cons {r : Reader} {line : Text} {lines : List Text} {r' : Reader} :
    r.readAll (line :: lines) = .ok r' ↔
      ∃ next, r.feedNext line = (next, none) ∧ next.readAll lines = .ok r' := by
  rw [readAll, feedAll]
  cases hfeed : r.feedNext line with
  | mk next fault =>
      cases fault with
      | none => simp [readAll]
      | some fault => simp [Except.bind]

/-- Runs compose at a headline. -/
theorem readAll_append_iff {r r' : Reader} {line : Text} {lines rest : List Text}
    (hline : isHeadlineLine line = true) :
    r.readAll (lines ++ line :: rest) = .ok r' ↔
      ∃ settled, r.readAll lines = .ok settled ∧ settled.readAll (line :: rest) = .ok r' := by
  have hsplit : r.readAll (lines ++ line :: rest) =
      (r.feedAll lines).bind fun reached => reached.readAll (line :: rest) := by
    rw [readAll, feedAll_append]
    cases r.feedAll lines <;> rfl
  rw [hsplit, readAll]
  cases r.feedAll lines with
  | error fault => simp [Except.bind]
  | ok reached =>
      simp only [Except.bind, readAll_cons, feedNext_headline_iff hline]
      constructor
      · rintro ⟨next, ⟨settled, h, hfinish, hdecode, rfl⟩, hrest⟩
        refine ⟨settled, hfinish, _, ⟨settled, h, finish_of_finish hfinish, hdecode, rfl⟩, ?_⟩
        rw [line_of_finish hfinish]
        exact hrest
      · rintro ⟨settled, hfinish, next, ⟨again, h, hagain, hdecode, rfl⟩, hrest⟩
        rw [finish_of_finish hfinish] at hagain
        obtain rfl : settled = again := by simpa using hagain
        refine ⟨_, ⟨settled, h, hfinish, hdecode, rfl⟩, ?_⟩
        rw [line_of_finish hfinish] at hrest
        exact hrest

end Reader

end TodoLedger
