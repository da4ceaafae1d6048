import TodoLedger.Proofs.Text.Seam
/-!
# Lines with their endings

A text is cut into physical lines that keep their endings. `AreLines` says what such lines are without
the cutting: bodies that end no line, each with an ending, of which only the last may go without one,
and no line feed parted from its carriage return. The cut gives the only lines that make up the text,
and what is put behind a line end is cut for itself.
-/

namespace TodoLedger.Text

variable {l m : Line} {ls ms : List Line} {ts : List Text} {t a b body : Text} {e : Ending}

/-- The physical lines of a text, each with its ending. -/
def wholeLines (t : Text) : List Text := (lines t).map Line.text

/-- The texts are physical lines, one behind the other. -/
structure AreLines (ts : List Text) : Prop where
  ended : ∀ (front : List Text) (t : Text) (back : List Text), ts = front ++ t :: back →
    ∃ (body : Text) (e : Ending), EndFree body ∧ t = body ++ e.text ∧
      (e = .open → back = [] ∧ body ≠ [])
  joined : ∀ (front : List Text) (t u : Text) (back : List Text), ts = front ++ t :: u :: back →
    t.getLast? = some (Rune.ofChar '\r') → u ≠ [Rune.ofChar '\n']

theorem AreLines.of_cons (h : AreLines (t :: ts)) : AreLines ts where
  ended front u back hts := h.ended (t :: front) u back (by rw [hts, List.cons_append])
  joined front u v back hts := h.joined (t :: front) u v back (by rw [hts, List.cons_append])

/-! ## Body and ending of one line -/

/-- Behind a body that ends no line the ending is told from the last characters. -/
theorem ending_append (h : EndFree body) (e : Ending) : ending (body ++ e.text) = e := by
  have hcr : Rune.ofChar '\r' ≠ Rune.ofChar '\n' := by decide
  cases e with
  | «open» =>
      rw [Ending.text, List.append_nil, ending]
      cases hrev : body.reverse with
      | nil => rfl
      | cons c r =>
          have hmem : c ∈ body := List.mem_reverse.mp (hrev ▸ List.mem_cons_self)
          obtain ⟨hn, hr⟩ := isLineEnd_eq_false.mp (h c hmem)
          simp [hn, hr]
  | lf =>
      have hlast : body.getLast? ≠ some (Rune.ofChar '\r') := fun hlast =>
        absurd (h _ (List.mem_of_getLast? hlast)) (by decide)
      simp [ending, Ending.text, hlast]
  | cr => simp [ending, Ending.text, hcr]
  | crlf => simp [ending, Ending.text]

theorem stripEnding_append (h : EndFree body) (e : Ending) :
    stripEnding (body ++ e.text) = body := by
  rw [stripEnding, ending_append h, List.length_append, Nat.add_sub_cancel, List.take_left]

theorem ending_eq_cr_iff : ending t = .cr ↔ t.getLast? = some (Rune.ofChar '\r') := by
  have hcr : Rune.ofChar '\r' ≠ Rune.ofChar '\n' := by decide
  rw [ending, ← List.head?_reverse]
  cases t.reverse with
  | nil => simp
  | cons c r =>
      simp only [List.head?_cons, Option.some.injEq]
      by_cases hn : c = Rune.ofChar '\n'
      · subst hn
        refine iff_of_false ?_ hcr.symm
        rw [if_pos rfl]
        split_ifs <;> simp
      · rw [if_neg hn]
        split_ifs with hr
        · exact iff_of_true rfl hr
        · exact iff_of_false (by simp) hr

/-- A line that is a mere line feed has nothing in its body. -/
theorem eq_of_text_eq_lf (h : EndFree l.body) (htext : l.text = [Rune.ofChar '\n']) :
    l = ⟨[], .lf⟩ := by
  have hending := ending_append h l.ending
  have hbody := stripEnding_append h l.ending
  rw [← Line.text, htext] at hending hbody
  obtain ⟨body, e⟩ := l
  rw [Line.mk.injEq]
  exact ⟨hbody.symm, hending.symm⟩

/-! ## The lines of a text -/

theorem WellCut.head (h : WellCut (l :: ls)) : EndFree l.body ∧
    (l.ending = .open → ls = [] ∧ l.body ≠ []) ∧
    (l.ending = .cr → ls.head? ≠ some ⟨[], .lf⟩) := by
  cases h with
  | last hne hfree => exact ⟨hfree, fun _ => ⟨rfl, hne⟩, fun hcr => by cases hcr⟩
  | cons hfree hends hcr _ => exact ⟨hfree, fun hopen => absurd hopen hends, hcr⟩

theorem WellCut.areLines (h : WellCut ls) : AreLines (ls.map Line.text) where
  ended front t back hts := by
    obtain ⟨fs, rest, rfl, rfl, hrest⟩ := List.map_eq_append_iff.mp hts
    obtain ⟨l, bs, rfl, rfl, rfl⟩ := List.map_eq_cons_iff.mp hrest
    obtain ⟨hfree, hopen, -⟩ := h.of_append_right.head
    refine ⟨l.body, l.ending, hfree, rfl, fun hends => ?_⟩
    obtain ⟨rfl, hne⟩ := hopen hends
    exact ⟨rfl, hne⟩
  joined front t u back hts hlast := by
    obtain ⟨fs, rest, rfl, rfl, hrest⟩ := List.map_eq_append_iff.mp hts
    obtain ⟨l, behind, rfl, rfl, hbehind⟩ := List.map_eq_cons_iff.mp hrest
    obtain ⟨m, bs, rfl, rfl, rfl⟩ := List.map_eq_cons_iff.mp hbehind
    obtain ⟨hfree, -, hcr⟩ := h.of_append_right.head
    have hending : l.ending = .cr := by
      rw [← ending_append hfree l.ending]
      exact ending_eq_cr_iff.mpr hlast
    intro hlf
    have hmfree := h.of_append_right.endFree m (by simp)
    exact hcr hending (congrArg some (eq_of_text_eq_lf hmfree hlf))

theorem AreLines.exists_wellCut (h : AreLines ts) : ∃ ls, WellCut ls ∧ ls.map Line.text = ts := by
  induction ts with
  | nil => exact ⟨[], .nil, rfl⟩
  | cons t ts ih =>
      obtain ⟨ls, hls, rfl⟩ := ih h.of_cons
      obtain ⟨body, e, hfree, rfl, hopen⟩ := h.ended [] t _ rfl
      by_cases hends : e = .open
      · obtain ⟨hnil, hne⟩ := hopen hends
        subst hends
        obtain rfl := List.map_eq_nil_iff.mp hnil
        exact ⟨[⟨body, .open⟩], .last hne hfree, rfl⟩
      · refine ⟨⟨body, e⟩ :: ls, .cons hfree hends (fun hcr hhead => ?_) hls, rfl⟩
        obtain ⟨ls, rfl⟩ := List.head?_eq_some_iff.mp hhead
        refine h.joined [] _ _ _ rfl (ending_eq_cr_iff.mp ?_) rfl
        rw [ending_append hfree]
        exact hcr

@[simp] theorem flatten_wholeLines (t : Text) : (wholeLines t).flatten = t := by
  rw [wholeLines, ← List.flatMap_def]
  exact ofLines_lines t

theorem areLines_wholeLines (t : Text) : AreLines (wholeLines t) := (wellCut_lines t).areLines

/-- No other lines make up the text. -/
theorem AreLines.eq_wholeLines (h : AreLines ts) (hflatten : ts.flatten = t) :
    ts = wholeLines t := by
  obtain ⟨ls, hls, rfl⟩ := h.exists_wellCut
  rw [← List.flatMap_def] at hflatten
  rw [wholeLines, ← hflatten]
  exact congrArg _ (lines_ofLines hls).symm

theorem bodies_eq_map_stripEnding (t : Text) : bodies t = (wholeLines t).map stripEnding := by
  rw [bodies, wholeLines, List.map_map]
  refine List.map_congr_left fun l hl => ?_
  exact (stripEnding_append ((wellCut_lines t).endFree l hl) l.ending).symm

/-! ## Texts one behind the other -/

/-- Lines that are all closed stay as they are in front of other lines, unless a carriage return meets
a line feed. -/
theorem WellCut.append (h : WellCut ls) (hms : WellCut ms) (hclosed : ∀ l ∈ ls, l.ending ≠ .open)
    (hseam : ls.getLast?.map Line.ending = some .cr → ms.head? ≠ some ⟨[], .lf⟩) :
    WellCut (ls ++ ms) := by
  induction h with
  | nil => exact hms
  | last => exact absurd rfl (hclosed _ List.mem_cons_self)
  | @cons l ls hfree hends hcr _ ih =>
      have hrest := fun m hm => hclosed m (List.mem_cons_of_mem _ hm)
      cases ls with
      | nil => exact .cons hfree hends (fun hl => hseam (by simp [hl])) hms
      | cons m ls =>
          refine .cons hfree hends (by simpa using hcr) (ih hrest fun hlast => hseam ?_)
          rwa [List.getLast?_cons_cons]

/-- A text ends as the last of its lines does. -/
theorem getLast?_of_lines_eq (h : lines t = ls ++ [l]) : t.getLast? = l.text.getLast? := by
  have hcut := wellCut_lines t
  rw [h] at hcut
  have hne : l.text ≠ [] := by
    intro hnil
    obtain ⟨hbody, hending⟩ := List.append_eq_nil_iff.mp hnil
    have hopen : l.ending = .open := by
      cases hends : l.ending <;> simp_all [Ending.text]
    exact hcut.opened l (by simp) hopen hbody
  conv_lhs => rw [← ofLines_lines t, h, ofLines_append, ofLines_cons, ofLines_nil, List.append_nil]
  rw [List.getLast?_append, List.getLast?_eq_some_getLast hne]
  rfl

/-- What stands behind a text that is empty or ends a line is cut for itself, unless a line feed joins
a carriage return. -/
theorem lines_append (hclosed : a = [] ∨ ∃ c, a.getLast? = some c ∧ c.isLineEnd = true)
    (hseam : ¬(a.getLast? = some (Rune.ofChar '\r') ∧ b.head? = some (Rune.ofChar '\n'))) :
    lines (a ++ b) = lines a ++ lines b := by
  rcases List.eq_nil_or_concat (lines a) with hnil | ⟨front, l, hlines⟩
  · have ha : a = [] := by rw [← ofLines_lines a, hnil, ofLines_nil]
    rw [ha, lines_nil, List.nil_append, List.nil_append]
  · rw [List.concat_eq_append] at hlines
    have hcut := wellCut_lines a
    have hlast := getLast?_of_lines_eq hlines
    have hfree : EndFree l.body := hcut.endFree l (by simp [hlines])
    have hends : l.ending ≠ .open := by
      intro hopen
      obtain rfl | ⟨c, hc, hend⟩ := hclosed
      · simp at hlines
      · rw [hlast, Line.text, hopen, Ending.text, List.append_nil] at hc
        rw [hfree c (List.mem_of_getLast? hc)] at hend
        cases hend
    have hcuts : WellCut (lines a ++ lines b) := by
      refine hcut.append (wellCut_lines b) ?_ fun hcr hlf => hseam ⟨?_, ?_⟩
      · have hfront := List.pairwise_append.mp (hlines ▸ hcut.terminated)
        rw [hlines, List.forall_mem_append, List.forall_mem_singleton]
        exact ⟨fun m hm => hfront.2.2 m hm l List.mem_cons_self, hends⟩
      · rw [hlast, ← ending_eq_cr_iff, Line.text, ending_append hfree]
        simpa [hlines] using hcr
      · obtain ⟨rest, hrest⟩ := List.head?_eq_some_iff.mp hlf
        rw [← ofLines_lines b, hrest]
        rfl
    rw [← lines_ofLines hcuts, ofLines_append, ofLines_lines, ofLines_lines]

/-- Texts are cut one by one where a line ends between them. -/
theorem wholeLines_append (hclosed : a = [] ∨ ∃ c, a.getLast? = some c ∧ c.isLineEnd = true)
    (hseam : ¬(a.getLast? = some (Rune.ofChar '\r') ∧ b.head? = some (Rune.ofChar '\n'))) :
    wholeLines (a ++ b) = wholeLines a ++ wholeLines b := by
  rw [wholeLines, lines_append hclosed hseam, List.map_append]
  rfl

/-! ## One ending for all lines -/

theorem lines_flatMap_append (he : e ≠ .open) {bodies : List Text} (h : ∀ b ∈ bodies, EndFree b) :
    lines (bodies.flatMap fun b => b ++ e.text) = bodies.map fun b => ⟨b, e⟩ := by
  rw [← lines_ofLines (wellCut_map he h), ofLines, List.flatMap_map]
  rfl

end TodoLedger.Text
