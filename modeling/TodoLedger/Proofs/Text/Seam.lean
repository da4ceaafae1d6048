import TodoLedger.Proofs.Text.Stable
/-!
# Seams between lines

Lines of a text can be exchanged for others as long as none of them continues the end of the line in
front. Where a line is taken out its neighbours come to meet. They stay two lines, unless the line
stood between a carriage return and a mere line feed: the two are one line end then.
-/

namespace TodoLedger.Text

open Utf8

variable {l : Line} {ls front back back' : List Line} {n : Nat}

theorem WellCut.of_cons (h : WellCut (l :: ls)) : WellCut ls := by
  cases h with
  | last => exact .nil
  | cons _ _ _ hls => exact hls

theorem WellCut.of_append_right (h : WellCut (front ++ back)) : WellCut back := by
  induction front with
  | nil => exact h
  | cons l front ih => exact ih h.of_cons

/-- What stands behind some lines can be exchanged for other lines, unless these continue the end of
the last line in front. -/
theorem WellCut.replace (h : WellCut (front ++ back)) (hne : back ≠ []) (hback : WellCut back')
    (hseam : front.getLast?.map Line.ending = some .cr → back'.head? ≠ some ⟨[], .lf⟩) :
    WellCut (front ++ back') := by
  induction front with
  | nil => exact hback
  | cons l front ih =>
      rw [List.cons_append] at h ⊢
      generalize hls : front ++ back = ls at h
      cases h with
      | last => exact absurd (List.append_eq_nil_iff.mp hls).2 hne
      | cons hb he hcr hrest =>
          subst hls
          cases front with
          | nil => exact .cons hb he (fun hl => hseam (by simp [hl])) hback
          | cons m front =>
              refine .cons hb he (by simpa using hcr) (ih hrest fun hlast => hseam ?_)
              rwa [List.getLast?_cons_cons]

/-- The body of a line can be exchanged for another that ends no line. -/
theorem WellCut.exchange {body : Text} (h : WellCut (front ++ l :: back)) (hne : body ≠ [])
    (hfree : EndFree body) : WellCut (front ++ { l with body } :: back) := by
  refine h.replace (by simp) ?_ fun _ hhead => hne (congrArg Line.body (Option.some.inj hhead))
  cases h.of_append_right with
  | last _ _ => exact .last hne hfree
  | cons _ hends hreturn hback => exact .cons hfree hends hreturn hback

/-- With another body in one of its lines a text is read back as the lines it was written as. -/
theorem exchange_spec {t body : Text} (ht : IsStable t) (hlines : lines t = front ++ l :: back)
    (hne : body ≠ []) (hbody : IsStable body ∧ EndFree body) :
    IsStable (ofLines (front ++ { l with body } :: back)) ∧
      lines (ofLines (front ++ { l with body } :: back)) = front ++ { l with body } :: back := by
  have hexchanged := (hlines ▸ wellCut_lines t).exchange hne hbody.2
  have hstable : ∀ m ∈ front ++ l :: back, IsStable m.body := fun m hm =>
    isStable_of_mem_lines ht (hlines ▸ hm)
  refine ⟨isStable_ofLines (fun m hm => ?_) hexchanged.terminated, lines_ofLines hexchanged⟩
  rcases List.mem_append.mp hm with hm | hm
  · exact hstable m (List.mem_append_left _ hm)
  · rcases List.mem_cons.mp hm with rfl | hm
    · exact hbody.1
    · exact hstable m (List.mem_append_right _ (List.mem_cons_of_mem _ hm))

/-- The line at a position stands between a carriage return and a mere line feed. -/
def IsWedge (ls : List Line) (n : Nat) : Prop :=
  1 ≤ n ∧ (ls[n - 1]?).map Line.ending = some .cr ∧ ls[n + 1]? = some ⟨[], .lf⟩

instance (ls : List Line) (n : Nat) : Decidable (IsWedge ls n) :=
  inferInstanceAs (Decidable (_ ∧ _ ∧ _))

theorem exists_split (hn : n < ls.length) : ∃ front l back, ls = front ++ l :: back ∧
    n = front.length := by
  refine ⟨ls.take n, ls[n], ls.drop (n + 1), ?_, ?_⟩
  · rw [List.getElem_cons_drop hn, List.take_append_drop]
  · rw [List.length_take_of_le (Nat.le_of_lt hn)]

theorem eraseIdx_append : (front ++ l :: back).eraseIdx front.length = front ++ back := by
  rw [List.eraseIdx_append_of_length_le (Nat.le_refl _), Nat.sub_self, List.eraseIdx_cons_zero]

theorem isWedge_append : IsWedge (front ++ l :: back) front.length ↔
    front.getLast?.map Line.ending = some .cr ∧ back.head? = some ⟨[], .lf⟩ := by
  have hbehind : (front ++ l :: back)[front.length + 1]? = back.head? := by
    rw [List.getElem?_append_right (by omega), Nat.add_sub_cancel_left, List.getElem?_cons_succ,
      List.head?_eq_getElem?]
  rw [IsWedge, hbehind]
  cases front with
  | nil => simp
  | cons m front =>
      have hpos : 1 ≤ (m :: front).length := Nat.succ_pos _
      have hbefore : (m :: front ++ l :: back)[(m :: front).length - 1]? = (m :: front).getLast? := by
        rw [List.getElem?_append_left (by omega), List.getLast?_eq_getElem?]
      rw [hbefore, and_iff_right hpos]

/-- Without the line between them a carriage return and a line feed end one line. -/
theorem lines_eraseIdx_of_isWedge (h : WellCut ls) (hwedge : IsWedge ls n) :
    ∃ front body l back, ls = front ++ ⟨body, .cr⟩ :: l :: ⟨[], .lf⟩ :: back ∧
      n = front.length + 1 ∧
      lines (ofLines (ls.eraseIdx n)) = front ++ ⟨body, .crlf⟩ :: back := by
  have hn : n < ls.length := by
    obtain ⟨hlt, -⟩ := List.getElem?_eq_some_iff.mp hwedge.2.2
    omega
  obtain ⟨front, l, back, rfl, rfl⟩ := exists_split hn
  obtain ⟨hlast, hhead⟩ := isWedge_append.mp hwedge
  obtain ⟨⟨body, ending⟩, hmem, rfl⟩ := Option.map_eq_some_iff.mp hlast
  obtain ⟨front, rfl⟩ := List.getLast?_eq_some_iff.mp hmem
  obtain ⟨back, rfl⟩ := List.head?_eq_some_iff.mp hhead
  refine ⟨front, body, l, back, by simp, by simp, ?_⟩
  have hjoined : ofLines (front ++ [⟨body, .cr⟩] ++ ⟨[], .lf⟩ :: back) =
      ofLines (front ++ ⟨body, .crlf⟩ :: back) := by
    simp [Line.text, Ending.text]
  rw [eraseIdx_append, hjoined]
  rw [List.append_assoc] at h
  have hbehind : WellCut (⟨body, .crlf⟩ :: back) :=
    .cons (h.endFree ⟨body, .cr⟩ (by simp)) (by simp) (by simp)
      (h.of_append_right).of_cons.of_cons.of_cons
  exact lines_ofLines (h.replace (by simp) hbehind (by simp))

/-- The other lines of a text are its lines when one is taken out, unless that is a wedge. -/
theorem lines_eraseIdx_iff (h : WellCut ls) (hn : n < ls.length) :
    lines (ofLines (ls.eraseIdx n)) = ls.eraseIdx n ↔ ¬IsWedge ls n := by
  constructor
  · intro hlines hwedge
    obtain ⟨front, body, l, back, rfl, rfl, hjoined⟩ := lines_eraseIdx_of_isWedge h hwedge
    have hlength := congrArg List.length (hjoined.symm.trans hlines)
    rw [List.length_eraseIdx_of_lt hn] at hlength
    simp at hlength
  · intro hwedge
    obtain ⟨front, l, back, rfl, rfl⟩ := exists_split hn
    rw [isWedge_append, not_and] at hwedge
    rw [eraseIdx_append]
    exact lines_ofLines (h.replace (by simp) h.of_append_right.of_cons hwedge)

end TodoLedger.Text
