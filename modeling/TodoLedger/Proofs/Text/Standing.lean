import TodoLedger.Proofs.Text.Lines
/-!
# Where a text stands in another

A text that lacks some character stands on one side of it. So what ends no line and stands in the lines
of a text stands in the body of one of them.
-/

namespace TodoLedger.Text

variable {x y a m b e : Text} {c : Rune} {ls : List Line}

theorem stands_beside (h : x ++ c :: y = a ++ (m ++ b)) (hc : c ∉ m) :
    (∃ b', x = a ++ (m ++ b') ∧ b = b' ++ c :: y) ∨ ∃ a', y = a' ++ (m ++ b) ∧ a = x ++ c :: a' := by
  rw [← List.append_assoc] at h
  rcases List.append_eq_append_iff.mp h with ⟨s, hs, hrest⟩ | ⟨s, hs, hrest⟩
  · cases s with
    | nil =>
        rw [List.append_nil] at hs
        exact Or.inl ⟨[], by rw [List.append_nil, hs], hrest.symm⟩
    | cons d s =>
        obtain ⟨rfl, rfl⟩ := List.cons.inj hrest
        rcases List.append_eq_append_iff.mp hs with ⟨u, rfl, hu⟩ | ⟨u, rfl, hu⟩
        · exact absurd (hu ▸ List.mem_append_right u List.mem_cons_self) hc
        · cases u with
          | nil => exact absurd ((List.nil_append m ▸ hu) ▸ List.mem_cons_self) hc
          | cons d u =>
              obtain ⟨rfl, rfl⟩ := List.cons.inj hu
              exact Or.inr ⟨u, List.append_assoc _ _ _, rfl⟩
  · exact Or.inl ⟨s, by rw [hs, List.append_assoc], hrest⟩

/-- The same with several characters between the sides. -/
theorem stands_beside_text (h : x ++ (e ++ y) = a ++ (m ++ b)) (he : e ≠ []) (hm : m ≠ [])
    (hlack : ∀ c ∈ e, c ∉ m) : (∃ b', x = a ++ (m ++ b') ∧ b = b' ++ (e ++ y)) ∨
      ∃ a', y = a' ++ (m ++ b) ∧ a = x ++ (e ++ a') := by
  induction e generalizing x a with
  | nil => exact absurd rfl he
  | cons c e ih =>
      obtain ⟨hc, hrest⟩ := List.forall_mem_cons.mp hlack
      rcases stands_beside h hc with hfront | ⟨a', hback, rfl⟩
      · exact Or.inl hfront
      · cases e with
        | nil => exact Or.inr ⟨a', hback, rfl⟩
        | cons d e =>
            rcases @ih [] a' hback (by simp) hrest with ⟨b', hnil, -⟩ | ⟨a'', hbehind, rfl⟩
            · simp [hm] at hnil
            · exact Or.inr ⟨a'', hbehind, rfl⟩

/-- What stands in a line stands in the text. -/
theorem ofLines_of_body {k : Nat} {l : Line} (hl : ls[k]? = some l) (hbody : l.body = x ++ (m ++ y)) :
    ofLines ls = ofLines (ls.take k) ++ x ++
      (m ++ (y ++ (l.ending.text ++ ofLines (ls.drop (k + 1))))) := by
  obtain ⟨hlt, rfl⟩ := List.getElem?_eq_some_iff.mp hl
  have hsplit : ls = ls.take k ++ ls[k] :: ls.drop (k + 1) := by
    rw [List.getElem_cons_drop hlt, List.take_append_drop]
  conv_lhs => rw [hsplit, ofLines_append, ofLines_cons, Line.text, hbody]
  simp only [List.append_assoc]

/-- What stands in the lines of a text and ends no line stands in one of them. -/
theorem exists_line_of_stands (hcut : WellCut ls) (hm : m ≠ []) (hfree : EndFree m)
    (h : ofLines ls = a ++ (m ++ b)) : ∃ k l x y, ls[k]? = some l ∧ l.body = x ++ (m ++ y) ∧
      a = ofLines (ls.take k) ++ x ∧ b = y ++ (l.ending.text ++ ofLines (ls.drop (k + 1))) := by
  induction hcut generalizing a with
  | nil => simp [hm] at h
  | @last body hne hbody =>
      refine ⟨0, ⟨body, .open⟩, a, b, rfl, ?_, rfl, by simp [Ending.text]⟩
      simpa [Line.text, Ending.text] using h
  | @cons l ls hbody hends hreturn hls ih =>
      have hending : l.ending.text ≠ [] ∧ ∀ c ∈ l.ending.text, c.isLineEnd = true := by
        cases hl : l.ending with
        | «open» => exact absurd hl hends
        | lf => decide
        | cr => decide
        | crlf => decide
      have hlack : ∀ c ∈ l.ending.text, c ∉ m := by
        intro c hc hmem
        have hend := hending.2 c hc
        rw [hfree c hmem] at hend
        cases hend
      rw [ofLines_cons, Line.text, List.append_assoc] at h
      rcases stands_beside_text h hending.1 hm hlack with ⟨b', hfront, rfl⟩ | ⟨a', hback, rfl⟩
      · exact ⟨0, l, a, b', rfl, hfront, rfl, rfl⟩
      · obtain ⟨k, l', x, y, hl', hbody', rfl, rfl⟩ := ih hback
        refine ⟨k + 1, l', x, y, hl', hbody', ?_, rfl⟩
        simp [Line.text]

end TodoLedger.Text
