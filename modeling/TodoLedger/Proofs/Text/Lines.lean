import Mathlib.Tactic.Common
import TodoLedger.Text.Line
/-!
# Cutting a text into physical lines

The lines of a text are the only list of lines that is well cut and gives the text back. A list of
lines is well cut when no line holds a line ending inside, only the last one is open, and no
carriage return is separated from its line feed.
-/

namespace TodoLedger

namespace Text

/-- No character of the text ends a line. -/
def EndFree (t : Text) : Prop := ∀ c ∈ t, c.isLineEnd = false

instance (t : Text) : Decidable (EndFree t) :=
  inferInstanceAs (Decidable (∀ c ∈ t, c.isLineEnd = false))

theorem endFree_nil : EndFree [] := by
  intro c hc
  cases hc

theorem endFree_cons {c : Rune} {t : Text} :
    EndFree (c :: t) ↔ c.isLineEnd = false ∧ EndFree t := by
  simp [EndFree]

theorem endFree_append {s t : Text} : EndFree (s ++ t) ↔ EndFree s ∧ EndFree t := by
  simp only [EndFree, List.mem_append]
  constructor
  · intro h
    exact ⟨fun c hc => h c (Or.inl hc), fun c hc => h c (Or.inr hc)⟩
  · rintro ⟨hs, ht⟩ c (hc | hc)
    · exact hs c hc
    · exact ht c hc

theorem EndFree.of_infix {s t : Text} (h : s <:+: t) (ht : EndFree t) : EndFree s :=
  fun c hc => ht c (h.subset hc)

theorem EndFree.not_mem_lf {t : Text} (h : EndFree t) : Rune.ofChar '\n' ∉ t := by
  intro hmem
  have hend := h _ hmem
  exact absurd hend (by decide)

theorem isLineEnd_eq_false {c : Rune} :
    c.isLineEnd = false ↔ c ≠ Rune.ofChar '\n' ∧ c ≠ Rune.ofChar '\r' := by
  simp [Rune.isLineEnd]

/-- The lines are those of some text: bodies are free of line endings, only the last line is open
and not empty then, and no carriage return stands before a mere line feed. -/
inductive WellCut : List Line → Prop
  | nil : WellCut []
  | last {body : Text} : body ≠ [] → EndFree body → WellCut [⟨body, .open⟩]
  | cons {l : Line} {ls : List Line} : EndFree l.body → l.ending ≠ .open →
      (l.ending = .cr → ls.head? ≠ some ⟨[], .lf⟩) → WellCut ls → WellCut (l :: ls)

theorem WellCut.endFree {ls : List Line} (h : WellCut ls) :
    ∀ l ∈ ls, EndFree l.body := by
  induction h with
  | nil => simp
  | last _ hb => simpa using hb
  | cons hb _ _ _ ih =>
      intro l hl
      rcases List.mem_cons.mp hl with rfl | hl
      · exact hb
      · exact ih l hl

theorem WellCut.opened {ls : List Line} (h : WellCut ls) :
    ∀ l ∈ ls, l.ending = .open → l.body ≠ [] := by
  induction h with
  | nil => simp
  | last hne _ => simpa using hne
  | cons _ he _ _ ih => exact List.forall_mem_cons.mpr ⟨fun hopen => absurd hopen he, ih⟩

/-- Bodies that all get the same ending are well cut. -/
theorem wellCut_map {e : Ending} {bodies : List Text} (he : e ≠ .open)
    (h : ∀ b ∈ bodies, EndFree b) : WellCut (bodies.map fun b => ⟨b, e⟩) := by
  induction bodies with
  | nil => exact .nil
  | cons b bodies ih =>
      obtain ⟨hb, hbodies⟩ := List.forall_mem_cons.mp h
      refine .cons hb he (fun hcr hhead => ?_) (ih hbodies)
      obtain ⟨m, -, hm⟩ := List.mem_map.mp (List.mem_of_head? hhead)
      cases hm
      cases hcr

theorem lines_cons (c : Rune) (t : Text) : lines (c :: t) = consLine c (lines t) := rfl

@[simp] theorem lines_nil : lines [] = [] := rfl

private theorem wellCut_consLine {ls : List Line} (c : Rune) (h : WellCut ls) :
    WellCut (consLine c ls) := by
  have hcr : (Rune.ofChar '\r') ≠ Rune.ofChar '\n' := by decide
  cases ls with
  | nil =>
      simp only [consLine]
      split_ifs with hn hr
      · exact .cons endFree_nil (by simp) (by simp) .nil
      · exact .cons endFree_nil (by simp) (by simp) .nil
      · exact .last (by simp)
          (endFree_cons.mpr ⟨isLineEnd_eq_false.mpr ⟨hn, hr⟩, endFree_nil⟩)
  | cons l ls =>
      simp only [consLine]
      split_ifs with hn hr hl
      · exact .cons endFree_nil (by simp) (by simp) h
      · subst hl
        cases h with
        | cons _ _ _ hls => exact .cons endFree_nil (by simp) (by simp) hls
      · exact .cons endFree_nil (by simp) (by simpa using hl) h
      · have hc : c.isLineEnd = false := isLineEnd_eq_false.mpr ⟨hn, hr⟩
        cases h with
        | last _ hb => exact .last (by simp) (endFree_cons.mpr ⟨hc, hb⟩)
        | cons hb he hcr hls => exact .cons (endFree_cons.mpr ⟨hc, hb⟩) he hcr hls

theorem wellCut_lines (t : Text) : WellCut (lines t) := by
  induction t with
  | nil => exact .nil
  | cons c t ih => exact wellCut_consLine c ih

/-- A text has no more lines than characters. -/
theorem length_lines_le (t : Text) : (lines t).length ≤ t.length := by
  induction t with
  | nil => exact Nat.le_refl _
  | cons c t ih =>
      have hcons : (consLine c (lines t)).length ≤ (lines t).length + 1 := by
        cases lines t with
        | nil =>
            simp only [consLine]
            split_ifs <;> simp
        | cons l ls =>
            simp only [consLine]
            split_ifs <;> simp
      rw [lines_cons, List.length_cons]
      omega

/-- No line of a text holds a line ending in its body. -/
theorem endFree_of_mem_bodies {t line : Text} (h : line ∈ bodies t) : EndFree line := by
  obtain ⟨l, hl, rfl⟩ := List.mem_map.mp h
  exact (wellCut_lines t).endFree l hl

theorem dropBom_suffix (t : Text) : dropBom t <:+ t := by
  cases t with
  | nil => exact List.suffix_rfl
  | cons c r =>
      rw [dropBom]
      split_ifs with hc
      · exact List.suffix_cons c r
      · exact List.suffix_rfl

@[simp] theorem ofLines_nil : ofLines [] = [] := rfl

@[simp] theorem ofLines_cons (l : Line) (ls : List Line) :
    ofLines (l :: ls) = l.text ++ ofLines ls := rfl

@[simp] theorem ofLines_append (ls ms : List Line) :
    ofLines (ls ++ ms) = ofLines ls ++ ofLines ms := List.flatMap_append

private theorem ofLines_consLine (c : Rune) (ls : List Line) :
    ofLines (consLine c ls) = c :: ofLines ls := by
  cases ls with
  | nil =>
      simp only [consLine]
      split_ifs with hn hr
      · subst hn; rfl
      · subst hr; rfl
      · rfl
  | cons l ls =>
      simp only [consLine]
      split_ifs with hn hr hl
      · subst hn; rfl
      · subst hr hl; rfl
      · subst hr; rfl
      · rfl

/-- Nothing is lost by cutting a text into lines. -/
@[simp] theorem ofLines_lines (t : Text) : ofLines (lines t) = t := by
  induction t with
  | nil => rfl
  | cons c t ih => rw [lines_cons, ofLines_consLine, ih]

private theorem consLine_push {c : Rune} (hc : c.isLineEnd = false) (l : Line)
    (ls : List Line) : consLine c (l :: ls) = l.push c :: ls := by
  obtain ⟨hn, hr⟩ := isLineEnd_eq_false.mp hc
  simp [consLine, hn, hr]

private theorem lines_ending_append {e : Ending} {t : Text} (he : e ≠ .open)
    (hcr : e = .cr → t.head? ≠ some (Rune.ofChar '\n')) :
    lines (e.text ++ t) = ⟨[], e⟩ :: lines t := by
  have hne : (Rune.ofChar '\r') ≠ Rune.ofChar '\n' := by decide
  have hlf : lines (Rune.ofChar '\n' :: t) = ⟨[], .lf⟩ :: lines t := by
    rw [lines_cons]
    cases lines t <;> simp [consLine]
  cases e with
  | «open» => exact absurd rfl he
  | lf => exact hlf
  | crlf =>
      change lines (Rune.ofChar '\r' :: Rune.ofChar '\n' :: t) = _
      rw [lines_cons, hlf]
      simp [consLine, hne]
  | cr =>
      change lines (Rune.ofChar '\r' :: t) = _
      have hhead := hcr rfl
      rw [lines_cons]
      cases t with
      | nil => simp [consLine, hne]
      | cons c t =>
          have hc : c ≠ Rune.ofChar '\n' := by simpa using hhead
          cases hls : lines (c :: t) with
          | nil =>
              have hback := ofLines_lines (c :: t)
              simp [hls] at hback
          | cons l ls =>
              have hl : l ≠ ⟨[], .lf⟩ := by
                rintro rfl
                have hback := ofLines_lines (c :: t)
                rw [hls] at hback
                exact hc (List.cons.inj hback).1.symm
              simp [consLine, hne, hl]

/-- A terminated line in front of a text is the first of the lines. -/
theorem lines_text_append {l : Line} {t : Text} (hb : EndFree l.body) (he : l.ending ≠ .open)
    (hcr : l.ending = .cr → t.head? ≠ some (Rune.ofChar '\n')) :
    lines (l.text ++ t) = l :: lines t := by
  obtain ⟨body, e⟩ := l
  induction body with
  | nil => exact lines_ending_append he hcr
  | cons c body ih =>
      obtain ⟨hc, hb⟩ := endFree_cons.mp hb
      have hrest := ih hb he hcr
      change lines (c :: (Line.text ⟨body, e⟩ ++ t)) = _
      rw [lines_cons, hrest, consLine_push hc]
      rfl

theorem lines_of_endFree {t : Text} (hne : t ≠ []) (h : EndFree t) :
    lines t = [⟨t, .open⟩] := by
  induction t with
  | nil => exact absurd rfl hne
  | cons c t ih =>
      obtain ⟨hc, ht⟩ := endFree_cons.mp h
      obtain ⟨hn, hr⟩ := isLineEnd_eq_false.mp hc
      rw [lines_cons]
      cases t with
      | nil => simp [consLine, hn, hr]
      | cons d t => rw [ih (by simp) ht, consLine_push hc]; rfl

/-- A terminated line that is no bare line feed does not begin with one. -/
theorem head?_text_append_ne {l : Line} {t : Text} (hb : EndFree l.body) (he : l.ending ≠ .open)
    (hl : l ≠ ⟨[], .lf⟩) : (l.text ++ t).head? ≠ some (Rune.ofChar '\n') := by
  have hcr : (Rune.ofChar '\r') ≠ Rune.ofChar '\n' := by decide
  obtain ⟨body, e⟩ := l
  cases body with
  | cons c body =>
      have hc : c ≠ Rune.ofChar '\n' := (isLineEnd_eq_false.mp (endFree_cons.mp hb).1).1
      simpa [Line.text] using hc
  | nil =>
      cases e with
      | «open» => exact absurd rfl he
      | lf => exact absurd rfl hl
      | cr => simpa [Line.text, Ending.text] using hcr
      | crlf => simpa [Line.text, Ending.text] using hcr

theorem head?_ofLines_ne {ls : List Line} (h : WellCut ls)
    (hls : ls.head? ≠ some ⟨[], .lf⟩) : (ofLines ls).head? ≠ some (Rune.ofChar '\n') := by
  cases h with
  | nil => simp
  | @last body hne hb =>
      cases body with
      | nil => exact absurd rfl hne
      | cons c body =>
          have hc : c ≠ Rune.ofChar '\n' := (isLineEnd_eq_false.mp (endFree_cons.mp hb).1).1
          simpa [Line.text] using hc
  | cons hb he _ _ => exact head?_text_append_ne hb he (by simpa using hls)

/-- Well cut lines are the lines of their text. -/
theorem lines_ofLines {ls : List Line} (h : WellCut ls) : lines (ofLines ls) = ls := by
  induction h with
  | nil => rfl
  | last hne hb => simpa [Line.text, Ending.text] using lines_of_endFree hne hb
  | cons hb he hcr hls ih =>
      rw [ofLines_cons, lines_text_append hb he (fun h => head?_ofLines_ne hls (hcr h)), ih]

/-- A line is cut off in front of any text, at worst with a line feed more in its ending. -/
private theorem exists_lines_text_append {l : Line} (t : Text) (hb : EndFree l.body)
    (he : l.ending ≠ .open) : ∃ e r, lines (l.text ++ t) = ⟨l.body, e⟩ :: lines r := by
  by_cases hjoin : l.ending = .cr ∧ t.head? = some (Rune.ofChar '\n')
  · obtain ⟨hcr, hlf⟩ := hjoin
    obtain ⟨r, rfl⟩ : ∃ r, t = Rune.ofChar '\n' :: r := by
      cases t with
      | nil => cases hlf
      | cons c r => exact ⟨r, by rw [Option.some.inj hlf]⟩
    have htext : l.text ++ Rune.ofChar '\n' :: r = Line.text ⟨l.body, .crlf⟩ ++ r := by
      simp [Line.text, hcr, Ending.text]
    rw [htext]
    exact ⟨.crlf, r, @lines_text_append ⟨l.body, .crlf⟩ r hb (by simp) (by simp)⟩
  · exact ⟨l.ending, t, lines_text_append hb he fun hcr hlf => hjoin ⟨hcr, hlf⟩⟩

/-- What stands in front of some of the lines of a text keeps its lines, but for an ending that a
line feed may join. -/
theorem bodies_take_of_wellCut {pre post : List Line} (h : WellCut (pre ++ post)) (hpost : post ≠ [])
    (t : Text) : (bodies (ofLines pre ++ t)).take pre.length = pre.map Line.body := by
  induction pre with
  | nil => rfl
  | cons l pre ih =>
      rw [List.cons_append] at h
      obtain ⟨hb, he, hcr, hrest⟩ : EndFree l.body ∧ l.ending ≠ .open ∧
          (l.ending = .cr → (pre ++ post).head? ≠ some ⟨[], .lf⟩) ∧ WellCut (pre ++ post) := by
        generalize hls : pre ++ post = ls at h
        cases h with
        | last => exact absurd (List.append_eq_nil_iff.mp hls).2 hpost
        | cons hb he hcr hrest => exact ⟨hb, he, hcr, hrest⟩
      rw [ofLines_cons, List.append_assoc]
      cases pre with
      | nil =>
          obtain ⟨e, r, hlines⟩ := exists_lines_text_append t hb he
          simp [bodies, hlines]
      | cons m pre =>
          have hm := hrest.endFree m (by simp)
          have hme : m.ending ≠ .open := by
            generalize hls : m :: pre ++ post = ls at hrest
            cases hrest with
            | nil => cases hls
            | last => simp [hpost] at hls
            | cons _ hme _ _ => exact (List.cons.inj hls).1 ▸ hme
          have hcut : lines (l.text ++ (ofLines (m :: pre) ++ t)) =
              l :: lines (ofLines (m :: pre) ++ t) := by
            refine lines_text_append hb he fun hl => ?_
            rw [ofLines_cons, List.append_assoc]
            exact head?_text_append_ne hm hme (by simpa using hcr hl)
          have hnext := ih hrest
          rw [bodies] at hnext ⊢
          simp only [hcut, List.map_cons, List.length_cons, List.take_succ_cons] at hnext ⊢
          rw [hnext]

/-- Taking a line out of a text leaves the bodies above it. -/
theorem take_bodies_eraseIdx {t : Text} {n k : Nat} (hn : n < (lines t).length) (hk : k ≤ n) :
    (bodies (ofLines ((lines t).eraseIdx n))).take k = (bodies t).take k := by
  have hcut := wellCut_lines t
  rw [← List.take_append_drop n (lines t)] at hcut
  have hdrop : (lines t).drop n ≠ [] := by
    rw [ne_eq, List.drop_eq_nil_iff]
    omega
  have htake : ((lines t).take n).length = n := List.length_take_of_le (by omega)
  have hbodies := bodies_take_of_wellCut hcut hdrop (ofLines ((lines t).drop (n + 1)))
  rw [htake, ← ofLines_append, ← List.eraseIdx_eq_take_drop_succ, List.map_take] at hbodies
  have hmin : ∀ l : List Text, (l.take n).take k = l.take k := fun l => by
    rw [List.take_take, Nat.min_eq_left hk]
  rw [← hmin, hbodies, hmin]
  rfl

end Text

end TodoLedger
