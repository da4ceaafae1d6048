import TodoLedger.Proofs.Edit
import TodoLedger.Proofs.Gather.Token
import TodoLedger.Proofs.Tasks
import TodoLedger.Proofs.Text.Seam
/-!
# Marking and finding agree

A marker goes behind the keyword that the task was found by. The marked line has the same task, now
with the id of the marker, and no other line has other tasks than before.
-/

namespace TodoLedger

/-! ## One line -/

section OneLine

variable {path : Path} {number : Nat} {line id before lead rest : Text} {r : Task}
  {form : CommentForm} {f : Scan.Found}

theorem exists_found_of_mem_tasksOfLine (h : r ∈ tasksOfLine path false number line) :
    Marker.idOf? line = none ∧ ∃ form ∈ (CommentSyntax.ofPath path).forms,
      ∃ f ∈ Scan.ofForm line form, f.text ≠ [] ∧ r = f.toTask path number line := by
  obtain ⟨hmarked, f, hf, hne, rfl⟩ := mem_tasksOfLine_iff.mp h
  have hmarked : Marker.idOf? line = none := hmarked.resolve_right (by decide)
  obtain ⟨form, hform, hf⟩ := List.mem_flatMap.mp hf
  have htext := Scan.Found.textOn_of_unmarked hmarked f
  refine ⟨hmarked, form, hform, f, hf, htext ▸ hne, ?_⟩
  rw [htext, hmarked]
  rfl

theorem mem_tasksOfLine_of_found (hmarked : Marker.idOf? line = some id)
    (hform : form ∈ (CommentSyntax.ofPath path).forms) (hf : f ∈ Scan.ofForm line form)
    {text : Text} (htext : Text.trim (Marker.remove f.text) = text) (hne : text ≠ []) :
    { f.toTask path number line with text, issueId := some id } ∈
      tasksOfLine path true number line := by
  have htextOn : f.textOn line = text := by
    rw [Scan.Found.textOn, hmarked]
    exact htext
  rw [mem_tasksOfLine_iff]
  refine ⟨Or.inr rfl, f, List.mem_flatMap.mpr ⟨form, hform, hf⟩, htextOn ▸ hne, ?_⟩
  rw [htextOn, hmarked]

theorem tasksOfLine_of_marked (h : Marker.idOf? line = some id) :
    tasksOfLine path false number line = [] := by
  simp [tasksOfLine, h]

/-- What stands behind the colon of a marked keyword. -/
def markedRest (id rest : Text) : Text :=
  " " ++ (Marker.text id ++ (" " ++ rest.dropWhile Rune.isSpaceOrTab))

/-- Without its marker a marked comment has the text that it had before. -/
theorem trim_remove_inside (hform : form.IsKnown) (hid : ∀ c ∈ id, c.IsSlug) (rest : Text) :
    Text.trim (Marker.remove (Text.trim (form.inside (markedRest id rest)))) =
      Text.trim (form.inside rest) := by
  have hmarked : form.inside (markedRest id rest) =
      " " ++ (Marker.text id ++ (" " ++ form.inside (rest.dropWhile Rune.isSpaceOrTab))) := by
    have happend := CommentForm.inside_append (hform.apart_marker hid)
      (rest.dropWhile Rune.isSpaceOrTab)
    simpa [markedRest] using happend
  have hplain : form.inside rest =
      rest.takeWhile Rune.isSpaceOrTab ++ form.inside (rest.dropWhile Rune.isSpaceOrTab) := by
    conv_lhs => rw [← List.takeWhile_append_dropWhile (p := Rune.isSpaceOrTab) (l := rest)]
    exact CommentForm.inside_append (hform.apart_blanks fun c hc => List.mem_takeWhile_imp hc) _
  have hblanks : Text.isBlank (rest.takeWhile Rune.isSpaceOrTab) = true := by
    refine Text.isBlank_iff.mpr fun c hc => ?_
    have hspace : c.isSpaceOrTab = true := List.mem_takeWhile_imp hc
    simp only [Rune.isSpaceOrTab, Bool.or_eq_true, decide_eq_true_eq] at hspace
    rcases hspace with rfl | rfl
    · decide
    · decide
  generalize form.inside (rest.dropWhile Rune.isSpaceOrTab) = inner at hmarked hplain
  have htrim : Text.trim (" " ++ (Marker.text id ++ (" " ++ inner))) =
      Marker.text id ++ Text.trimEnd (" " ++ inner) := by
    have hbracket : ∀ u, Marker.text id ++ u =
        Rune.ofChar '[' :: ("orgi:" ++ id ++ Rune.ofChar ']' :: u) := by
      have hopening : Marker.opening = Rune.ofChar '[' :: "orgi:" := rfl
      have hend : ("]" : Text) = [Rune.ofChar ']'] := rfl
      simp [Marker.text, hopening, hend]
    rw [Text.trim_append (by decide), hbracket, Text.trim_cons (by decide),
      Text.trimEnd_append_cons (by decide), hbracket]
  rw [hmarked, hplain, htrim, Marker.remove_text fun c hc => (hid c hc).isIdRune, Text.trim_trimEnd,
    Text.trim_append (by decide), Text.trim_append hblanks]

/-- The marker behind the keyword of a comment is the first of its line. -/
theorem idOf?_marked {gap word : Text} (hid : ∀ c ∈ id, c.IsSlug)
    (hlead : Scan.IsLead form.opener gap word lead)
    (hmarked : Marker.idOf? (before ++ (lead ++ rest)) = none) :
    Marker.idOf? (before ++ (lead ++ markedRest id rest)) = some id := by
  have hsplit : ∀ u, before ++ (lead ++ u) =
      before ++ (form.opener ++ (gap ++ word)) ++ Rune.ofChar ':' :: u := by
    intro u
    rw [hlead.split]
    simp
  have hnone : Marker.find? (before ++ (lead ++ rest)) = none := by
    rw [Marker.idOf?] at hmarked
    cases hfind : Marker.find? (before ++ (lead ++ rest)) with
    | none => rfl
    | some found => simp [hfind] at hmarked
  have hword := hlead.keyword.ne_nil
  have hlast : (before ++ (form.opener ++ (gap ++ word))).getLast? = some (word.getLast hword) := by
    rw [← List.append_assoc, ← List.append_assoc, List.getLast?_append,
      List.getLast?_eq_some_getLast hword]
    rfl
  have hmem := List.getLast_mem hword
  have hrune : Marker.isIdRune (word.getLast hword) = true := by
    have hend : Scan.isKeywordRune (Rune.ofChar ']') = false := by decide
    have hne : word.getLast hword ≠ Rune.ofChar ']' := by
      intro heq
      have htrue := hlead.keyword.isKeywordRune hmem
      rw [heq, hend] at htrue
      cases htrue
    rw [Marker.isIdRune, hlead.keyword.isBlank hmem]
    simp [hne]
  have hcolon : word.getLast hword ≠ Rune.ofChar ':' := by
    intro heq
    exact hlead.keyword.noColon (heq ▸ hmem)
  have hletter := hlead.keyword.shape.2 _ (List.getLast?_eq_some_getLast hword)
  rw [hsplit] at hnone
  have hfind := Marker.find?_append (fun c hc => (hid c hc).isIdRune) hlast hrune hcolon hletter
    hnone (" " ++ rest.dropWhile Rune.isSpaceOrTab)
  have hline : before ++ (lead ++ markedRest id rest) =
      before ++ (form.opener ++ (gap ++ word)) ++
        (": " ++ (Marker.text id ++ (" " ++ rest.dropWhile Rune.isSpaceOrTab))) := by
    rw [hsplit, markedRest]
    rfl
  rw [hline, Marker.idOf?, hfind]

end OneLine

/-! ## The lines of a text -/

theorem tasksOfLines_append (path : Path) (withMarked : Bool) (number : Nat) (as bs : List Text) :
    tasksOfLines path withMarked number (as ++ bs) = tasksOfLines path withMarked number as ++
      tasksOfLines path withMarked (number + as.length) bs := by
  induction as generalizing number with
  | nil => rfl
  | cons a as ih =>
      rw [List.cons_append, tasksOfLines, tasksOfLines, ih, List.append_assoc, List.length_cons,
        Nat.add_right_comm, Nat.add_assoc]

theorem line_of_mem_tasksOfLines {path : Path} {withMarked : Bool} {number : Nat} {ls : List Text}
    {task : Task} (h : task ∈ tasksOfLines path withMarked number ls) :
    ∃ k : Nat, task.line = (number + k : Nat) ∧ k < ls.length := by
  obtain ⟨k, body, hk, htask⟩ := mem_tasksOfLines_iff.mp h
  exact ⟨k, (line_of_mem_tasksOfLine htask).2, (List.getElem?_eq_some_iff.mp hk).1⟩

/-- When the tasks of one line are gone, those of the other lines are left. -/
theorem tasksOfLines_eq_filter {path : Path} {as bs : List Text} {a b : Text}
    (h : tasksOfLine path false (1 + as.length) b = []) :
    tasksOfLines path false 1 (as ++ b :: bs) =
      (tasksOfLines path false 1 (as ++ a :: bs)).filter
        fun task : Task => task.line ≠ (as.length + 1 : Nat) := by
  rw [tasksOfLines_append, tasksOfLines_append, tasksOfLines, tasksOfLines, h, List.nil_append,
    List.filter_append, List.filter_append]
  have hfront : ∀ task ∈ tasksOfLines path false 1 as,
      decide (task.line ≠ (as.length + 1 : Nat)) = true := by
    intro task htask
    obtain ⟨k, hline, hk⟩ := line_of_mem_tasksOfLines htask
    simp only [decide_eq_true_eq]
    omega
  have hhere : ∀ task ∈ tasksOfLine path false (1 + as.length) a,
      ¬decide (task.line ≠ (as.length + 1 : Nat)) = true := by
    intro task htask
    have hline := (line_of_mem_tasksOfLine htask).2
    simp only [decide_eq_true_eq]
    omega
  have hback : ∀ task ∈ tasksOfLines path false (1 + as.length + 1) bs,
      decide (task.line ≠ (as.length + 1 : Nat)) = true := by
    intro task htask
    obtain ⟨k, hline, hk⟩ := line_of_mem_tasksOfLines htask
    simp only [decide_eq_true_eq]
    omega
  rw [List.filter_eq_self.mpr hfront, List.filter_eq_nil_iff.mpr hhere,
    List.filter_eq_self.mpr hback, List.nil_append]

theorem withoutBom_append_cons (as bs : List Text) (b : Text) :
    withoutBom (as ++ b :: bs) =
      withoutBom as ++ (if as = [] then Text.dropBom b else b) :: bs := by
  cases as with
  | nil => rfl
  | cons a as => simp [withoutBom]

theorem length_withoutBom (as : List Text) : (withoutBom as).length = as.length := by
  cases as <;> rfl

/-! ## Where a task was found -/

/-- A place in a text where a comment with a keyword stands. The byte order mark of the text does not
belong to the line. -/
structure Occurrence (path : Path) (t : Text) where
  front : List Line
  line : Line
  back : List Line
  mark : Text
  before : Text
  form : CommentForm
  gap : Text
  word : Text
  rest : Text
  lines_eq : Text.lines t = front ++ line :: back
  body_eq : line.body =
    mark ++ (before ++ (form.opener ++ (gap ++ (word ++ [Rune.ofChar ':'])) ++ rest))
  mark_eq : mark = [] ∨ mark = [Rune.bom] ∧ front = []
  form_mem : form ∈ (CommentSyntax.ofPath path).forms
  gap_blank : Text.isBlank gap = true
  isKeyword : Scan.IsKeyword word

namespace Occurrence

variable {path : Path} {t : Text} (F : Occurrence path t)

def lead : Text := F.form.opener ++ (F.gap ++ (F.word ++ [Rune.ofChar ':']))

/-- The line with some rest behind the colon of the keyword. -/
def lineWith (rest : Text) : Text := F.before ++ (F.lead ++ rest)

/-- The task that such a place makes. -/
def task : Task where
  path
  line := (F.front.length + 1 : Nat)
  column := (F.before.length + 1 : Nat)
  lineText := F.lineWith F.rest
  keyword := Text.upper F.word
  text := Text.trim (F.form.inside F.rest)
  style := CommentSyntax.styleOf path
  issueId := none

/-- The lines with a marker in the place of the blanks behind the colon. -/
def marked (id : Text) : List Line :=
  F.front ++ { F.line with body := F.mark ++ F.lineWith (markedRest id F.rest) } :: F.back

theorem isLead : Scan.IsLead F.form.opener F.gap F.word F.lead := ⟨rfl, F.gap_blank, F.isKeyword⟩

theorem isKnown : F.form.IsKnown := CommentSyntax.isKnown_of_mem_ofPath F.form_mem

theorem body_lineWith : F.line.body = F.mark ++ F.lineWith F.rest := F.body_eq

/-- What stands behind the keyword is not the head of the line. -/
theorem head?_lineWith (rest rest' : Text) : (F.lineWith rest).head? = (F.lineWith rest').head? := by
  obtain ⟨c, lead, hcons⟩ := List.exists_cons_of_ne_nil F.isLead.ne_nil
  rw [lineWith, lineWith, hcons]
  cases F.before <;> rfl

/-- Without its byte order mark the text shows the line, also with another rest. -/
theorem shown (hbare : F.mark = [] → F.front = [] → (F.lineWith F.rest).head? ≠ some Rune.bom)
    (rest' : Text) : (if F.front = [] then Text.dropBom (F.mark ++ F.lineWith rest')
      else F.mark ++ F.lineWith rest') = F.lineWith rest' := by
  rcases F.mark_eq with hmark | ⟨hmark, hfront⟩
  · rw [hmark, List.nil_append]
    split_ifs with hfront
    · apply dropBom_of_head?
      rw [F.head?_lineWith rest' F.rest]
      exact hbare hmark hfront
    · rfl
  · rw [if_pos hfront, hmark]
    exact dropBom_bom_cons

/-- The task was found there, and the line had no marker. -/
structure IsSound : Prop where
  unmarked : Marker.idOf? (F.lineWith F.rest) = none
  exchange : ∀ rest', rest' ≠ [] →
    ⟨F.before.length, F.word, Text.trim (F.form.inside rest')⟩ ∈ Scan.ofForm (F.lineWith rest') F.form
  text_ne_nil : F.task.text ≠ []
  shown : ∀ rest', (if F.front = [] then Text.dropBom (F.mark ++ F.lineWith rest')
    else F.mark ++ F.lineWith rest') = F.lineWith rest'

end Occurrence

theorem exists_occurrence {path : Path} {t : Text} {r : Task} (h : r ∈ tasksOf path false t) :
    ∃ F : Occurrence path t, F.IsSound ∧ F.task = r := by
  obtain ⟨k, body, hk, -, htask⟩ := mem_tasksOf_iff.mp h
  obtain ⟨hunmarked, form, hform, f, hf, hne, rfl⟩ := exists_found_of_mem_tasksOfLine htask
  have hknown := CommentSyntax.isKnown_of_mem_ofPath hform
  obtain ⟨before, lead, rest, hstands⟩ :=
    Scan.stands_of_mem_ofForm (fun hmem => (hknown.opener _ hmem).1 rfl) hf
  obtain ⟨gap, hlead⟩ := hstands.isLead
  obtain ⟨l, mark, hl, hbody, hmark⟩ := exists_mark hk
  obtain ⟨hlt, hget⟩ := List.getElem?_eq_some_iff.mp hl
  have hlength : ((Text.lines t).take k).length = k := List.length_take_of_le (Nat.le_of_lt hlt)
  have hfront : (Text.lines t).take k = [] ↔ k = 0 := by
    rw [← List.length_eq_zero_iff, hlength]
  have hline : body = before ++ (lead ++ rest) := hstands.split
  have hbare : mark = [] → k = 0 → body.head? ≠ some Rune.bom := by
    rcases hmark with ⟨-, hnone⟩ | ⟨rfl, -⟩
    · exact fun _ => hnone
    · rintro ⟨⟩
  let F : Occurrence path t := {
    front := (Text.lines t).take k
    line := l
    back := (Text.lines t).drop (k + 1)
    mark, before, form, gap, rest
    word := f.keyword
    lines_eq := by rw [← hget, List.getElem_cons_drop hlt, List.take_append_drop]
    body_eq := by rw [hbody, hline, hlead.split]
    mark_eq := by
      rcases hmark with ⟨hnil, -⟩ | ⟨hbom, hzero⟩
      · exact Or.inl hnil
      · exact Or.inr ⟨hbom, hfront.mpr hzero⟩
    form_mem := hform
    gap_blank := hlead.gap
    isKeyword := hlead.keyword }
  have hF : F.lead = lead := hlead.split.symm
  have hoffset : f.offset = before.length := by
    rw [hstands.offset, Nat.zero_add]
  have htask : F.task = f.toTask path (k + 1) body := by
    simp only [Occurrence.task, Occurrence.lineWith, hF, Scan.Found.toTask, Task.mk.injEq]
    exact ⟨trivial, by rw [hlength], by rw [hoffset]; rfl, hline.symm, rfl, hstands.text.symm,
      trivial, trivial⟩
  refine ⟨F, ⟨?_, ?_, ?_, ?_⟩, htask⟩
  · rwa [Occurrence.lineWith, hF, ← hline]
  · intro rest' hrest'
    have hfound := hstands.exchange rest' hrest'
    rw [Occurrence.lineWith, hF]
    rwa [hoffset] at hfound
  · rw [htask]
    exact hne
  · refine F.shown fun hnil hzero => ?_
    rw [Occurrence.lineWith, hF, ← hline]
    exact hbare hnil (hfront.mp hzero)

namespace Occurrence

variable {path : Path} {t id : Text} (F : Occurrence path t)

theorem isFirstKeyword : IsFirstKeyword (F.task.column - 1).toNat F.line.body
    (F.mark ++ (F.before ++ (F.form.opener ++ F.gap))) F.word F.rest := by
  have hcolumn : (F.task.column - 1).toNat = F.before.length := by
    have : F.task.column = (F.before.length + 1 : Nat) := rfl
    omega
  have hmark : F.mark.length ≤ 1 := by
    rcases F.mark_eq with hnil | ⟨hbom, -⟩
    · simp [hnil]
    · simp [hbom]
  rw [hcolumn, F.body_lineWith]
  exact F.isKnown.isFirstKeyword F.isLead hmark F.before F.rest

theorem isBegun_body (h : F.IsSound) : Marker.isBegun F.line.body = false := by
  have hunmarked := h.unmarked
  have hline : Marker.isBegun (F.lineWith F.rest) = false := by
    rw [Marker.idOf?] at hunmarked
    split at hunmarked
    · cases hunmarked
    · split_ifs at hunmarked with hbegun
      simpa using hbegun
  rw [F.body_lineWith]
  rcases F.mark_eq with hnil | ⟨hbom, -⟩
  · rwa [hnil]
  · rw [hbom]
    exact (Marker.isBegun_bom_cons _).trans hline

/-- The keyword that is marked is the one by which the task was found. -/
theorem markedBody?_body (id : Text) : markedBody? F.task.column id F.line.body =
    some (F.mark ++ F.lineWith (markedRest id F.rest)) := by
  rw [markedBody?_of_isFirstKeyword id F.isFirstKeyword]
  simp [lineWith, lead, markedRest]
  rfl

/-- The edit marks the keyword by which the task was found. -/
theorem apply_insertMarker (h : F.IsSound) (id : Text) :
    (Edit.insertMarker F.task id).apply path (Text.lines t) =
      .ok (.changed (F.marked id) ("Inserted reference " ++ id)) := by
  rw [F.lines_eq, Edit.apply_at rfl, Edit.applyLine, F.isBegun_body h, F.markedBody?_body id]
  simp [marked]

theorem endFree_marked (hid : ∀ c ∈ id, c.IsSlug) :
    Text.EndFree (F.mark ++ F.lineWith (markedRest id F.rest)) := by
  have hbody : Text.EndFree F.line.body := by
    apply (Text.wellCut_lines t).endFree
    rw [F.lines_eq]
    simp
  have hid' : Text.EndFree id := by
    intro c hc
    have hcode := (hid c hc).code_cases
    rw [Text.isLineEnd_eq_false]
    constructor
    · rintro rfl
      have hlf : (Rune.ofChar '\n').code = 10 := rfl
      omega
    · rintro rfl
      have hcr : (Rune.ofChar '\r').code = 13 := rfl
      omega
  have hopening : Text.EndFree Marker.opening := by decide
  have hclosing : Text.EndFree ("]" : Text) := by decide
  have hspace : Text.EndFree (" " : Text) := by decide
  rw [F.body_lineWith] at hbody
  simp only [lineWith, markedRest, Marker.text, Text.endFree_append] at hbody ⊢
  obtain ⟨hmark, hbefore, hlead, hrest⟩ := hbody
  exact ⟨hmark, hbefore, hlead, hspace, ⟨⟨hopening, hid'⟩, hclosing⟩, hspace,
    hrest.of_infix (List.dropWhile_suffix _).isInfix⟩

/-- The marked lines are those of the text that is written. -/
theorem lines_ofLines_marked (hid : ∀ c ∈ id, c.IsSlug) :
    Text.lines (Text.ofLines (F.marked id)) = F.marked id := by
  have hcut := Text.wellCut_lines t
  rw [F.lines_eq] at hcut
  apply Text.lines_ofLines
  apply hcut.exchange
  · simp [lineWith, F.isLead.ne_nil]
  · exact F.endFree_marked hid

/-- The bodies in which tasks are sought, with a rest of the line. -/
private theorem withoutBom_bodies (h : F.IsSound) (rest : Text) :
    withoutBom ((F.front ++ { F.line with body := F.mark ++ F.lineWith rest } :: F.back).map
      Line.body) = withoutBom (F.front.map Line.body) ++ F.lineWith rest :: F.back.map Line.body := by
  have hshown := h.shown rest
  rw [List.map_append, List.map_cons, withoutBom_append_cons]
  simp only [List.map_eq_nil_iff, hshown]

private theorem tasksOf_marked (h : F.IsSound) (hid : ∀ c ∈ id, c.IsSlug) (withMarked : Bool) :
    tasksOf path withMarked (Text.ofLines (F.marked id)) = tasksOfLines path withMarked 1
      (withoutBom (F.front.map Line.body) ++ F.lineWith (markedRest id F.rest) ::
        F.back.map Line.body) := by
  rw [tasksOf_eq, Text.bodies, F.lines_ofLines_marked hid, marked, F.withoutBom_bodies h]

theorem tasksOf_text (h : F.IsSound) (withMarked : Bool) :
    tasksOf path withMarked t = tasksOfLines path withMarked 1
      (withoutBom (F.front.map Line.body) ++ F.lineWith F.rest :: F.back.map Line.body) := by
  have hline : { F.line with body := F.mark ++ F.lineWith F.rest } = F.line := by
    rw [← F.body_lineWith]
  have hbodies := F.withoutBom_bodies h F.rest
  rw [hline] at hbodies
  rw [tasksOf_eq, Text.bodies, F.lines_eq, hbodies]

theorem idOf?_marked (h : F.IsSound) (hid : ∀ c ∈ id, c.IsSlug) :
    Marker.idOf? (F.lineWith (markedRest id F.rest)) = some id :=
  TodoLedger.idOf?_marked hid F.isLead h.unmarked

/-- On the marked line the task is found with the id of the marker. -/
theorem mem_tasksOf_marked (h : F.IsSound) (hid : ∀ c ∈ id, c.IsSlug) :
    { F.task with lineText := F.lineWith (markedRest id F.rest), issueId := some id } ∈
      tasksOf path true (Text.ofLines (F.marked id)) := by
  have hne : markedRest id F.rest ≠ [] := List.cons_ne_nil _ _
  have hmem := @mem_tasksOfLine_of_found path (F.front.length + 1) _ _ _ _
    (F.idOf?_marked h hid) F.form_mem (h.exchange _ hne) _ (trim_remove_inside F.isKnown hid F.rest)
    h.text_ne_nil
  rw [F.tasksOf_marked h hid, tasksOfLines_append, tasksOfLines, List.mem_append, List.mem_append]
  right
  left
  rw [length_withoutBom, List.length_map, Nat.add_comm]
  exact hmem

/-- No other task than those of the marked line is lost, and none is new. -/
theorem tasksOf_marked_eq_filter (h : F.IsSound) (hid : ∀ c ∈ id, c.IsSlug) :
    tasksOf path false (Text.ofLines (F.marked id)) =
      (tasksOf path false t).filter fun task => task.line ≠ F.task.line := by
  have hnone := @tasksOfLine_of_marked path (1 + (withoutBom (F.front.map Line.body)).length) _ _
    (F.idOf?_marked h hid)
  have hline : F.task.line = ((withoutBom (F.front.map Line.body)).length + 1 : Nat) := by
    rw [length_withoutBom, List.length_map]
    rfl
  rw [F.tasksOf_marked h hid, F.tasksOf_text h, hline]
  exact tasksOfLines_eq_filter hnone

theorem isBegun_marked (id : Text) :
    Marker.isBegun (F.mark ++ F.lineWith (markedRest id F.rest)) = true := by
  have hsplit : F.mark ++ F.lineWith (markedRest id F.rest) =
      F.mark ++ (F.before ++ (F.lead ++ " ")) ++
        (Marker.text id ++ (" " ++ F.rest.dropWhile Rune.isSpaceOrTab)) := by
    simp [lineWith, markedRest]
  rw [hsplit]
  exact Marker.isBegun_append _ _ _

/-- A marked line is not marked again. -/
theorem apply_insertMarker_again (hid : ∀ c ∈ id, c.IsSlug) :
    (Edit.insertMarker F.task id).apply path (Text.lines (Text.ofLines (F.marked id))) =
      .ok (.unchanged "Line already has reference") := by
  rw [F.lines_ofLines_marked hid, marked, Edit.apply_at rfl, Edit.applyLine]
  simp only [F.isBegun_marked id, if_true]

end Occurrence

/-- Marking a task that was found changes its line at the keyword that it was found by. The same task
is found there again, now with the id, and only the unmarked tasks of that line are gone. -/
theorem marking_agrees (path : Path) (t : Text) (r : Task) (now : DateTime) (token id : Text)
    (hr : r ∈ tasksOf path false t) (htoken : IsToken token) (hid : id = gatheredId now token) :
    ∃ F : Occurrence path t, F.task = r ∧ ∃ m m' : Text,
      (Edit.insertMarker r id).apply path (Text.lines t) = .ok (.changed (F.marked id) m) ∧
      (∃ r' ∈ tasksOf path true (Text.ofLines (F.marked id)),
        r' = { r with lineText := r'.lineText, issueId := some id } ∧
        r'.contentHash = r.contentHash) ∧
      tasksOf path false (Text.ofLines (F.marked id)) =
        (tasksOf path false t).filter (fun task => task.line ≠ r.line) ∧
      (Edit.insertMarker r id).apply path (Text.lines (Text.ofLines (F.marked id))) =
        .ok (.unchanged m') := by
  have hslug : ∀ c ∈ id, c.IsSlug := hid ▸ isSlug_gatheredId htoken.digits
  obtain ⟨F, hsound, rfl⟩ := exists_occurrence hr
  exact ⟨F, rfl, _, _, F.apply_insertMarker hsound id,
    ⟨_, F.mem_tasksOf_marked hsound hslug, rfl, rfl⟩,
    F.tasksOf_marked_eq_filter hsound hslug, F.apply_insertMarker_again hslug⟩

/-- A line with two tasks behind a byte order mark. -/
def markedFront : Text := Rune.bom :: "/* todo:\t b */ // BUG: c\r\nd"

/-- The second of the tasks; the first one is found by the other form of comments. -/
def markedFrontTask : Task :=
  ⟨⟨.relative, ["a.c"]⟩, 1, 1, "/* todo:\t b */ // BUG: c", "TODO", "b", "C", none⟩

theorem marking_agrees_markedFront :
    markedFrontTask ∈ tasksOf ⟨.relative, ["a.c"]⟩ false markedFront ∧ IsToken "0123abcd" ∧
      ∀ now id, id = gatheredId now "0123abcd" →
        ∃ F : Occurrence ⟨.relative, ["a.c"]⟩ markedFront, F.task = markedFrontTask ∧ ∃ m m' : Text,
          (Edit.insertMarker markedFrontTask id).apply ⟨.relative, ["a.c"]⟩
            (Text.lines markedFront) = .ok (.changed (F.marked id) m) ∧
          (∃ r' ∈ tasksOf ⟨.relative, ["a.c"]⟩ true (Text.ofLines (F.marked id)),
            r' = { markedFrontTask with lineText := r'.lineText, issueId := some id } ∧
            r'.contentHash = markedFrontTask.contentHash) ∧
          tasksOf ⟨.relative, ["a.c"]⟩ false (Text.ofLines (F.marked id)) =
            (tasksOf ⟨.relative, ["a.c"]⟩ false markedFront).filter
              (fun task => task.line ≠ markedFrontTask.line) ∧
          (Edit.insertMarker markedFrontTask id).apply ⟨.relative, ["a.c"]⟩
            (Text.lines (Text.ofLines (F.marked id))) = .ok (.unchanged m') := by
  have htask : markedFrontTask ∈ tasksOf ⟨.relative, ["a.c"]⟩ false markedFront := by
    decide +kernel
  have htoken : IsToken "0123abcd" := ⟨by decide, by decide⟩
  exact ⟨htask, htoken, fun now id hid => marking_agrees _ _ _ now _ id htask htoken hid⟩

end TodoLedger
