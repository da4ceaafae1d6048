import TodoLedger.Comment.Task
import TodoLedger.Proofs.Comment.Scan
import TodoLedger.Proofs.Text.Stable
/-!
# The tasks of a line

What is found on a line of a file depends on the body of the line and its number alone. The byte
order mark counts for the first line only.
-/

namespace TodoLedger

open Utf8

/-- The bodies of lines, the first without a byte order mark. -/
def withoutBom : List Text → List Text
  | [] => []
  | body :: rest => Text.dropBom body :: rest

theorem getElem?_withoutBom (ls : List Text) (k : Nat) :
    (withoutBom ls)[k]? = if k = 0 then (ls[k]?).map Text.dropBom else ls[k]? := by
  cases ls with
  | nil => simp [withoutBom]
  | cons body rest => cases k <;> simp [withoutBom]

theorem dropBom_bom_cons {t : Text} : Text.dropBom (Rune.bom :: t) = t := by
  rw [Text.dropBom, if_pos rfl]

theorem dropBom_of_head? {t : Text} (h : t.head? ≠ some Rune.bom) : Text.dropBom t = t := by
  cases t with
  | nil => rfl
  | cons c t =>
      rw [Text.dropBom, if_neg]
      rintro rfl
      exact h rfl

/-- A body without its byte order mark is a line of the text, behind the mark if there was one. -/
theorem exists_mark {t body : Text} {k : Nat} (h : (withoutBom (Text.bodies t))[k]? = some body) :
    ∃ l mark, (Text.lines t)[k]? = some l ∧ l.body = mark ++ body ∧
      (mark = [] ∧ (k = 0 → body.head? ≠ some Rune.bom) ∨ mark = [Rune.bom] ∧ k = 0) := by
  rw [getElem?_withoutBom, Text.bodies, List.getElem?_map] at h
  cases hl : (Text.lines t)[k]? with
  | none => simp [hl] at h
  | some l =>
      rw [hl] at h
      split_ifs at h with hk
      · have hbody : Text.dropBom l.body = body := Option.some.inj h
        by_cases hbom : l.body.head? = some Rune.bom
        · obtain ⟨r, hr⟩ := List.head?_eq_some_iff.mp hbom
          rw [hr, dropBom_bom_cons] at hbody
          exact ⟨l, [Rune.bom], rfl, by rw [hr, hbody]; rfl, Or.inr ⟨rfl, hk⟩⟩
        · rw [dropBom_of_head? hbom] at hbody
          exact ⟨l, [], rfl, hbody, Or.inl ⟨rfl, fun _ => hbody ▸ hbom⟩⟩
      · exact ⟨l, [], rfl, Option.some.inj h, Or.inl ⟨rfl, fun hzero => absurd hzero hk⟩⟩

theorem tasksOfLine_nil (path : Path) (withMarked : Bool) (number : Nat) :
    tasksOfLine path withMarked number [] = [] := by
  have hmarked : Marker.idOf? [] = none := by decide
  have hforms : ∀ form, Scan.ofForm [] form = [] := by
    intro form
    cases form <;> rfl
  have hfound : ∀ comments : CommentSyntax, Scan.ofLine comments [] = [] := by
    intro comments
    rw [Scan.ofLine, List.flatMap_eq_nil_iff]
    exact fun form _ => hforms form
  simp [tasksOfLine, hmarked, hfound]

private theorem withoutBom_bodies_cons {c : Rune} (t : Text) (hc : c ≠ Rune.bom) :
    withoutBom (Text.bodies (c :: t)) = Text.bodies (c :: t) := by
  rw [Text.bodies, Text.lines_cons]
  cases Text.lines t with
  | nil =>
      simp only [Text.consLine]
      split_ifs <;> simp [withoutBom, Text.dropBom, hc]
  | cons l ls =>
      simp only [Text.consLine]
      split_ifs <;> simp [withoutBom, Text.dropBom, Line.push, hc]

private theorem bodies_bom_cons (t : Text) :
    withoutBom (Text.bodies (Rune.bom :: t)) =
      if Text.lines t = [] then [[]] else Text.bodies t := by
  have hlf : Rune.bom ≠ Rune.ofChar '\n' := by decide
  have hcr : Rune.bom ≠ Rune.ofChar '\r' := by decide
  rw [Text.bodies, Text.lines_cons]
  cases hlines : Text.lines t with
  | nil => simp [Text.consLine, hlf, hcr, withoutBom, Text.dropBom]
  | cons l ls =>
      simp [Text.consLine, hlf, hcr, withoutBom, Text.dropBom, Line.push, Text.bodies, hlines]

/-- The tasks of a text are found line by line. -/
theorem tasksOf_eq (path : Path) (withMarked : Bool) (t : Text) :
    tasksOf path withMarked t =
      tasksOfLines path withMarked 1 (withoutBom (Text.bodies t)) := by
  cases t with
  | nil => rfl
  | cons c t =>
      by_cases hc : c = Rune.bom
      · subst hc
        rw [tasksOf, Text.dropBom, if_pos rfl, bodies_bom_cons]
        split_ifs with hlines
        · rw [Text.bodies, hlines]
          simp [tasksOfLines, tasksOfLine_nil]
        · rfl
      · rw [tasksOf, Text.dropBom, if_neg hc, withoutBom_bodies_cons t hc]

theorem mem_tasksOfLines_iff {path : Path} {withMarked : Bool} {number : Nat} {ls : List Text}
    {task : Task} : task ∈ tasksOfLines path withMarked number ls ↔
      ∃ k body, ls[k]? = some body ∧ task ∈ tasksOfLine path withMarked (number + k) body := by
  induction ls generalizing number with
  | nil => simp [tasksOfLines]
  | cons line ls ih =>
      rw [tasksOfLines, List.mem_append, ih]
      constructor
      · rintro (h | ⟨k, body, hk, h⟩)
        · exact ⟨0, line, rfl, h⟩
        · exact ⟨k + 1, body, hk, by rwa [Nat.add_right_comm, Nat.add_assoc] at h⟩
      · rintro ⟨k, body, hk, h⟩
        cases k with
        | zero =>
            obtain rfl := Option.some.inj hk
            exact Or.inl h
        | succ k => exact Or.inr ⟨k, body, hk, by rwa [Nat.add_right_comm, Nat.add_assoc]⟩

/-- The task that is made of something found on an unmarked line. -/
def Scan.Found.toTask (f : Found) (path : Path) (number : Nat) (line : Text) : Task where
  path
  line := number
  column := f.offset + 1
  lineText := line
  keyword := Text.upper f.keyword
  text := f.text
  style := CommentSyntax.styleOf path
  issueId := none

/-- The text of what is found on a line, with the marker taken out if the line has one. -/
def Scan.Found.textOn (f : Found) (line : Text) : Text :=
  if (Marker.idOf? line).isSome then Text.trim (Marker.remove f.text) else f.text

theorem Scan.Found.textOn_of_unmarked {line : Text} (h : Marker.idOf? line = none) (f : Found) :
    f.textOn line = f.text := by
  rw [textOn, h]
  rfl

theorem tasksOfLine_eq (path : Path) (withMarked : Bool) (number : Nat) (line : Text) :
    tasksOfLine path withMarked number line =
      if Marker.idOf? line = none ∨ withMarked = true then
        (Scan.ofLine (CommentSyntax.ofPath path) line).filterMap fun f =>
          if (f.textOn line).isEmpty then none
          else some { f.toTask path number line with
            text := f.textOn line, issueId := Marker.idOf? line }
      else [] := by
  have hskips : ((Marker.idOf? line).isSome && !withMarked) = true ↔
      ¬(Marker.idOf? line = none ∨ withMarked = true) := by
    rw [Bool.and_eq_true, Option.isSome_iff_ne_none, Bool.not_eq_true', not_or, Bool.not_eq_true]
  rw [tasksOfLine]
  dsimp only
  by_cases hkept : Marker.idOf? line = none ∨ withMarked = true
  · rw [if_neg (hskips.not.mpr (not_not.mpr hkept)), if_pos hkept]
    rfl
  · rw [if_pos (hskips.mpr hkept), if_neg hkept]

/-- A line has a task for each marked comment that has a text, and none if it has a marker and marked
tasks are not wanted. -/
theorem mem_tasksOfLine_iff {path : Path} {withMarked : Bool} {number : Nat} {line : Text}
    {task : Task} : task ∈ tasksOfLine path withMarked number line ↔
      (Marker.idOf? line = none ∨ withMarked = true) ∧
        ∃ f ∈ Scan.ofLine (CommentSyntax.ofPath path) line, f.textOn line ≠ [] ∧
          task = { f.toTask path number line with
            text := f.textOn line, issueId := Marker.idOf? line } := by
  rw [tasksOfLine_eq]
  split_ifs with hkept
  · simp only [hkept, true_and, List.mem_filterMap]
    apply exists_congr
    intro f
    apply and_congr_right
    intro hf
    by_cases hempty : f.textOn line = []
    · simp [hempty]
    · simp only [List.isEmpty_iff, hempty, if_false, Option.some.injEq, ne_eq, not_false_eq_true,
        true_and]
      exact eq_comm
  · simp [hkept]

/-- A task tells where it was found and the id on its line. -/
private theorem place_of_mem_tasksOfLine {path : Path} {withMarked : Bool} {number : Nat}
    {line : Text} {task : Task} (h : task ∈ tasksOfLine path withMarked number line) :
    (task.path = path ∧ task.line = number) ∧ task.issueId = Marker.idOf? line := by
  obtain ⟨-, f, -, -, rfl⟩ := mem_tasksOfLine_iff.mp h
  exact ⟨⟨rfl, rfl⟩, rfl⟩

theorem line_of_mem_tasksOfLine {path : Path} {withMarked : Bool} {number : Nat} {line : Text}
    {task : Task} (h : task ∈ tasksOfLine path withMarked number line) :
    task.path = path ∧ task.line = number :=
  (place_of_mem_tasksOfLine h).1

/-- The tasks of a line that are found without the marked ones are those without an id. -/
theorem mem_tasksOfLine_false_iff {path : Path} {number : Nat} {line : Text} {task : Task} :
    task ∈ tasksOfLine path false number line ↔
      task ∈ tasksOfLine path true number line ∧ task.issueId = none := by
  have hid : task ∈ tasksOfLine path true number line → task.issueId = Marker.idOf? line :=
    fun h => (place_of_mem_tasksOfLine h).2
  cases hmarked : Marker.idOf? line with
  | none =>
      have hsame : tasksOfLine path false number line = tasksOfLine path true number line := by
        simp [tasksOfLine, hmarked]
      rw [hsame]
      exact ⟨fun h => ⟨h, (hid h).trans hmarked⟩, And.left⟩
  | some id =>
      have hnone : tasksOfLine path false number line = [] := by
        simp [tasksOfLine, hmarked]
      rw [hnone]
      constructor
      · simp
      · rintro ⟨h, hunmarked⟩
        rw [hid h, hmarked] at hunmarked
        cases hunmarked

/-- A task of a text stands on the line whose number it has. -/
theorem mem_tasksOf_iff {path : Path} {withMarked : Bool} {t : Text} {task : Task} :
    task ∈ tasksOf path withMarked t ↔ ∃ k body, (withoutBom (Text.bodies t))[k]? = some body ∧
      task.line = (k + 1 : Nat) ∧ task ∈ tasksOfLine path withMarked (k + 1) body := by
  rw [tasksOf_eq, mem_tasksOfLines_iff]
  constructor
  · rintro ⟨k, body, hk, h⟩
    rw [Nat.add_comm] at h
    exact ⟨k, body, hk, (line_of_mem_tasksOfLine h).2, h⟩
  · rintro ⟨k, body, hk, -, h⟩
    exact ⟨k, body, hk, by rwa [Nat.add_comm]⟩

/-- The tasks that are found without the marked ones are those without an id. -/
theorem mem_tasksOf_false_iff {path : Path} {t : Text} {task : Task} :
    task ∈ tasksOf path false t ↔ task ∈ tasksOf path true t ∧ task.issueId = none := by
  simp only [mem_tasksOf_iff, mem_tasksOfLine_false_iff]
  constructor
  · rintro ⟨k, body, hk, hline, htask, hunmarked⟩
    exact ⟨⟨k, body, hk, hline, htask⟩, hunmarked⟩
  · rintro ⟨⟨k, body, hk, hline, htask⟩, hunmarked⟩
    exact ⟨k, body, hk, hline, htask, hunmarked⟩

/-- The tasks of one line bear one id. -/
theorem issueId_eq_of_mem_tasksOf {path : Path} {withMarked : Bool} {t : Text} {r r' : Task}
    (h : r ∈ tasksOf path withMarked t) (h' : r' ∈ tasksOf path withMarked t)
    (hline : r.line = r'.line) : r.issueId = r'.issueId := by
  obtain ⟨k, body, hk, hr, hmem⟩ := mem_tasksOf_iff.mp h
  obtain ⟨k', body', hk', hr', hmem'⟩ := mem_tasksOf_iff.mp h'
  obtain rfl : k = k' := by omega
  obtain rfl := Option.some.inj (hk.symm.trans hk')
  rw [(place_of_mem_tasksOfLine hmem).2, (place_of_mem_tasksOfLine hmem').2]


/-- Texts that agree on a line have the same tasks there. -/
theorem mem_tasksOf_congr {path : Path} {withMarked : Bool} {s t : Text} {task : Task} {n : Nat}
    (h : (Text.bodies s)[n]? = (Text.bodies t)[n]?) (hline : task.line = (n + 1 : Nat)) :
    task ∈ tasksOf path withMarked s ↔ task ∈ tasksOf path withMarked t := by
  have hbodies : (withoutBom (Text.bodies s))[n]? = (withoutBom (Text.bodies t))[n]? := by
    rw [getElem?_withoutBom, getElem?_withoutBom, h]
  have hat : ∀ u : Text, task ∈ tasksOf path withMarked u ↔
      ∃ body, (withoutBom (Text.bodies u))[n]? = some body ∧
        task ∈ tasksOfLine path withMarked (n + 1) body := by
    intro u
    rw [mem_tasksOf_iff]
    constructor
    · rintro ⟨k, body, hk, hnumber, htask⟩
      obtain rfl : n = k := by
        rw [hline] at hnumber
        omega
      exact ⟨body, hk, htask⟩
    · rintro ⟨body, hn, htask⟩
      exact ⟨n, body, hn, hline, htask⟩
  rw [hat, hat, hbodies]

/-! ## What is known of a task -/

/-- A task as it is found in a text: its text is not blank at its ends, and its numbers are a line
and a column of the text. -/
structure Task.IsFound (p : Path) (t : Text) (task : Task) : Prop where
  path : task.path = p
  line : ∃ k, k < (Text.lines t).length ∧ task.line = (k + 1 : Nat)
  column : ∃ k, k < t.length ∧ task.column = (k + 1 : Nat)
  keyword : IsStable task.keyword
  text : task.text ≠ [] ∧ Text.IsTrimmed task.text
  style : task.style = CommentSyntax.styleOf p

private theorem isInfix_of_getElem?_withoutBom {t body : Text} {k : Nat}
    (h : (withoutBom (Text.bodies t))[k]? = some body) :
    body <:+: t ∧ k < (Text.lines t).length := by
  rw [getElem?_withoutBom, Text.bodies, List.getElem?_map] at h
  cases hl : (Text.lines t)[k]? with
  | none => simp [hl] at h
  | some l =>
      have hpart : body <:+ l.body := by
        rw [hl] at h
        split_ifs at h with hfirst
        · rw [← Option.some.inj h]
          exact Text.dropBom_suffix _
        · exact Option.some.inj h ▸ List.suffix_rfl
      refine ⟨?_, (List.getElem?_eq_some_iff.mp hl).1⟩
      exact hpart.isInfix.trans (Text.body_infix_of_mem_lines (List.mem_of_getElem? hl))

/-- The text of a task is trimmed, whether a marker was taken out or not. -/
theorem Scan.Found.isTrimmed_textOn {comments : CommentSyntax} {f : Found} {line : Text}
    (h : f ∈ ofLine comments line) : Text.IsTrimmed (f.textOn line) := by
  rw [textOn]
  split_ifs with hmarked
  · exact Text.isTrimmed_trim _
  · exact (isOn_of_mem_ofLine h).trimmed

theorem isFound_of_mem_tasksOf {path : Path} {withMarked : Bool} {t : Text} {task : Task}
    (h : task ∈ tasksOf path withMarked t) : task.IsFound path t := by
  obtain ⟨k, body, hk, hline, htask⟩ := mem_tasksOf_iff.mp h
  obtain ⟨hpart, hlt⟩ := isInfix_of_getElem?_withoutBom hk
  obtain ⟨-, found, hfound, hne, rfl⟩ := mem_tasksOfLine_iff.mp htask
  have hon := Scan.isOn_of_mem_ofLine hfound
  obtain ⟨word, hword, hsame⟩ := hon.keyword
  refine ⟨rfl, ⟨k, hlt, hline⟩, ⟨found.offset, ?_, rfl⟩, ?_,
    ⟨hne, Scan.Found.isTrimmed_textOn hfound⟩, rfl⟩
  · have hoffset := hon.offset_lt
    have hlength := hpart.length_le
    omega
  · have hletters : ∀ w ∈ taskKeywords, ∀ c ∈ w, c.letter.IsBasic := by
      decide
    exact Text.isStable_upper hsame (hletters word hword)

/-- The text of an unmarked task is a part of the text it was found in. -/
theorem text_isInfix_of_mem_tasksOf {path : Path} {t : Text} {task : Task}
    (h : task ∈ tasksOf path false t) : task.text <:+: t := by
  obtain ⟨k, body, hk, -, htask⟩ := mem_tasksOf_iff.mp h
  obtain ⟨hmarked, found, hfound, -, rfl⟩ := mem_tasksOfLine_iff.mp htask
  show found.textOn body <:+: t
  rw [Scan.Found.textOn_of_unmarked (hmarked.resolve_right (by decide))]
  exact (Scan.isOn_of_mem_ofLine hfound).text.trans (isInfix_of_getElem?_withoutBom hk).1

end TodoLedger
