import TodoLedger.Gather
import TodoLedger.Proofs.Gather.Agreement
import TodoLedger.Proofs.Gather.Scan
import TodoLedger.Proofs.Patch
import TodoLedger.Proofs.Text.OneLine
/-!
# Marking the lines of tasks

A marker is written into the line of its task. Each line of a file stays as it was or begins a marker,
with the ending that it had, and a line on which no task was found stays. Where no patch failed, the
line of every task has begun a marker.
-/

namespace TodoLedger

open Work Workspace Utf8

/-! ## The marked line -/

section MarkedLine

variable {body new id : Text} {column : Int}

private theorem isBasic_marker (hid : ∀ c ∈ id, c.IsBasic) :
    ∀ c ∈ (": " ++ Marker.text id ++ " " : Text), c.IsBasic := by
  have hcolon : ∀ c ∈ (": " : Text), c.IsBasic := by decide
  have hopening : ∀ c ∈ Marker.opening, c.IsBasic := by decide
  have hclosing : ∀ c ∈ ("]" : Text), c.IsBasic := by decide
  have hblank : ∀ c ∈ (" " : Text), c.IsBasic := by decide
  simp only [Marker.text, List.forall_mem_append]
  exact ⟨⟨hcolon, ⟨hopening, hid⟩, hclosing⟩, hblank⟩

/-- A marked line begins a marker, can be written, and is one line. -/
theorem markedBody?_spec (h : markedBody? column id body = some new)
    (hid : ∀ c ∈ id, c.IsBasic) (hfree : Text.EndFree body) (hstable : IsStable body) :
    Marker.isBegun new = true ∧ new ≠ [] ∧ Text.EndFree new ∧ IsStable new := by
  obtain ⟨before, word, rest, hkeyword, rfl⟩ := markedBody?_eq_some h
  have hsplit : body = before ++ (word ++ Rune.ofChar ':' :: rest) := by
    rcases hkeyword with hfirst | ⟨-, hfirst⟩
    · exact hfirst.isKeyword.split
    · exact hfirst.isKeyword.split
  have hfront : before ++ word <:+: body := by
    rw [hsplit, ← List.append_assoc]
    exact (List.prefix_append _ _).isInfix
  have hrest : rest.dropWhile Rune.isSpaceOrTab <:+: body := by
    rw [hsplit, ← List.append_assoc]
    exact ((List.dropWhile_suffix _).trans
      ((List.suffix_cons _ _).trans (List.suffix_append _ _))).isInfix
  have hmarker := isBasic_marker hid
  rw [← List.append_assoc]
  refine ⟨?_, ?_, ?_, ?_⟩
  · have hbegun := Marker.isBegun_append (before ++ word ++ ": ") id
      (" " ++ rest.dropWhile Rune.isSpaceOrTab)
    simpa only [List.append_assoc] using hbegun
  · intro hnil
    have hlength := congrArg List.length hnil
    simp only [List.length_append, List.length_nil] at hlength
    have hcolon : (": " : Text).length = 2 := rfl
    omega
  · have hmarkerFree := (Text.fitsLine_of_basic hmarker).breakFree.endFree
    exact Text.endFree_append.mpr ⟨hfree.of_infix hfront,
      Text.endFree_append.mpr ⟨hmarkerFree, hfree.of_infix hrest⟩⟩
  · refine (hstable.of_infix hfront).append
      ((Text.isStable_basic_append hmarker).mpr (hstable.of_infix hrest)) fun c hc => ?_
    obtain rfl : Rune.ofChar ':' = c := Option.some.inj hc
    decide

end MarkedLine

/-! ## The marked lines -/

/-- Each line stays as it was or is a touched one and begins a marker; the endings stay. -/
structure Advances (touched : Nat → Prop) (ls ms : List Line) : Prop where
  endings : ms.map Line.ending = ls.map Line.ending
  lines : ∀ k : Nat, ms[k]? = ls[k]? ∨
    touched k ∧ ∃ m, ms[k]? = some m ∧ Marker.isBegun m.body = true

section Lines

variable {touched touched' : Nat → Prop} {ls ms ns : List Line} {task : Task} {id m : Text}
  {p : Path} {t : Text} {k : Nat} {l : Line}

theorem Advances.refl (ls : List Line) : Advances touched ls ls := ⟨rfl, fun _ => Or.inl rfl⟩

/-- A line that has begun a marker keeps one. -/
theorem Advances.isBegun (h : Advances touched ls ms) (hl : ls[k]? = some l)
    (hbegun : Marker.isBegun l.body = true) :
    ∃ m, ms[k]? = some m ∧ Marker.isBegun m.body = true := by
  rcases h.lines k with hsame | ⟨-, hm⟩
  · exact ⟨l, hsame.trans hl, hbegun⟩
  · exact hm

theorem Advances.trans (h : Advances touched ls ms) (h' : Advances touched ms ns) :
    Advances touched ls ns := by
  refine ⟨h'.endings.trans h.endings, fun k => ?_⟩
  rcases h.lines k with hsame | ⟨htouched, m, hm, hbegun⟩
  · rw [← hsame]
    exact h'.lines k
  · exact Or.inr ⟨htouched, h'.isBegun hm hbegun⟩

theorem Advances.mono (h : Advances touched ls ms) (hsub : ∀ k, touched k → touched' k) :
    Advances touched' ls ms :=
  ⟨h.endings, fun k => (h.lines k).imp id fun hk => ⟨hsub k hk.1, hk.2⟩⟩

/-- An edit that marks a line leaves the others, and what it writes is read back. -/
theorem advances_of_insertMarker
    (hedit : (Edit.insertMarker task id).apply p (Text.lines t) = .ok (.changed ns m))
    (ht : IsStable t) (hid : ∀ c ∈ id, c.IsBasic) :
    IsStable (Text.ofLines ns) ∧ Text.lines (Text.ofLines ns) = ns ∧
      ∃ k l, task.line = (k + 1 : Nat) ∧ ns[k]? = some l ∧ Marker.isBegun l.body = true ∧
        Advances (· = k) (Text.lines t) ns := by
  obtain ⟨front, l, back, new, hlines, htarget, happlied, rfl⟩ := Edit.apply_eq_changed hedit
  have hcut := Text.wellCut_lines t
  have hmem : l ∈ Text.lines t := by simp [hlines]
  rw [Edit.applyLine] at happlied
  split_ifs at happlied
  cases hbody : markedBody? task.column id l.body with
  | none => simp [hbody] at happlied
  | some body =>
      rw [hbody] at happlied
      obtain rfl : [{ l with body }] = new := (Prod.mk.inj (Except.ok.inj happlied)).1
      obtain ⟨hbegun, hne, hfree, hstable⟩ := markedBody?_spec hbody hid
        (hcut.endFree l hmem) (Text.isStable_of_mem_lines ht hmem)
      obtain ⟨hwritten, hback⟩ := Text.exchange_spec ht hlines hne ⟨hstable, hfree⟩
      rw [hlines, List.append_assoc, List.singleton_append]
      refine ⟨hwritten, hback, front.length, { l with body }, htarget, by simp, hbegun, ?_⟩
      refine ⟨by simp, fun n => ?_⟩
      rcases Nat.lt_trichotomy n front.length with hlt | rfl | hgt
      · left
        rw [List.getElem?_append_left hlt, List.getElem?_append_left hlt]
      · right
        exact ⟨rfl, { l with body }, by simp, hbegun⟩
      · left
        obtain ⟨i, hi⟩ : ∃ i, n - front.length = i + 1 := ⟨n - front.length - 1, by omega⟩
        rw [List.getElem?_append_right (by omega), List.getElem?_append_right (by omega), hi]
        rfl

/-- A line on which a task is found has begun no marker, and the task's keyword can be marked. -/
theorem exists_line_of_mem_tasksOf (h : task ∈ tasksOf p false t) (id : Text) :
    ∃ k l body, task.line = (k + 1 : Nat) ∧ (Text.lines t)[k]? = some l ∧
      Marker.isBegun l.body = false ∧ markedBody? task.column id l.body = some body := by
  obtain ⟨F, hF, rfl⟩ := exists_occurrence h
  refine ⟨F.front.length, F.line, _, rfl, ?_, F.isBegun_body hF, F.markedBody?_body id⟩
  rw [F.lines_eq]
  simp

/-- Where a keyword can be marked, an edit makes no change only if a marker is begun. -/
theorem isBegun_of_unchanged (hedit : (Edit.insertMarker task id).apply p ls = .ok (.unchanged m))
    (hline : task.line = (k + 1 : Nat)) (hl : ls[k]? = some l)
    (hmark : ∃ body, markedBody? task.column id l.body = some body) :
    Marker.isBegun l.body = true := by
  obtain ⟨body, hbody⟩ := hmark
  have htarget : (Edit.insertMarker task id).target = (k + 1 : Nat) := hline
  by_contra hbegun
  rw [Edit.apply_getElem? htarget hl, Edit.applyLine, if_neg hbegun, hbody] at hedit
  cases hedit

end Lines

namespace Gather

/-! ## The marked files -/

variable {b : Backups} {paths : List Path} {tasks : List Task} {w v v' u : Workspace} {task : Task}
  {issue : Issue} {bytes : Bytes}

/-- The files at some paths stand at places of their own, apart from all their backups. -/
structure Separate (b : Backups) (cwd : Place) (paths : List Path) : Prop where
  isNamed : ∀ p ∈ paths, p.IsNamed
  unheld : ∀ p ∈ paths, ∀ q ∈ paths, ¬b.Holds q.name cwd (p.resolve cwd)
  injective : ∀ p ∈ paths, ∀ q ∈ paths, p.resolve cwd = q.resolve cwd → p = q

/-- One of the tasks stands on the line behind so many lines of a file. -/
def HasTask (tasks : List Task) (p : Path) (k : Nat) : Prop :=
  ∃ task ∈ tasks, task.path = p ∧ task.line = (k + 1 : Nat)

/-- The places that marking may touch: those of the files and those of their backups. -/
def Touches (b : Backups) (paths : List Path) (cwd place : Place) : Prop :=
  (∃ p ∈ paths, place = p.resolve cwd) ∨ ∃ p ∈ paths, b.Holds p.name cwd place

/-- The files have changed by markers on lines of tasks only. -/
structure Keeps (b : Backups) (paths : List Path) (tasks : List Task) (w v : Workspace) : Prop where
  frame : Frame (Touches b paths w.cwd) w v
  files : ∀ p ∈ paths, ∀ bytes, w.content p = .ok bytes → ∃ bytes', v.content p = .ok bytes' ∧
    Advances (HasTask tasks p) (Text.lines (decode bytes)) (Text.lines (decode bytes'))

/-- The line of the task has begun a marker. -/
def IsMarked (w : Workspace) (task : Task) : Prop :=
  ∃ bytes k l, w.content task.path = .ok bytes ∧ task.line = (k + 1 : Nat) ∧
    (Text.lines (decode bytes))[k]? = some l ∧ Marker.isBegun l.body = true

theorem Keeps.refl (w : Workspace) : Keeps b paths tasks w w :=
  ⟨.refl w, fun _ _ bytes hcontent => ⟨bytes, hcontent, .refl _⟩⟩

theorem Keeps.trans (h : Keeps b paths tasks w v) (h' : Keeps b paths tasks v u) :
    Keeps b paths tasks w u := by
  have hframe := h'.frame
  rw [h.frame.cwd] at hframe
  refine ⟨h.frame.trans hframe, fun p hp bytes hcontent => ?_⟩
  obtain ⟨bytes', hcontent', hlines⟩ := h.files p hp bytes hcontent
  obtain ⟨bytes'', hcontent'', hlines'⟩ := h'.files p hp bytes' hcontent'
  exact ⟨bytes'', hcontent'', hlines.trans hlines'⟩

theorem IsMarked.keeps (h : IsMarked v task) (hkeeps : Keeps b paths tasks v u)
    (hpath : task.path ∈ paths) : IsMarked u task := by
  obtain ⟨bytes, k, l, hcontent, hline, hl, hbegun⟩ := h
  obtain ⟨bytes', hcontent', hlines⟩ := hkeeps.files _ hpath bytes hcontent
  obtain ⟨l', hl', hbegun'⟩ := hlines.isBegun hl hbegun
  exact ⟨bytes', k, l', hcontent', hline, hl', hbegun'⟩

/-- Where nothing but backups is touched the files are kept. -/
theorem Keeps.of_frame (hpaths : Separate b v.cwd paths) (hpath : task.path ∈ paths)
    (hframe : Frame (b.Holds task.path.name v.cwd) v u) : Keeps b paths tasks v u := by
  refine ⟨hframe.mono fun place hplace => Or.inr ⟨_, hpath, hplace⟩, fun p hp bytes hcontent => ?_⟩
  exact ⟨bytes, hframe.content hcontent (hpaths.unheld p hp _ hpath), .refl _⟩

private theorem keeps_of_writes {ls : List Line} (hpaths : Separate b v.cwd paths)
    (htask : task ∈ tasks) (hpath : task.path ∈ paths) (hid : ∀ c ∈ issue.id, c.IsBasic)
    (hbefore : v.content task.path = .ok bytes)
    (hwrites : Patch.Writes b task.path (.insertMarker task issue.id) bytes ls v u) :
    Keeps b paths tasks v u := by
  have hframe := hwrites.frame
  constructor
  · refine hframe.mono fun place hplace => ?_
    rcases hplace with hown | hheld
    · exact Or.inl ⟨_, hpath, hown⟩
    · exact Or.inr ⟨_, hpath, hheld⟩
  · intro p hp start hstart
    by_cases hsame : p = task.path
    · subst hsame
      obtain rfl := Except.ok.inj (hstart.symm.trans hbefore)
      obtain ⟨m, hedit⟩ := hwrites.edited
      obtain ⟨hstable, hread, k, l, hline, -, -, hadvances⟩ :=
        advances_of_insertMarker hedit (isStable_decode start) hid
      refine ⟨_, hwrites.after, ?_⟩
      rw [hstable.decode_bytesOf, hread]
      exact hadvances.mono fun n hn => ⟨task, htask, rfl, hn ▸ hline⟩
    · refine ⟨start, hframe.content hstart ?_, .refl _⟩
      rintro (hown | hheld)
      · exact hsame (hpaths.injective p hp _ hpath hown)
      · exact hpaths.unheld p hp _ hpath hheld

/-- Marking a task is an edit of its file, and the files are kept. -/
theorem mark_step (hpaths : Separate b v.cwd paths) (htask : task ∈ tasks)
    (hpath : task.path ∈ paths) (hid : ∀ c ∈ issue.id, c.IsBasic)
    (hcontent : v.content task.path = .ok bytes) :
    Patch.Step b task.path (.insertMarker task issue.id) v bytes ((mark b task issue).runOn v) ∧
      Keeps b paths tasks v ((mark b task issue).runOn v).2 := by
  have hstep := Patch.apply_step (b := b) (e := .insertMarker task issue.id) (hpaths.isNamed _ hpath)
    hcontent fun ls m hedit => (advances_of_insertMarker hedit (isStable_decode bytes) hid).1
  have hrun : (mark b task issue).runOn v =
      (Patch.apply b task.path (.insertMarker task issue.id)).runOn v := by
    rw [mark, runOn_tryCatch]
    rcases happly : (Patch.apply b task.path (.insertMarker task issue.id)).runOn v with
      ⟨fault | patch, v'⟩
    · obtain rfl := hstep.error_eq (by rw [happly])
      rfl
    · rfl
  rw [hrun]
  refine ⟨hstep, ?_⟩
  rcases hstep.effect with ⟨hframe, -⟩ | ⟨patch, ls, -, -, hwrites⟩
  · exact .of_frame hpaths hpath hframe
  · exact keeps_of_writes hpaths htask hpath hid hcontent hwrites

/-- However marking ends, it touches no file but those of the tasks and their backups. -/
theorem frame_mapM_mark {pairs : List (Task × Issue)}
    (hpairs : ∀ e ∈ pairs, e.1.path ∈ paths ∧ e.1.path.IsNamed) :
    Frame (Touches b paths w.cwd) w ((pairs.mapM fun e => mark b e.1 e.2).runOn w).2 := by
  induction pairs generalizing w with
  | nil => exact .refl w
  | cons e pairs ih =>
      obtain ⟨⟨hpath, hnamed⟩, hrest⟩ := List.forall_mem_cons.mp hpairs
      rw [List.mapM_cons]
      refine moves_bind ?_ fun patch w₁ _ h₁ => moves_bind ?_ fun _ w₂ _ _ => .refl w₂
      · refine moves_tryCatch ?_ fun fault w₁ _ _ => ?_
        · refine (Patch.frame_apply hnamed).mono fun place hplace => ?_
          exact hplace.imp (fun hown => ⟨_, hpath, hown⟩) fun hheld => ⟨_, hpath, hheld⟩
        · split
          · exact moves_bind (frame_report _) fun _ w₂ _ _ => .refl w₂
          · exact .refl w₁
      · rw [← h₁.cwd]
        exact ih hrest

/-- Where a task was found, a patch that did not fail leaves a marker. The line may have got one from
another task before. -/
theorem isMarked_of_step {patch : Patch} (hkeeps : Keeps b paths tasks w v)
    (hpath : task.path ∈ paths) (hfound : task ∈ w.tasksAt task.path)
    (hid : ∀ c ∈ issue.id, c.IsBasic) (hcontent : v.content task.path = .ok bytes)
    (hstep : Patch.Step b task.path (.insertMarker task issue.id) v bytes (.ok patch, u))
    (hok : patch.isFailure = false) : IsMarked u task := by
  cases hstep with
  | refused _ => cases hok
  | failed _ _ _ _ => cases hok
  | @applied ls m w₁ v' hedit hframe hwrite =>
      obtain ⟨hstable, hread, k, l, hline, hl, hbegun, -⟩ :=
        advances_of_insertMarker hedit (isStable_decode bytes) hid
      have hafter := content_of_withContent hwrite
      refine ⟨bytesOf (Text.ofLines ls), k, l, hafter, hline, ?_, hbegun⟩
      rw [hstable.decode_bytesOf, hread]
      exact hl
  | @unchanged m hedit =>
      obtain ⟨start, hstart, htask⟩ := exists_content_of_mem_tasksAt hfound
      obtain ⟨k, l, body, hline, hl, -, hmark⟩ := exists_line_of_mem_tasksOf htask issue.id
      obtain ⟨bytes', hcontent', hlines⟩ := hkeeps.files _ hpath start hstart
      obtain rfl := Except.ok.inj (hcontent'.symm.trans hcontent)
      rcases hlines.lines k with hsame | ⟨-, l', hl', hbegun⟩
      · have hl' := hsame.trans hl
        exact ⟨_, k, l, hcontent, hline, hl', isBegun_of_unchanged hedit hline hl' ⟨body, hmark⟩⟩
      · exact ⟨_, k, l', hcontent, hline, hl', hbegun⟩

/-- Marking tasks one after the other keeps the files, and where no patch fails each task is
marked. -/
theorem keeps_mapM_mark (hpaths : Separate b w.cwd paths) {pairs : List (Task × Issue)}
    {patches : List Patch} (hpairs : ∀ e ∈ pairs, e.1 ∈ tasks ∧ e.1.path ∈ paths ∧
      e.1 ∈ w.tasksAt e.1.path ∧ ∀ c ∈ e.2.id, c.IsBasic) (hkeeps : Keeps b paths tasks w v)
    (hrun : (pairs.mapM fun e => mark b e.1 e.2).runOn v = (.ok patches, u)) :
    Keeps b paths tasks v u ∧
      ((∀ patch ∈ patches, patch.isFailure = false) → ∀ e ∈ pairs, IsMarked u e.1) := by
  induction pairs generalizing v patches with
  | nil =>
      obtain rfl := (Prod.mk.inj hrun).2
      exact ⟨.refl _, fun _ => by simp⟩
  | cons e pairs ih =>
      obtain ⟨⟨htask, hpath, hfound, hid⟩, hrest⟩ := List.forall_mem_cons.mp hpairs
      obtain ⟨patch, v₁, others, hmark, hothers, rfl⟩ := runOn_mapM_cons_eq_ok hrun
      obtain ⟨start, hstart, -⟩ := exists_content_of_mem_tasksAt hfound
      obtain ⟨bytes, hcontent, -⟩ := hkeeps.files _ hpath start hstart
      have hpathsHere : Separate b v.cwd paths := by
        rw [hkeeps.frame.cwd]
        exact hpaths
      obtain ⟨hstep, hone⟩ := mark_step hpathsHere htask hpath hid hcontent
      rw [hmark] at hstep hone
      obtain ⟨hall, hmarked⟩ := ih hrest (hkeeps.trans hone) hothers
      refine ⟨hone.trans hall, fun hok => ?_⟩
      obtain ⟨hfirst, hlater⟩ := List.forall_mem_cons.mp hok
      refine List.forall_mem_cons.mpr ⟨?_, hmarked hlater⟩
      exact (isMarked_of_step hkeeps hpath hfound hid hcontent hstep hfirst).keeps hall hpath

end Gather

end TodoLedger
