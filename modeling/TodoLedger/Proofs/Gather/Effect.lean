import TodoLedger.Proofs.Document.Composition
import TodoLedger.Proofs.Gather.Repeat
/-!
# The exact effect of a gather run

Markers are written one after the other into files that are read again each time. In the end each line
is as if all markers had been written at once: the first task of the line is marked with the id of its
issue, and all other lines stay.
-/

namespace TodoLedger

open Work Workspace Utf8 Document

/-! ## The lines of one file -/

/-- The first of the pairs whose task stands on the line behind so many lines of a file. -/
def firstAt (pairs : List (Task × Issue)) (p : Path) (k : Nat) : Option (Task × Issue) :=
  pairs.find? fun e => e.1.path = p ∧ e.1.line = (k + 1 : Nat)

/-- The two tasks stand on one line. -/
def Task.SharesLine (r t : Task) : Prop := r.path = t.path ∧ r.line = t.line

/-- The line of the place with a marker behind the keyword. -/
def Occurrence.markedLine {path : Path} {t : Text} (F : Occurrence path t) (id : Text) : Line :=
  { F.line with body := F.mark ++ F.lineWith (markedRest id F.rest) }

section Lines

variable {pairs : List (Task × Issue)} {p : Path} {t : Text} {ms ns : List Line} {k : Nat}
  {task : Task} {issue : Issue} {m : Text} {e : Task × Issue} {o : Option (Task × Issue)}

theorem of_firstAt (h : firstAt pairs p k = some e) :
    e ∈ pairs ∧ e.1.path = p ∧ e.1.line = (k + 1 : Nat) :=
  ⟨List.mem_of_find?_eq_some h, by simpa using List.find?_some h⟩

theorem firstAt_eq_none_iff : firstAt pairs p k = none ↔
    ∀ e ∈ pairs, ¬(e.1.path = p ∧ e.1.line = (k + 1 : Nat)) := by
  simp only [firstAt, List.find?_eq_none, decide_eq_true_eq]

theorem firstAt_concat (pairs : List (Task × Issue)) (e : Task × Issue) (p : Path) (k : Nat) :
    firstAt (pairs ++ [e]) p k = (firstAt pairs p k).or
      (if e.1.path = p ∧ e.1.line = (k + 1 : Nat) then some e else none) := by
  rw [firstAt, firstAt, List.find?_append, List.find?_singleton]
  simp only [decide_eq_true_eq]

/-- The lines of a text in which on each line the first task of some pairs is marked with the id of its
issue. The other lines stay. -/
structure MarksFirst (p : Path) (t : Text) (pairs : List (Task × Issue)) (ms : List Line) : Prop where
  kept : ∀ k, firstAt pairs p k = none → ms[k]? = (Text.lines t)[k]?
  marked : ∀ k e, firstAt pairs p k = some e → ∃ F : Occurrence p t, F.IsSound ∧ F.task = e.1 ∧
    F.front.length = k ∧ ms[k]? = some (F.markedLine e.2.id)

namespace MarksFirst

theorem nil (p : Path) (t : Text) : MarksFirst p t [] (Text.lines t) :=
  ⟨fun _ _ => rfl, by simp [firstAt]⟩

/-- A task of another file or of a line that is marked already adds nothing. -/
theorem concat_of_covered (h : MarksFirst p t pairs ms)
    (hcovered : ∀ k, e.1.path = p → e.1.line = (k + 1 : Nat) → (firstAt pairs p k).isSome) :
    MarksFirst p t (pairs ++ [e]) ms := by
  have hsame : ∀ k, firstAt (pairs ++ [e]) p k = firstAt pairs p k := by
    intro k
    rw [firstAt_concat]
    split_ifs with hthere
    · obtain ⟨found, hfound⟩ := Option.isSome_iff_exists.mp (hcovered k hthere.1 hthere.2)
      rw [hfound]
      rfl
    · exact Option.or_none
  exact ⟨fun k hk => h.kept k (hsame k ▸ hk), fun k e he => h.marked k e (hsame k ▸ he)⟩

theorem of_concat_ne (h : firstAt (pairs ++ [e]) p k = o) (hne : e.1.line ≠ (k + 1 : Nat)) :
    firstAt pairs p k = o := by
  rw [firstAt_concat, if_neg fun hthere => hne hthere.2, Option.or_none] at h
  exact h

/-- A task of a line that is not marked yet is marked there. -/
theorem concat_of_first (h : MarksFirst p t pairs ms) {F : Occurrence p t} (hF : F.IsSound)
    (hfirst : firstAt pairs p F.front.length = none) :
    MarksFirst p t (pairs ++ [(F.task, issue)])
      (ms.set F.front.length (F.markedLine issue.id)) := by
  have hline : ∀ k, F.front.length ≠ k → (F.task, issue).1.line ≠ (k + 1 : Nat) := by
    intro k hne hsame
    have hown : F.task.line = (F.front.length + 1 : Nat) := rfl
    have hsame' : F.task.line = (k + 1 : Nat) := hsame
    omega
  have hhere : firstAt (pairs ++ [(F.task, issue)]) p F.front.length = some (F.task, issue) := by
    rw [firstAt_concat, hfirst, if_pos ⟨rfl, rfl⟩]
    rfl
  constructor
  · intro k hk
    have hne : F.front.length ≠ k := by
      rintro rfl
      rw [hhere] at hk
      cases hk
    rw [List.getElem?_set_ne hne]
    exact h.kept k (of_concat_ne hk (hline k hne))
  · intro k e he
    by_cases hne : F.front.length = k
    · subst hne
      obtain rfl := Option.some.inj (hhere.symm.trans he)
      have hlt : F.front.length < ms.length := by
        have hthere : ms[F.front.length]? = some F.line := by
          rw [h.kept _ hfirst, F.lines_eq]
          simp
        exact (List.getElem?_eq_some_iff.mp hthere).1
      exact ⟨F, hF, rfl, rfl, List.getElem?_set_self hlt⟩
    · rw [List.getElem?_set_ne hne]
      exact h.marked k e (of_concat_ne he (hline k hne))

/-- What an edit makes of lines on which some tasks are marked: it marks its own line if that is the
first time, and else it makes no change. -/
theorem step (h : MarksFirst p t pairs ms) (hfound : task ∈ tasksOf p false t) (issue : Issue) :
    ((∀ e ∈ pairs, ¬e.1.SharesLine task) ∧ ∃ ns, (Edit.insertMarker task issue.id).apply p ms =
        .ok (.changed ns ("Inserted reference " ++ issue.id)) ∧
      MarksFirst p t (pairs ++ [(task, issue)]) ns) ∨
    ((∃ e ∈ pairs, e.1.SharesLine task) ∧ (Edit.insertMarker task issue.id).apply p ms =
        .ok (.unchanged "Line already has reference") ∧
      MarksFirst p t (pairs ++ [(task, issue)]) ms) := by
  obtain ⟨F, hF, rfl⟩ := exists_occurrence hfound
  have htarget : (Edit.insertMarker F.task issue.id).target = (F.front.length + 1 : Nat) := rfl
  cases hfirst : firstAt pairs p F.front.length with
  | none =>
      left
      have hl : ms[F.front.length]? = some F.line := by
        rw [h.kept _ hfirst, F.lines_eq]
        simp
      obtain ⟨hlt, -⟩ := List.getElem?_eq_some_iff.mp hl
      have hns : ms.take F.front.length ++ [F.markedLine issue.id] ++ ms.drop (F.front.length + 1) =
          ms.set F.front.length (F.markedLine issue.id) := by
        rw [List.set_eq_take_append_cons_drop, if_pos hlt, List.append_assoc]
        rfl
      refine ⟨firstAt_eq_none_iff.mp hfirst, _, ?_, h.concat_of_first hF hfirst⟩
      rw [Edit.apply_getElem? htarget hl, Edit.applyLine, F.isBegun_body hF,
        F.markedBody?_body issue.id, ← hns]
      rfl
  | some found =>
      right
      obtain ⟨F', -, -, -, hl⟩ := h.marked _ found hfirst
      have hbegun : Marker.isBegun (F'.markedLine found.2.id).body = true :=
        F'.isBegun_marked found.2.id
      obtain ⟨hmem, hplace⟩ := of_firstAt hfirst
      refine ⟨⟨found, hmem, hplace⟩, ?_, h.concat_of_covered fun k _ hk => ?_⟩
      · rw [Edit.apply_getElem? htarget hl, Edit.applyLine, if_pos hbegun]
      · have hsame : F.front.length = k := by
          have hline : F.task.line = (F.front.length + 1 : Nat) := rfl
          have hk' : F.task.line = (k + 1 : Nat) := hk
          omega
        rw [← hsame, hfirst]
        rfl

/-- The task that is marked is found with the id, and the other tasks of its line have that id too. -/
theorem mem_tasksOf_marked {s : Text} (h : MarksFirst p t pairs (Text.lines s))
    (hids : ∀ e ∈ pairs, ∀ c ∈ e.2.id, c.IsSlug) (hfirst : firstAt pairs p k = some e) :
    (∃ text, { e.1 with lineText := text, issueId := some e.2.id } ∈ tasksOf p true s) ∧
      ∀ r ∈ tasksOf p true s, r.line = e.1.line → r.issueId = some e.2.id := by
  obtain ⟨he, -, -⟩ := of_firstAt hfirst
  obtain ⟨F, hF, htask, rfl, hl⟩ := h.marked k e hfirst
  have hbodies : (Text.bodies s)[F.front.length]? =
      (Text.bodies (Text.ofLines (F.marked e.2.id)))[F.front.length]? := by
    rw [Text.bodies, Text.bodies, F.lines_ofLines_marked (hids e he), List.getElem?_map,
      List.getElem?_map, hl, Occurrence.marked]
    simp [Occurrence.markedLine]
  have hmem := (mem_tasksOf_congr hbodies rfl).mpr (F.mem_tasksOf_marked hF (hids e he))
  rw [htask] at hmem
  exact ⟨⟨_, hmem⟩, fun r hr hline => issueId_eq_of_mem_tasksOf hr hmem hline⟩

/-- Marking leaves the lines on which tasks are found, marked ones included. -/
theorem exists_task_iff {s : Text} (h : MarksFirst p t pairs (Text.lines s))
    (hpairs : ∀ e ∈ pairs, (e.1.path = p → e.1 ∈ tasksOf p false t) ∧ ∀ c ∈ e.2.id, c.IsSlug)
    (k : Nat) : (∃ r ∈ tasksOf p true s, r.line = (k + 1 : Nat)) ↔
      ∃ r ∈ tasksOf p true t, r.line = (k + 1 : Nat) := by
  cases hfirst : firstAt pairs p k with
  | none =>
      have hbodies : (Text.bodies s)[k]? = (Text.bodies t)[k]? := by
        rw [Text.bodies, Text.bodies, List.getElem?_map, List.getElem?_map, h.kept k hfirst]
      exact exists_congr fun r => and_congr_left fun hline => mem_tasksOf_congr hbodies hline
  | some e =>
      obtain ⟨he, hpath, hline⟩ := of_firstAt hfirst
      obtain ⟨⟨_, hmarked⟩, -⟩ := h.mem_tasksOf_marked (fun e he => (hpairs e he).2) hfirst
      exact iff_of_true ⟨_, hmarked, hline⟩
        ⟨e.1, (mem_tasksOf_false_iff.mp ((hpairs e he).1 hpath)).1, hline⟩

end MarksFirst

end Lines

namespace Gather

/-! ## The files -/

variable {settings : Settings} {b : Backups} {directory document : Path} {place : Place}
  {paths : List Path} {tasks : List Task} {pairs written : List (Task × Issue)}
  {w w' v u : Workspace} {task : Task} {issue : Issue} {bytes : Bytes} {g : Gathered}

/-- From one workspace to the other the first tasks of some pairs were marked. -/
structure Marks (b : Backups) (paths : List Path) (pairs : List (Task × Issue)) (w v : Workspace) :
    Prop where
  frame : Frame (Touches b paths w.cwd) w v
  files : ∀ p ∈ paths, ∀ bytes, w.content p = .ok bytes → ∃ bytes', v.content p = .ok bytes' ∧
    MarksFirst p (decode bytes) pairs (Text.lines (decode bytes'))

/-- What a patch says of its task, when some pairs have been marked before. -/
inductive Reports (written : List (Task × Issue)) (task : Task) (issue : Issue) : Patch → Prop
  | applied : (∀ e ∈ written, ¬e.1.SharesLine task) →
      Reports written task issue ⟨task.path, .applied, "Inserted reference " ++ issue.id⟩
  | unchanged : (∃ e ∈ written, e.1.SharesLine task) →
      Reports written task issue ⟨task.path, .unchanged, "Line already has reference"⟩
  | failed {fault : Fault} : fault.IsOfFiles →
      Reports written task issue (.failure task.path (.insertMarker task issue.id) fault)

/-- What the patches say of pairs that are marked one after the other. -/
inductive Reported : List (Task × Issue) → List (Task × Issue) → List Patch → Prop
  | nil {written : List (Task × Issue)} : Reported written [] []
  | cons {written rest : List (Task × Issue)} {e : Task × Issue} {patch : Patch}
      {patches : List Patch} : Reports written e.1 e.2 patch →
      Reported (if patch.isFailure then written else written ++ [e]) rest patches →
      Reported written (e :: rest) (patch :: patches)

theorem Marks.refl (w : Workspace) : Marks b paths [] w w :=
  ⟨.refl w, fun p _ bytes hcontent => ⟨bytes, hcontent, .nil p _⟩⟩

/-- An edit leaves the other files alone. -/
private theorem content_of_step {p : Path} {r : Except Fault Patch × Workspace} {e : Edit}
    {start : Bytes} (hpaths : Separate b v.cwd paths) (hpath : task.path ∈ paths) (hp : p ∈ paths)
    (hne : p ≠ task.path) (hstep : Patch.Step b task.path e v bytes r)
    (hstart : v.content p = .ok start) : r.2.content p = .ok start := by
  rcases hstep.effect with ⟨hframe, -⟩ | ⟨patch, ls, -, -, hwrites⟩
  · exact hframe.content hstart (hpaths.unheld p hp _ hpath)
  · refine hwrites.frame.content hstart ?_
    rintro (hown | hheld)
    · exact hne (hpaths.injective p hp _ hpath hown)
    · exact hpaths.unheld p hp _ hpath hheld

/-- What a patch says of its task, and what it makes of the file of the task. -/
private theorem reports_of_step {patch : Patch} {start : Bytes}
    (hunheld : ¬b.Holds task.path.name v.cwd (task.path.resolve v.cwd))
    (hid : ∀ c ∈ issue.id, c.IsBasic) (hcontent : v.content task.path = .ok bytes)
    (hmarks : MarksFirst task.path (decode start) written (Text.lines (decode bytes)))
    (htask : task ∈ tasksOf task.path false (decode start))
    (hstep : Patch.Step b task.path (.insertMarker task issue.id) v bytes (.ok patch, u)) :
    Reports written task issue patch ∧ ∃ bytes', u.content task.path = .ok bytes' ∧
      MarksFirst task.path (decode start)
        (if patch.isFailure then written else written ++ [(task, issue)])
        (Text.lines (decode bytes')) := by
  have hedit := hmarks.step htask issue
  cases hstep with
  | refused herror =>
      exfalso
      rcases hedit with ⟨-, ns, hedit, -⟩ | ⟨-, hedit, -⟩
      · cases herror.symm.trans hedit
      · cases herror.symm.trans hedit
  | @failed ls m w₁ fault _ hheld hfault _ =>
      exact ⟨.failed hfault, bytes, hheld.content hcontent hunheld, hmarks⟩
  | unchanged hunchanged =>
      rcases hedit with ⟨-, ns, hedit, -⟩ | ⟨hmarked, hedit, hmarks'⟩
      · cases hunchanged.symm.trans hedit
      · obtain rfl := Edited.unchanged.inj (Except.ok.inj (hunchanged.symm.trans hedit))
        exact ⟨.unchanged hmarked, bytes, hcontent, hmarks'⟩
  | @applied ls m w₁ v' hchanged _ hwrite =>
      rcases hedit with ⟨hnew, ns, hedit, hmarks'⟩ | ⟨-, hedit, -⟩
      · obtain ⟨hstable, hread, -⟩ :=
          advances_of_insertMarker hchanged (isStable_decode bytes) hid
        obtain ⟨rfl, rfl⟩ := Edited.changed.inj (Except.ok.inj (hchanged.symm.trans hedit))
        have hafter := content_of_withContent hwrite
        refine ⟨.applied hnew, bytesOf (Text.ofLines ls), hafter, ?_⟩
        rw [hstable.decode_bytesOf, hread]
        exact hmarks'
      · cases hchanged.symm.trans hedit

/-- A patch that does not fail marks its task unless the line is marked; one that fails leaves all
files as they are. -/
theorem Marks.step {patch : Patch} (h : Marks b paths written w v) (hpaths : Separate b w.cwd paths)
    (hpath : task.path ∈ paths) (hfound : task ∈ w.tasksAt task.path)
    (hid : ∀ c ∈ issue.id, c.IsSlug) (hrun : (mark b task issue).runOn v = (.ok patch, u)) :
    Reports written task issue patch ∧
      Marks b paths (if patch.isFailure then written else written ++ [(task, issue)]) w u := by
  obtain ⟨start, hstart, htask⟩ := exists_content_of_mem_tasksAt hfound
  obtain ⟨bytes, hcontent, hmarks⟩ := h.files _ hpath start hstart
  have hpathsHere : Separate b v.cwd paths := by
    rw [h.frame.cwd]
    exact hpaths
  have hbasic : ∀ c ∈ issue.id, c.IsBasic := fun c hc => (hid c hc).isVisible.isBasic
  obtain ⟨hstep, hkeeps⟩ := @mark_step b paths [task] v task issue bytes hpathsHere (by simp) hpath
    hbasic hcontent
  rw [hrun] at hstep hkeeps
  have hframe := hkeeps.frame
  rw [h.frame.cwd] at hframe
  obtain ⟨hreports, bytes', hcontent', hmarks'⟩ :=
    reports_of_step (hpathsHere.unheld _ hpath _ hpath) hbasic hcontent hmarks htask hstep
  refine ⟨hreports, h.frame.trans hframe, fun p hp first hfirst => ?_⟩
  by_cases hsame : p = task.path
  · subst hsame
    obtain rfl := Except.ok.inj (hstart.symm.trans hfirst)
    exact ⟨bytes', hcontent', hmarks'⟩
  · obtain ⟨other, hother, hmarks'⟩ := h.files p hp first hfirst
    refine ⟨other, content_of_step hpathsHere hpath hp hsame hstep hother, ?_⟩
    split_ifs
    · exact hmarks'
    · exact hmarks'.concat_of_covered fun k howner _ => absurd howner.symm hsame

/-- The pairs whose patches did not fail. -/
def unfailed (pairs : List (Task × Issue)) (patches : List Patch) : List (Task × Issue) :=
  ((pairs.zip patches).filter fun e => !e.2.isFailure).map Prod.fst

theorem unfailed_cons (e : Task × Issue) (pairs : List (Task × Issue)) (patch : Patch)
    (patches : List Patch) : unfailed (e :: pairs) (patch :: patches) =
      if patch.isFailure then unfailed pairs patches else e :: unfailed pairs patches := by
  cases hfailure : patch.isFailure <;> simp [unfailed, hfailure]

theorem Reported.unfailed_sublist {patches : List Patch} (h : Reported written pairs patches) :
    List.Sublist (unfailed pairs patches) pairs := by
  induction h with
  | nil => exact .slnil
  | @cons _ _ e patch _ _ _ ih =>
      rw [unfailed_cons]
      split_ifs
      · exact ih.cons e
      · exact ih.cons_cons e

theorem Reported.unfailed_eq {patches : List Patch} (h : Reported written pairs patches)
    (hok : ∀ patch ∈ patches, patch.isFailure = false) : unfailed pairs patches = pairs := by
  induction h with
  | nil => rfl
  | cons _ _ ih =>
      obtain ⟨hpatch, hothers⟩ := List.forall_mem_cons.mp hok
      rw [unfailed_cons, hpatch, ih hothers]
      rfl

/-- Marking tasks one after the other marks the first of each line among those whose patches do not
fail. -/
theorem marks_mapM {patches : List Patch} (hpaths : Separate b w.cwd paths)
    (hpairs : ∀ e ∈ pairs, e.1.path ∈ paths ∧ e.1 ∈ w.tasksAt e.1.path ∧ ∀ c ∈ e.2.id, c.IsSlug)
    (h : Marks b paths written w v)
    (hrun : (pairs.mapM fun e => mark b e.1 e.2).runOn v = (.ok patches, u)) :
    Reported written pairs patches ∧ Marks b paths (written ++ unfailed pairs patches) w u := by
  induction pairs generalizing v written patches with
  | nil =>
      obtain ⟨hpatches, rfl⟩ := Prod.mk.inj hrun
      obtain rfl := Except.ok.inj hpatches
      exact ⟨.nil, by rwa [unfailed, List.zip_nil_left, List.filter_nil, List.map_nil, List.append_nil]⟩
  | cons e pairs ih =>
      obtain ⟨⟨hpath, hfound, hid⟩, hrest⟩ := List.forall_mem_cons.mp hpairs
      obtain ⟨patch, v₁, others, hmark, hothers, rfl⟩ := runOn_mapM_cons_eq_ok hrun
      obtain ⟨hreports, hone⟩ := h.step hpaths hpath hfound hid hmark
      obtain ⟨hreported, hmarks⟩ := ih hrest hone hothers
      refine ⟨.cons hreports hreported, ?_⟩
      rw [unfailed_cons]
      split_ifs at hmarks ⊢
      · exact hmarks
      · rwa [List.append_assoc] at hmarks

/-! ## The run -/

/-- The exact effect of a run on the document, on the files and on the rest. There is a new issue for
each of the tasks, in their order and with the tokens in theirs; the pairs that count for the files are
those whose patches did not fail. -/
structure Effect (settings : Settings) (b : Backups) (document : Path) (files : List Path)
    (tasks : List Task) (w w' : Workspace) (pairs written : List (Task × Issue)) : Prop where
  from_tasks : pairs.map Prod.fst = tasks
  made : MadeInTurn settings w.clock w pairs
  nothing : pairs = [] → w'.tree = w.tree
  appended : pairs ≠ [] → w'.content document = .ok (bytesAt document w ++
    ((if bytesAt document w ≠ [] ∧ (bytesAt document w).getLast? ≠ some 10 ∧
        (bytesAt document w).getLast? ≠ some 13 then [10] else []) ++
      bytesOf ((pairs.map Prod.snd).flatMap Issue.render)))
  sublist : List.Sublist written pairs
  marked : ∀ p ∈ files, ∀ bytes, w.content p = .ok bytes → ∃ bytes', w'.content p = .ok bytes' ∧
    MarksFirst p (decode bytes) written (Text.lines (decode bytes'))
  frame : Frame (Reaches b document files w.cwd) w w'

/-- A task is found behind an append as it was before, in the document as well. -/
theorem mem_tasksAt_of_append {issues : List Issue} {n : Nat} (hne : issues ≠ [])
    (hrun : (append document issues).runOn w = (.ok n, v)) (h : task ∈ w.tasksAt task.path) :
    task ∈ v.tasksAt task.path := by
  obtain ⟨bytes, hcontent, htask⟩ := exists_content_of_mem_tasksAt h
  rcases content_behind_append hne hrun hcontent with ⟨-, hkept⟩ | ⟨-, hgrown⟩
  · rw [Workspace.tasksAt, hkept]
    exact htask
  · obtain ⟨hread, hhead⟩ := Issue.decode_append_render hne bytes
    obtain ⟨k, body, hk, hline, -⟩ := mem_tasksOf_iff.mp htask
    have hlt : k < (Text.bodies (decode bytes)).length := by
      rw [← length_withoutBom]
      exact (List.getElem?_eq_some_iff.mp hk).1
    have hstar : Rune.ofChar '*' ≠ Rune.ofChar '\n' := by decide
    rw [Workspace.tasksAt, hgrown]
    refine (mem_tasksOf_congr ?_ hline).mpr htask
    rw [hread, Text.bodies_append (by rw [hhead]; simpa using hstar), List.getElem?_append_left hlt]

/-- The issues of tasks are appended, and then the tasks are marked one after the other. -/
theorem marks_of_collect {issues : List Issue} {patches : List Patch} (hne : tasks ≠ [])
    (hfiles : Separate b w.cwd paths)
    (htasks : ∀ task ∈ tasks, task.path ∈ paths ∧ task ∈ w.tasksAt task.path)
    (hrun : (collect settings b document tasks).runOn w = (.ok (issues, patches), w')) :
    ∃ (pairs : List (Task × Issue)) (v u : Workspace) (n : Nat),
      (pairs.map Prod.fst = tasks ∧ pairs.map Prod.snd = issues) ∧
      (v.tree = w.tree ∧ v.cwd = w.cwd ∧ v.events = w.events) ∧
      MadeInTurn settings w.clock w pairs ∧ (append document issues).runOn v = (.ok n, u) ∧
      (∀ e ∈ pairs, e.1.path ∈ paths ∧ e.1 ∈ u.tasksAt e.1.path ∧ ∀ c ∈ e.2.id, c.IsSlug) ∧
      Reported [] pairs patches ∧ Marks b paths (unfailed pairs patches) u w' := by
  obtain ⟨pairs, v, u, n, hfst, rfl, ⟨htree, hcwd, hevents⟩, hmade, happend, hmark⟩ :=
    collect_eq_ok hrun
  have hsome := issues_ne_nil hfst hne
  have hpairs : ∀ e ∈ pairs, e.1.path ∈ paths ∧ e.1 ∈ u.tasksAt e.1.path ∧
      ∀ c ∈ e.2.id, c.IsSlug := by
    intro e he
    obtain ⟨hpath, hfound⟩ := htasks _ (hfst ▸ List.mem_map_of_mem he)
    refine ⟨hpath, mem_tasksAt_of_append hsome happend ?_, hmade.isSlug_id he⟩
    simpa only [Workspace.tasksAt, Workspace.content, Workspace.locate, htree, hcwd] using hfound
  have hsame : u.cwd = w.cwd := (frame_of_append ⟨htree, hcwd, hevents⟩ happend).cwd
  obtain ⟨hreported, hmarks⟩ := marks_mapM (hsame.symm ▸ hfiles) hpairs (.refl u) hmark
  exact ⟨pairs, v, u, n, ⟨hfst, rfl⟩, ⟨htree, hcwd, hevents⟩, hmade, happend, hpairs,
    hreported, hmarks⟩

theorem effect_of_collect {issues : List Issue} {patches : List Patch} (hne : tasks ≠ [])
    (hfiles : Separate b w.cwd paths)
    (hdocument : ∀ p ∈ paths, p.resolve w.cwd ≠ document.resolve w.cwd)
    (hkept : ∀ q ∈ paths, ¬b.Holds q.name w.cwd (document.resolve w.cwd))
    (htasks : ∀ task ∈ tasks, task.path ∈ paths ∧ task ∈ w.tasksAt task.path)
    (hrun : (collect settings b document tasks).runOn w = (.ok (issues, patches), w')) :
    ∃ pairs written, pairs.map Prod.snd = issues ∧
      ((∀ patch ∈ patches, patch.isFailure = false) → written = pairs) ∧
      Effect settings b document paths tasks w w' pairs written := by
  obtain ⟨pairs, v, u, n, ⟨hfst, rfl⟩, ⟨htree, hcwd, hevents⟩, hmade, happend, -, hreported,
    hmarks⟩ := marks_of_collect hne hfiles htasks hrun
  have hsome : pairs ≠ [] := by
    rintro rfl
    exact hne hfst.symm
  have hframe := frame_of_append ⟨htree, hcwd, hevents⟩ happend
  have hmarked := hmarks.frame
  rw [hframe.cwd] at hmarked
  refine ⟨pairs, unfailed pairs patches, rfl, hreported.unfailed_eq, hfst, hmade,
    fun hnil => absurd hnil hsome, fun _ => ?_, hreported.unfailed_sublist,
    fun p hp bytes hbytes => ?_, (hframe.mono fun _ => Or.inl).trans (hmarked.mono fun _ => Or.inr)⟩
  · have hbytesAt : bytesAt document v = bytesAt document w := by
      rw [bytesAt, bytesAt, htree, hcwd]
    obtain ⟨-, bytes, hencode, hcontent⟩ := content_of_append (by simpa using hsome) happend
    rw [hbytesAt] at hencode hcontent
    obtain ⟨-, rfl⟩ := encode_eq_ok_iff.mp hencode
    rw [bytesOf_gap_append] at hcontent
    exact content_document_of_touches hframe.cwd hmarks.frame hdocument hkept hcontent
  · exact hmarks.files p hp bytes (hframe.content hbytes (hdocument p hp))

theorem Effect.of_onlyEvents (h : Effect settings b document paths tasks v u pairs written)
    (hv : OnlyEvents w v) (hu : OnlyEvents u w') :
    Effect settings b document paths tasks w w' pairs written := by
  obtain ⟨added, rfl⟩ := hv
  refine ⟨h.from_tasks, h.made, fun hnil => hu.tree.trans (h.nothing hnil), fun hsome => ?_,
    h.sublist, fun p hp bytes hbytes => ?_, ?_⟩
  · rw [hu.content]
    exact h.appended hsome
  · rw [hu.content]
    exact h.marked p hp bytes hbytes
  · exact (OnlyEvents.frame ⟨added, rfl⟩).trans (h.frame.trans hu.frame)

/-- A run that returns has such an effect. Where no patch failed all pairs count. -/
theorem effect_of_run (hready : IsReady settings directory b place w) (hw : w.tree.WellFormed)
    (hclear : Clear b document w.cwd (w.tree.wanted directory place settings.selection)
      (w.tree.wanted directory place settings.selection))
    (hkept : ∀ q ∈ w.tree.wanted directory place settings.selection,
      ¬b.Holds q.name w.cwd (document.resolve w.cwd))
    (hrun : (run settings directory document false none).runOn w = (.ok g, w')) :
    ∃ is pairs written, Lists document w is ∧ pairs.map Prod.snd = g.newIssues ∧
      (g.failures = [] → written = pairs) ∧
      Effect settings b document (w.tree.wanted directory place settings.selection)
        (unknown w.cwd (tasksIn w directory place settings.selection) is) w w' pairs written := by
  obtain ⟨is, v, hlists, -, hv, ⟨hnone, hv', hissues, -⟩ | ⟨hsome, u, hcollect, hu⟩⟩ :=
    run_eq_ok hready hrun
  · have hquiet := hv.trans hv'
    refine ⟨is, [], [], hlists, hissues.symm, fun _ => rfl, hnone.symm, .nil _ _ _,
      fun _ => hquiet.tree, fun h => absurd rfl h, .slnil, fun p hp bytes hbytes => ?_, hquiet.frame⟩
    exact ⟨bytes, by rw [hquiet.content, hbytes], .nil p _⟩
  · have hfiles := hready.separate hw fun p hp => (hclear p hp).2
    have hdocument := fun p hp => (hclear p hp).1
    obtain ⟨added, rfl⟩ := hv
    obtain ⟨pairs, written, hpairs, hall, heffect⟩ :=
      effect_of_collect (w := { w with events := w.events ++ added }) hsome hfiles hdocument hkept
        (fun _ => of_mem_unknown (w := w)) hcollect
    refine ⟨is, pairs, written, hlists, hpairs, fun hok => hall fun patch hpatch => ?_,
      heffect.of_onlyEvents ⟨added, rfl⟩ hu⟩
    simpa using List.filter_eq_nil_iff.mp hok patch hpatch

/-- A run without failed patches has its exact effect: behind the bytes of the document stand the
entries of the tasks that no issue points at, on every line with such a task the first of them is
marked, and nothing else has happened to a file but backups. -/
theorem run_marks_first_of_each_line (hw : w.tree.WellFormed) (hb : settings.backups w.cwd = .ok b)
    (hplace : w.locate directory = .ok place)
    (hrun : (run settings directory document false none).runOn w = (.ok g, w'))
    (hok : g.failures = [])
    (hclear : Clear b document w.cwd (w.tree.wanted directory place settings.selection)
      (w.tree.wanted directory place settings.selection))
    (hkept : ∀ q ∈ w.tree.wanted directory place settings.selection,
      ¬b.Holds q.name w.cwd (document.resolve w.cwd)) :
    ∃ is pairs, Lists document w is ∧ pairs.map Prod.snd = g.newIssues ∧
      Effect settings b document (w.tree.wanted directory place settings.selection)
        (unknown w.cwd (tasksIn w directory place settings.selection) is) w w' pairs pairs := by
  obtain ⟨b', place', hready⟩ := isReady_of_run hrun
  obtain rfl := Except.ok.inj (hb.symm.trans hready.backups)
  obtain rfl := Except.ok.inj (hplace.symm.trans hready.located)
  obtain ⟨is, pairs, written, hlists, hpairs, hall, heffect⟩ :=
    effect_of_run hready hw hclear hkept hrun
  obtain rfl := hall hok
  exact ⟨is, written, hlists, hpairs, heffect⟩

/-- Two tasks on a line behind a byte order mark, of which the second is found first, and a third one;
the document has no line end. -/
def twoOnLine : Workspace :=
  .ofFiles ["w"] [("a.c", Rune.bom :: "/* TODO: b */ // FIXME:c\n// BUG: d"), ("orgi.org", "n")]

theorem twoOnLine_spec : twoOnLine.tree.WellFormed ∧
    twoOnLine.locate ⟨.relative, []⟩ = .ok ["w"] ∧
    twoOnLine.tree.wanted ⟨.relative, []⟩ ["w"] Settings.default.selection = [⟨.relative, ["a.c"]⟩] :=
  ⟨Tree.wellFormed_of_plain (by decide +kernel), by decide +kernel, by decide +kernel⟩

/-- A run makes three issues, and the ids of their markers are not there before. -/
theorem run_twoOnLine : ∃ g, ((run .default ⟨.relative, []⟩ ⟨.relative, ["orgi.org"]⟩ false
    none).runOn twoOnLine).1 = .ok g ∧ (g.failures = [] ∧ g.newIssues.length = 3) ∧
      ∀ i ∈ g.newIssues, ∀ p ∈ [Path.mk .relative ["a.c"]],
        ¬Marker.text i.id <:+: twoOnLine.textAt p := by
  decide +kernel

theorem run_marks_first_of_each_line_twoOnLine :
    ∃ b g w', twoOnLine.tree.WellFormed ∧ Settings.default.backups twoOnLine.cwd = .ok b ∧
      twoOnLine.locate ⟨.relative, []⟩ = .ok ["w"] ∧
      (run .default ⟨.relative, []⟩ ⟨.relative, ["orgi.org"]⟩ false none).runOn twoOnLine =
        (.ok g, w') ∧ (g.failures = [] ∧ g.newIssues.length = 3) ∧
      Clear b ⟨.relative, ["orgi.org"]⟩ ["w"] [⟨.relative, ["a.c"]⟩] [⟨.relative, ["a.c"]⟩] ∧
      (∀ q ∈ [Path.mk .relative ["a.c"]],
        ¬b.Holds q.name ["w"] (Path.resolve ["w"] ⟨.relative, ["orgi.org"]⟩)) ∧
      ∃ is pairs, Lists ⟨.relative, ["orgi.org"]⟩ twoOnLine is ∧
        pairs.map Prod.snd = g.newIssues ∧
        Effect .default b ⟨.relative, ["orgi.org"]⟩ [⟨.relative, ["a.c"]⟩]
          (unknown ["w"] (tasksIn twoOnLine ⟨.relative, []⟩ ["w"] Settings.default.selection) is)
          twoOnLine w' pairs pairs := by
  have hb : Settings.default.backups twoOnLine.cwd = .ok ⟨Backups.defaultDirectory, 10⟩ := rfl
  obtain ⟨hw, hplace, hfound⟩ := twoOnLine_spec
  have hclear : Clear ⟨Backups.defaultDirectory, 10⟩ ⟨.relative, ["orgi.org"]⟩ ["w"]
      [⟨.relative, ["a.c"]⟩] [⟨.relative, ["a.c"]⟩] :=
    clear_of_not_covers (by decide +kernel)
  have hkept : ∀ q ∈ [Path.mk .relative ["a.c"]], ¬Backups.Holds ⟨Backups.defaultDirectory, 10⟩
      q.name ["w"] (Path.resolve ["w"] ⟨.relative, ["orgi.org"]⟩) :=
    fun q _ hheld => absurd hheld.covers (by decide +kernel)
  obtain ⟨g, hg, hok, -⟩ := run_twoOnLine
  rcases hrun : (run .default ⟨.relative, []⟩ ⟨.relative, ["orgi.org"]⟩ false none).runOn twoOnLine
    with ⟨r, w'⟩
  rw [hrun] at hg
  obtain rfl : r = .ok g := hg
  refine ⟨_, g, w', hw, hb, hplace, rfl, hok, hclear, hkept, ?_⟩
  rw [← hfound] at hclear hkept ⊢
  exact run_marks_first_of_each_line hw hb hplace hrun hok.1 hclear hkept

/-- An empty document that bears the name of a backup of a file with a task. -/
def documentAmongBackups : Workspace :=
  .ofFiles ["w"] [("a.py", "# TODO: b\n"), ("a.py.backup-0", [])]

/-- The new entry is pruned together with the document when the line is marked. -/
theorem run_prunes_document :
    (∃ g, ((run backupsBeside ⟨.relative, []⟩ ⟨.relative, ["a.py.backup-0"]⟩ false none).runOn
        documentAmongBackups).1 = .ok g ∧ g.failures = [] ∧ g.newIssues.length = 1) ∧
      documentAmongBackups.tree.wanted ⟨.relative, []⟩ ["w"] backupsBeside.selection =
        [⟨.relative, ["a.py"]⟩] ∧
      ((run backupsBeside ⟨.relative, []⟩ ⟨.relative, ["a.py.backup-0"]⟩ false none).runOn
        documentAmongBackups).2.tree.find? ["w", "a.py.backup-0"] = none := by
  decide +kernel

end Gather

end TodoLedger
