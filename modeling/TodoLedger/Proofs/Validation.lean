import TodoLedger.Proofs.Gather.Coverage
import TodoLedger.Proofs.Gather.Fresh
import TodoLedger.Validation
/-!
# Validation behind a gather run

What validation finds depends on the places of the tasks and on the issues that are linked. A gather
run leaves the places and adds an issue for each unmarked task that had none, so that validation finds
nothing that it had not found before, and nothing about a task that was unmarked.
-/

namespace TodoLedger

open Work Workspace Utf8 Document Gather

/-! ## Findings -/

namespace Finding

/-- The file that a finding is about. -/
def file : Finding → Text
  | taskMissing i => i.sourceFile?.getD []
  | issueMissing _ file => file

/-- The line that a finding is about. -/
def line : Finding → Int
  | taskMissing i => i.sourceLine?.getD 0
  | issueMissing t _ => t.line

/-- What tells a finding from others. -/
def subject (f : Finding) : Text × Text × Int := (f.kind, f.file, f.line)

end Finding

/-- Tasks stand on the same lines of the same files. -/
def SamePlaces (tasks tasks' : List Task) : Prop :=
  ∀ p n, (∃ t ∈ tasks, t.path = p ∧ t.line = n) ↔ ∃ t ∈ tasks', t.path = p ∧ t.line = n

section Findings

variable {cwd : Place} {t t' : Task} {tasks tasks' : List Task} {linked is js : List Issue} {i : Issue}

theorem isKnown_congr (hfile : t.file cwd = t'.file cwd) (hline : t.line = t'.line)
    (is : List Issue) : t.isKnown cwd is = t'.isKnown cwd is := by
  rw [Task.isKnown, Task.isKnown, Task.issueIn?, Task.issueIn?, hfile, hline]

theorem SamePlaces.exists_task (h : SamePlaces tasks tasks') (cwd : Place) (ht : t ∈ tasks') :
    ∃ t' ∈ tasks, t'.file cwd = t.file cwd ∧ t'.line = t.line := by
  obtain ⟨t', ht', hpath, hline⟩ := (h _ _).mpr ⟨t, ht, rfl, rfl⟩
  exact ⟨t', ht', by rw [Task.file, Task.file, hpath], hline⟩

theorem SamePlaces.symm (h : SamePlaces tasks tasks') : SamePlaces tasks' tasks :=
  fun p n => (h p n).symm

namespace Validation

theorem taskMissing_mem_findings : Finding.taskMissing i ∈ findings cwd tasks linked ↔
    i ∈ linked ∧ ∀ t ∈ tasks, t.isKnown cwd [i] = false := by
  simp [findings]

theorem issueMissing_mem_findings {file : Text} :
    Finding.issueMissing t file ∈ findings cwd tasks linked ↔
      (t ∈ tasks ∧ t.isKnown cwd linked = false) ∧ t.file cwd = file := by
  simp [findings]

/-- Where the tasks stand at the same places and each new issue belongs to one of them, nothing new is
found. -/
theorem subjects_subset (hplaces : SamePlaces tasks tasks')
    (hnew : ∀ j ∈ js, ∃ t ∈ tasks, t.isKnown cwd [j] = true) :
    (findings cwd tasks' (linked ++ js)).map Finding.subject ⊆
      (findings cwd tasks linked).map Finding.subject := by
  intro subject hsubject
  obtain ⟨f, hf, rfl⟩ := List.mem_map.mp hsubject
  cases f with
  | taskMissing i =>
      obtain ⟨hi, hnone⟩ := taskMissing_mem_findings.mp hf
      have hnone' : ∀ t ∈ tasks, t.isKnown cwd [i] = false := by
        intro t ht
        obtain ⟨t', ht', hfile, hline⟩ := hplaces.symm.exists_task cwd ht
        rw [← isKnown_congr hfile hline]
        exact hnone t' ht'
      refine List.mem_map_of_mem (taskMissing_mem_findings.mpr ⟨?_, hnone'⟩)
      rcases List.mem_append.mp hi with hi | hi
      · exact hi
      · obtain ⟨t, ht, hknown⟩ := hnew i hi
        rw [hnone' t ht] at hknown
        cases hknown
  | issueMissing t file =>
      obtain ⟨⟨ht, hunknown⟩, rfl⟩ := issueMissing_mem_findings.mp hf
      obtain ⟨t', ht', hfile, hline⟩ := hplaces.exists_task cwd ht
      have hunknown' : t'.isKnown cwd linked = false := by
        rw [isKnown_congr hfile hline, Bool.eq_false_iff]
        intro hknown
        rw [isKnown_append hknown js] at hunknown
        cases hunknown
      have hfound : Finding.issueMissing t' (t'.file cwd) ∈ findings cwd tasks linked :=
        issueMissing_mem_findings.mpr ⟨⟨ht', hunknown'⟩, rfl⟩
      have hsame : (Finding.issueMissing t' (t'.file cwd)).subject =
          (Finding.issueMissing t (t.file cwd)).subject := by
        simp only [Finding.subject, Finding.kind, Finding.file, Finding.line, hfile, hline]
      rw [← hsame]
      exact List.mem_map_of_mem hfound

/-- Of a place that an issue points at it is not found that an issue is missing. -/
theorem issueMissing_subject_not_mem (hknown : t.isKnown cwd linked = true) :
    (Finding.issueMissing t (t.file cwd)).subject ∉ (findings cwd tasks linked).map Finding.subject := by
  intro hsubject
  obtain ⟨f, hf, hsame⟩ := List.mem_map.mp hsubject
  cases f with
  | taskMissing i =>
      have hkind : ("source_todo_missing" : Text) = "orgi_issue_missing" := congrArg Prod.fst hsame
      exact absurd hkind (by decide)
  | issueMissing t' file =>
      obtain ⟨⟨-, hunknown⟩, rfl⟩ := issueMissing_mem_findings.mp hf
      have hfile : t'.file cwd = t.file cwd := congrArg (fun s => s.2.1) hsame
      have hline : t'.line = t.line := congrArg (fun s => s.2.2) hsame
      rw [isKnown_congr hfile hline, hknown] at hunknown
      cases hunknown

/-- Where no issue was linked, and of no task it is found that an issue is missing, nothing is found. -/
theorem eq_nil_of_subset {found : List Finding}
    (hsubset : found.map Finding.subject ⊆ (findings cwd tasks []).map Finding.subject)
    (hnone : ∀ t ∈ tasks, (Finding.issueMissing t (t.file cwd)).subject ∉ found.map Finding.subject) :
    found = [] := by
  refine List.eq_nil_iff_forall_not_mem.mpr fun f hf => ?_
  have hsubject : f.subject ∈ found.map Finding.subject := List.mem_map_of_mem hf
  obtain ⟨f', hf', hsame⟩ := List.mem_map.mp (hsubset hsubject)
  cases f' with
  | taskMissing i => exact absurd (taskMissing_mem_findings.mp hf').1 List.not_mem_nil
  | issueMissing t file =>
      obtain ⟨⟨ht, -⟩, rfl⟩ := issueMissing_mem_findings.mp hf'
      exact hnone t ht (hsame ▸ hsubject)

end Validation

/-! ## Tasks that are linked -/

theorem isKnown_filter_isLinked :
    t.isKnown cwd (is.filter Issue.isLinked) = t.isKnown cwd is := by
  have hlinked : ∀ i : Issue, i.pointsAt (t.file cwd) t.line = true → i.isLinked = true := by
    intro i hpoints
    rw [Issue.pointsAt, Bool.and_eq_true, Bool.and_eq_true] at hpoints
    exact hpoints.1.1
  rw [Bool.eq_iff_iff, isKnown_iff, isKnown_iff]
  constructor
  · rintro ⟨i, hi, hpoints⟩
    exact ⟨i, (List.mem_filter.mp hi).1, hpoints⟩
  · rintro ⟨i, hi, hpoints⟩
    exact ⟨i, List.mem_filter.mpr ⟨hi, hlinked i hpoints⟩, hpoints⟩

/-- With an issue for each task that was unknown all tasks are known. -/
theorem isKnown_of_links (hlinks : List.Forall₂ (Links cwd) (unknown cwd tasks is) js) (ht : t ∈ tasks) :
    t.isKnown cwd (is.filter Issue.isLinked ++ js) = true := by
  by_cases hknown : t.isKnown cwd is = true
  · rw [← isKnown_filter_isLinked] at hknown
    exact isKnown_append hknown js
  · have hunknown : t ∈ unknown cwd tasks is := List.mem_filter.mpr ⟨ht, by simpa using hknown⟩
    obtain ⟨j, hj, hlink⟩ := exists_of_mem_right hlinks.flip t hunknown
    exact isKnown_iff.mpr ⟨j, List.mem_append_right _ hj, hlink.pointsAt⟩

end Findings

namespace Validation

variable {settings : Settings} {b : Backups} {directory document : Path} {place : Place}
  {is known : List Issue} {w w' : Workspace} {g : Gathered} {task : Task} {bytes : Bytes}
  {pairs written : List (Task × Issue)}

/-! ## The run -/

/-- The tasks of the wanted files of a directory, marked ones included. -/
def allTasksIn (w : Workspace) (directory : Path) (place : Place) (s : Selection) : List Task :=
  (w.tree.wanted directory place s).flatMap (w.tasksFor true)

theorem mem_allTasksIn_iff {s : Selection} : task ∈ allTasksIn w directory place s ↔
    task.path ∈ w.tree.wanted directory place s ∧
      ∃ bytes, w.content task.path = .ok bytes ∧ task ∈ tasksOf task.path true (decode bytes) := by
  rw [allTasksIn, List.mem_flatMap]
  constructor
  · rintro ⟨p, hp, htask⟩
    obtain ⟨bytes, hcontent, hmem⟩ := exists_content_of_mem_tasksFor htask
    obtain rfl := (isFound_of_mem_tasksOf hmem).path
    exact ⟨hp, bytes, hcontent, hmem⟩
  · rintro ⟨hp, bytes, hcontent, hmem⟩
    refine ⟨_, hp, ?_⟩
    rw [Workspace.tasksFor, hcontent]
    exact hmem

/-- The unmarked tasks are those without an id. -/
theorem mem_tasksIn_iff_unmarked {s : Selection} : task ∈ tasksIn w directory place s ↔
    task ∈ allTasksIn w directory place s ∧ task.issueId = none := by
  rw [mem_tasksIn_iff, mem_allTasksIn_iff, and_assoc]
  refine and_congr_right fun _ => ?_
  constructor
  · intro hat
    obtain ⟨bytes, hcontent, hmem⟩ := exists_content_of_mem_tasksAt hat
    obtain ⟨htask, hunmarked⟩ := mem_tasksOf_false_iff.mp hmem
    exact ⟨⟨bytes, hcontent, htask⟩, hunmarked⟩
  · rintro ⟨⟨bytes, hcontent, htask⟩, hunmarked⟩
    rw [Workspace.tasksAt, hcontent]
    exact mem_tasksOf_false_iff.mpr ⟨htask, hunmarked⟩

/-- Validation compares all tasks of the directory with the issues that are linked. -/
theorem runOn_run (h : IsReady settings directory b place w) (hcontent : w.content document = .ok bytes)
    (hread : readDocument (decode bytes) = .ok is) :
    ∃ v, (run settings directory document none).runOn w =
      (.ok (findings w.cwd (allTasksIn w directory place settings.selection)
        (is.filter Issue.isLinked)), v) ∧ OnlyEvents w v := by
  have hbackups : (ask fun w => settings.backups w.cwd : Work Backups).runOn w = (.ok b, w) := by
    rw [runOn_ask, h.backups]
  have hthere := runOn_isDirectory_of_locate h.located h.isDirectory
  have hfile : (isFile document).runOn w = (.ok true, w) := by
    rw [runOn_isFile, node?_eq_file_iff.mpr hcontent]
    rfl
  obtain ⟨v, hscan, hv⟩ := @runOn_scan w directory place settings true h.located h.isDirectory
  obtain ⟨u, hload, hu⟩ : ∃ u, (load document).runOn v = (.ok is, u) ∧ OnlyEvents v u := by
    rw [← hv.content document] at hcontent
    exact ⟨_, by rw [runOn_load hcontent, hread], .report _ v⟩
  have hcwd : (cwd : Work Place).runOn u = (.ok w.cwd, u) := by
    rw [runOn_cwd, (hv.trans hu).cwd]
  rw [run, runOn_bind_of_ok hbackups, runOn_bind_of_ok hthere]
  simp only [Bool.not_true, Bool.false_eq_true, if_false]
  rw [runOn_bind_of_ok hfile]
  simp only [Bool.not_true, Bool.false_eq_true, if_false]
  rw [runOn_bind_of_ok hscan]
  simp only
  rw [runOn_bind_of_ok hload, runOn_bind_of_ok hcwd, runOn_bind_of_ok (runOn_report _)]
  exact ⟨_, rfl, (hv.trans hu).trans (.report _ u)⟩

/-! ## Behind a gather run -/

/-- What was marked in a file are tasks that were found in it, with ids that can stand in a marker. -/
private theorem of_mem_written {p : Path} {start : Bytes}
    (heffect : Effect settings b document (w.tree.wanted directory place settings.selection)
      (unknown w.cwd (tasksIn w directory place settings.selection) known) w w' pairs written)
    (hstart : w.content p = .ok start) : ∀ e ∈ written,
      (e.1.path = p → e.1 ∈ tasksOf p false (decode start)) ∧ ∀ c ∈ e.2.id, c.IsSlug := by
  intro e he
  have hpair := heffect.sublist.subset he
  refine ⟨?_, heffect.made.isSlug_id hpair⟩
  rintro rfl
  have htask := (List.mem_filter.mp (heffect.from_tasks ▸ List.mem_map_of_mem hpair)).1
  obtain ⟨bytes, hcontent, hmem⟩ := exists_content_of_mem_tasksAt (mem_tasksIn_iff.mp htask).2
  obtain rfl := Except.ok.inj (hstart.symm.trans hcontent)
  exact hmem

/-- A gather run leaves the places at which tasks stand, whether their lines are marked or not. -/
theorem samePlaces_of_effect (hready : IsReady settings directory b place w) (hw : w.tree.WellFormed)
    (heffect : Effect settings b document (w.tree.wanted directory place settings.selection)
      (unknown w.cwd (tasksIn w directory place settings.selection) known) w w' pairs written)
    (hclear : Clear b document w.cwd (w.tree.wanted directory place settings.selection)
      (w'.tree.wanted directory place settings.selection)) :
    SamePlaces (allTasksIn w directory place settings.selection)
      (allTasksIn w' directory place settings.selection) := by
  intro p n
  constructor
  · rintro ⟨r, hr, rfl, rfl⟩
    obtain ⟨hpath, start, hstart, hmem⟩ := mem_allTasksIn_iff.mp hr
    obtain ⟨bytes, hcontent, hmarks⟩ := heffect.marked _ hpath start hstart
    obtain ⟨k, -, -, hline, -⟩ := mem_tasksOf_iff.mp hmem
    obtain ⟨r', hr', hline'⟩ :=
      (hmarks.exists_task_iff (of_mem_written heffect hstart) k).mpr ⟨r, hmem, hline⟩
    have hpath' := (isFound_of_mem_tasksOf hr').path
    refine ⟨r', mem_allTasksIn_iff.mpr ?_, hpath', hline'.trans hline.symm⟩
    rw [hpath']
    exact ⟨hready.mem_wanted_of_content hw hpath hstart heffect.frame.cwd hcontent, bytes, hcontent, hr'⟩
  · rintro ⟨r, hr, rfl, rfl⟩
    obtain ⟨hpath', bytes, hcontent, hmem⟩ := mem_allTasksIn_iff.mp hr
    obtain ⟨hpath, start, hstart⟩ :=
      exists_content_of_wanted hready hw heffect.frame hclear hpath' hcontent
    obtain ⟨bytes', hcontent', hmarks⟩ := heffect.marked _ hpath start hstart
    obtain rfl := Except.ok.inj (hcontent'.symm.trans hcontent)
    obtain ⟨k, -, -, hline, -⟩ := mem_tasksOf_iff.mp hmem
    obtain ⟨r', hr', hline'⟩ :=
      (hmarks.exists_task_iff (of_mem_written heffect hstart) k).mp ⟨r, hmem, hline⟩
    have hpath'' := (isFound_of_mem_tasksOf hr').path
    refine ⟨r', mem_allTasksIn_iff.mpr ?_, hpath'', hline'.trans hline.symm⟩
    rw [hpath'']
    exact ⟨hpath, start, hstart, hr'⟩

/-- Behind a gather run a document that could be read is read to its issues and to one that is linked to
each task that was unknown. -/
theorem exists_links_of_run (hready : IsReady settings directory b place w) (hw : w.tree.WellFormed)
    (hyear : 1000 ≤ w.clock.year)
    (hsize : ∀ p ∈ w.tree.wanted directory place settings.selection, ∀ bytes,
      w.content p = .ok bytes → (decode bytes).length < 10 ^ Text.maxDigits)
    (hplaced : ∀ p ∈ w.tree.wanted directory place settings.selection,
      Text.BreakFree (p.relativeTo w.cwd) ∧ Text.IsTrimmed (p.relativeTo w.cwd))
    (hdocument : ∀ p ∈ w.tree.wanted directory place settings.selection,
      p.resolve w.cwd ≠ document.resolve w.cwd)
    (hkept : ∀ q ∈ w.tree.wanted directory place settings.selection,
      ¬b.Holds q.name w.cwd (document.resolve w.cwd))
    (hcontent : w.content document = .ok bytes) (hread : readDocument (decode bytes) = .ok is)
    (hrun : (Gather.run settings directory document false none).runOn w = (.ok g, w')) :
    ∃ bytes' js, w'.content document = .ok bytes' ∧ readDocument (decode bytes') = .ok (is ++ js) ∧
      List.Forall₂ (Links w.cwd)
        (unknown w.cwd (tasksIn w directory place settings.selection) is) js := by
  have hreadAt : readDocument (decode (bytesAt document w)) = .ok is := by
    rw [bytesAt_of_content hcontent, hread]
  obtain ⟨known, js, hlists, hread', hall, hthere⟩ :=
    exists_read_of_run hready hw hyear hsize hdocument hkept hreadAt hrun
  obtain rfl := hlists.unique (.read hcontent hread)
  obtain ⟨bytes', hcontent'⟩ := hthere ⟨bytes, hcontent⟩
  rw [bytesAt_of_content hcontent'] at hread'
  refine ⟨bytes', js, hcontent', hread', forall₂_imp_of_mem hall fun task htask j hj => ?_⟩
  have hpath := (of_mem_unknown htask).1
  obtain ⟨token, i, htoken, hmade, hyields⟩ := hj.made
  obtain ⟨-, hlinked, hfile, hline⟩ := isLinked_of_yields hj.writable hmade Text.lineClass_fitsLine
    htoken hyear (hready.isPlaced hw hplaced hpath) hyields
  exact ⟨hlinked, hfile, hline⟩

/-- Behind a gather run validation finds nothing that it had not found before, and nothing about a task
that was unmarked. Where no issue was read and no task was marked it finds nothing at all. -/
theorem run_finds_nothing_new (hw : w.tree.WellFormed) (hyear : 1000 ≤ w.clock.year)
    (hb : settings.backups w.cwd = .ok b) (hplace : w.locate directory = .ok place)
    (hsize : ∀ p ∈ w.tree.wanted directory place settings.selection, ∀ bytes,
      w.content p = .ok bytes → (decode bytes).length < 10 ^ Text.maxDigits)
    (hplaced : ∀ p ∈ w.tree.wanted directory place settings.selection,
      Text.BreakFree (p.relativeTo w.cwd) ∧ Text.IsTrimmed (p.relativeTo w.cwd))
    (hcontent : w.content document = .ok bytes) (hread : readDocument (decode bytes) = .ok is)
    (hclear : Clear b document w.cwd (w.tree.wanted directory place settings.selection)
      (w.tree.wanted directory place settings.selection))
    (hclear' : Clear b document w.cwd (w.tree.wanted directory place settings.selection)
      (w'.tree.wanted directory place settings.selection))
    (hkept : ∀ q ∈ w.tree.wanted directory place settings.selection,
      ¬b.Holds q.name w.cwd (document.resolve w.cwd))
    (hrun : (Gather.run settings directory document false none).runOn w = (.ok g, w')) :
    ∃ before v after u, (run settings directory document none).runOn w = (.ok before, v) ∧
      (run settings directory document none).runOn w' = (.ok after, u) ∧
      after.map Finding.subject ⊆ before.map Finding.subject ∧
      (∀ task ∈ tasksIn w directory place settings.selection,
        (Finding.issueMissing task (task.file w.cwd)).subject ∉ after.map Finding.subject) ∧
      (is = [] → (∀ task ∈ allTasksIn w directory place settings.selection, task.issueId = none) →
        after = []) := by
  obtain ⟨b', place', hready⟩ := isReady_of_run hrun
  obtain rfl := Except.ok.inj (hb.symm.trans hready.backups)
  obtain rfl := Except.ok.inj (hplace.symm.trans hready.located)
  obtain ⟨known, pairs, written, hlists, -, -, heffect⟩ := effect_of_run hready hw hclear hkept hrun
  obtain rfl := hlists.unique (.read hcontent hread)
  obtain ⟨bytes', js, hcontent', hread', hlinks⟩ := exists_links_of_run hready hw hyear hsize hplaced
    (fun p hp => (hclear p hp).1) hkept hcontent hread hrun
  obtain ⟨v, hbefore, -⟩ := runOn_run hready hcontent hread
  obtain ⟨u, hafter, -⟩ := runOn_run (hready.frame heffect.frame) hcontent' hread'
  have hnew : ∀ j ∈ js, ∃ task ∈ tasksIn w directory place settings.selection, Links w.cwd task j := by
    intro j hj
    obtain ⟨task, htask, hlink⟩ := exists_of_mem_right hlinks j hj
    exact ⟨task, (List.mem_filter.mp htask).1, hlink⟩
  have hjs : js.filter Issue.isLinked = js := by
    refine List.filter_eq_self.mpr fun j hj => ?_
    obtain ⟨_, -, hlink⟩ := hnew j hj
    exact hlink.isLinked
  rw [List.filter_append, hjs, heffect.frame.cwd] at hafter
  have hsubset := @subjects_subset w.cwd _ _ (known.filter Issue.isLinked) js
    (samePlaces_of_effect hready hw heffect hclear') fun j hj => by
      obtain ⟨task, htask, hlink⟩ := hnew j hj
      exact ⟨task, (mem_tasksIn_iff_unmarked.mp htask).1, isKnown_iff.mpr ⟨j, by simp, hlink.pointsAt⟩⟩
  have hnone := fun task (htask : task ∈ tasksIn w directory place settings.selection) =>
    @issueMissing_subject_not_mem w.cwd task (allTasksIn w' directory place settings.selection)
      (known.filter Issue.isLinked ++ js) (isKnown_of_links hlinks htask)
  refine ⟨_, v, _, u, hbefore, hafter, hsubset, hnone, ?_⟩
  rintro rfl hunmarked
  exact eq_nil_of_subset hsubset fun task htask =>
    hnone task (mem_tasksIn_iff_unmarked.mpr ⟨htask, hunmarked task htask⟩)

theorem run_finds_nothing_new_halfKnown :
    ∃ b bytes is g w', (halfKnown "orgi.org").tree.WellFormed ∧
      1000 ≤ (halfKnown "orgi.org").clock.year ∧ Settings.default.backups ["w"] = .ok b ∧
      (halfKnown "orgi.org").locate ⟨.relative, []⟩ = .ok ["w"] ∧
      (∀ p ∈ [Path.mk .relative ["a.py"]], ∀ bytes, (halfKnown "orgi.org").content p = .ok bytes →
        (decode bytes).length < 10 ^ Text.maxDigits) ∧
      (∀ p ∈ [Path.mk .relative ["a.py"]],
        Text.BreakFree (p.relativeTo ["w"]) ∧ Text.IsTrimmed (p.relativeTo ["w"])) ∧
      (halfKnown "orgi.org").content ⟨.relative, ["orgi.org"]⟩ = .ok bytes ∧
      (readDocument (decode bytes) = .ok is ∧ is.length = 1) ∧
      Clear b ⟨.relative, ["orgi.org"]⟩ ["w"] [⟨.relative, ["a.py"]⟩] [⟨.relative, ["a.py"]⟩] ∧
      (∀ q ∈ [Path.mk .relative ["a.py"]],
        ¬b.Holds q.name ["w"] (Path.resolve ["w"] ⟨.relative, ["orgi.org"]⟩)) ∧
      (Gather.run .default ⟨.relative, []⟩ ⟨.relative, ["orgi.org"]⟩ false none).runOn
        (halfKnown "orgi.org") = (.ok g, w') ∧
      ∃ before v after u,
        (run .default ⟨.relative, []⟩ ⟨.relative, ["orgi.org"]⟩ none).runOn (halfKnown "orgi.org") =
          (.ok before, v) ∧
        (run .default ⟨.relative, []⟩ ⟨.relative, ["orgi.org"]⟩ none).runOn w' = (.ok after, u) ∧
        after.map Finding.subject ⊆ before.map Finding.subject ∧
        (∀ task ∈ tasksIn (halfKnown "orgi.org") ⟨.relative, []⟩ ["w"] Settings.default.selection,
          (Finding.issueMissing task (task.file ["w"])).subject ∉ after.map Finding.subject) ∧
        (is = [] → (∀ task ∈ allTasksIn (halfKnown "orgi.org") ⟨.relative, []⟩ ["w"]
          Settings.default.selection, task.issueId = none) → after = []) := by
  have hb : Settings.default.backups ["w"] = .ok ⟨Backups.defaultDirectory, 10⟩ := rfl
  obtain ⟨hw, hplace, hfound, hsize⟩ := halfKnown_spec
  obtain ⟨hclear, hkept⟩ := halfKnown_apart
  have hyear : 1000 ≤ (halfKnown "orgi.org").clock.year := by decide
  have hplaced : ∀ p ∈ [Path.mk .relative ["a.py"]],
      Text.BreakFree (p.relativeTo ["w"]) ∧ Text.IsTrimmed (p.relativeTo ["w"]) := by
    intro p hp
    obtain rfl := List.mem_singleton.mp hp
    refine ⟨?_, ?_, ?_⟩
    · show ∀ c ∈ Path.relativeTo ["w"] ⟨.relative, ["a.py"]⟩, c.isBreak = false
      decide +kernel
    · decide +kernel
    · decide +kernel
  obtain ⟨bytes, hcontent, hissues⟩ : ∃ bytes,
      (halfKnown "orgi.org").content ⟨.relative, ["orgi.org"]⟩ = .ok bytes ∧
        ∃ is, readDocument (decode bytes) = .ok is ∧ is.length = 1 := by
    decide +kernel
  obtain ⟨is, hread, hone⟩ := hissues
  obtain ⟨⟨g, hg, -⟩, hfound'⟩ := run_halfKnown
  rcases hrun : (Gather.run .default ⟨.relative, []⟩ ⟨.relative, ["orgi.org"]⟩ false none).runOn
    (halfKnown "orgi.org") with ⟨r, w'⟩
  rw [hrun] at hg hfound'
  obtain rfl : r = .ok g := hg
  refine ⟨_, bytes, is, g, w', hw, hyear, hb, hplace, hsize, hplaced, hcontent, ⟨hread, hone⟩,
    hclear, hkept, rfl, ?_⟩
  rw [← hfound] at hsize hplaced hkept
  exact run_finds_nothing_new hw hyear hb hplace hsize hplaced hcontent hread
    (by rwa [hfound]) (by rwa [hfound, hfound']) hkept hrun

/-- The document is pruned with the backups, and validation ends in a fault. -/
theorem run_misses_pruned_document :
    (∃ g, ((Gather.run backupsBeside ⟨.relative, []⟩ ⟨.relative, ["a.py.backup-0"]⟩ false
        none).runOn documentAmongBackups).1 = .ok g ∧ g.failures = []) ∧
      documentAmongBackups.content ⟨.relative, ["a.py.backup-0"]⟩ = .ok [] ∧
      (∃ before, ((run backupsBeside ⟨.relative, []⟩ ⟨.relative, ["a.py.backup-0"]⟩ none).runOn
        documentAmongBackups).1 = .ok before ∧ before.length = 1) ∧
      documentAmongBackups.tree.wanted ⟨.relative, []⟩ ["w"] backupsBeside.selection =
        [⟨.relative, ["a.py"]⟩] ∧
      ((Gather.run backupsBeside ⟨.relative, []⟩ ⟨.relative, ["a.py.backup-0"]⟩ false none).runOn
        documentAmongBackups).2.tree.wanted ⟨.relative, []⟩ ["w"] backupsBeside.selection =
          [⟨.relative, ["a.py"]⟩] ∧
      (allTasksIn documentAmongBackups ⟨.relative, []⟩ ["w"] backupsBeside.selection).map
        Task.issueId = [none] ∧
      ((run backupsBeside ⟨.relative, []⟩ ⟨.relative, ["a.py.backup-0"]⟩ none).runOn
        ((Gather.run backupsBeside ⟨.relative, []⟩ ⟨.relative, ["a.py.backup-0"]⟩ false none).runOn
          documentAmongBackups).2).1 =
        .error (.documentMissing ⟨.relative, ["a.py.backup-0"]⟩) := by
  decide +kernel

end Validation

end TodoLedger
