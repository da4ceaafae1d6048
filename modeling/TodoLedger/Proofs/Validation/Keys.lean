import Mathlib.Data.Finset.Dedup
import TodoLedger.Proofs.Validation
/-!
# Validation as an equality of sets

A task and an issue are matched by their file and line only. So validation compares two sets of such
keys, and what it finds tells in which of them a key is missing: once for each linked issue whose key no
task has, and once for each task whose key no linked issue has. How often a key occurs, and in which
order, makes no difference to the verdict.
-/

namespace TodoLedger

open Work Workspace Utf8 Document Gather

/-- The file and the line by which a task is matched. -/
def Task.key (cwd : Place) (t : Task) : Text × Int := (foldFile (t.file cwd), t.line)

/-- The file and the line by which a linked issue is matched. -/
def Issue.key (i : Issue) : Text × Int :=
  (foldFile (i.sourceFile?.getD []), ((i.sourceLine?.getD 0 : Nat) : Int))

section Keys

variable {cwd : Place} {t : Task} {i : Issue} {tasks tasks' : List Task} {linked linked' : List Issue}

/-- A linked issue points at the tasks that have its key. -/
theorem pointsAt_iff_key (hi : i.isLinked = true) :
    i.pointsAt (t.file cwd) t.line = true ↔ i.key = t.key cwd := by
  have hparts := hi
  rw [Issue.isLinked, Bool.and_eq_true] at hparts
  obtain ⟨n, hline⟩ := Option.isSome_iff_exists.mp hparts.2
  rw [Issue.pointsAt, hi, hline, Issue.key, Task.key, hline]
  simp only [Bool.true_and, Bool.and_eq_true, decide_eq_true_eq, Option.map_some, Option.some.injEq,
    Int.ofNat_eq_natCast, Option.getD_some, Prod.mk.injEq]

theorem isKnown_iff_key (h : ∀ i ∈ linked, i.isLinked = true) :
    t.isKnown cwd linked = true ↔ ∃ i ∈ linked, i.key = t.key cwd := by
  rw [isKnown_iff]
  constructor
  · rintro ⟨i, hi, hpoints⟩
    exact ⟨i, hi, (pointsAt_iff_key (h i hi)).mp hpoints⟩
  · rintro ⟨i, hi, hkey⟩
    exact ⟨i, hi, (pointsAt_iff_key (h i hi)).mpr hkey⟩

namespace Validation

/-- The keys at which tasks stand. -/
def taskKeys (cwd : Place) (tasks : List Task) : Finset (Text × Int) :=
  (tasks.map (Task.key cwd)).toFinset

/-- The keys at which linked issues point. -/
def issueKeys (linked : List Issue) : Finset (Text × Int) := (linked.map Issue.key).toFinset

@[simp] theorem mem_taskKeys {k : Text × Int} :
    k ∈ taskKeys cwd tasks ↔ ∃ t ∈ tasks, t.key cwd = k := by
  rw [taskKeys, List.mem_toFinset, List.mem_map]

@[simp] theorem mem_issueKeys {k : Text × Int} :
    k ∈ issueKeys linked ↔ ∃ i ∈ linked, i.key = k := by
  rw [issueKeys, List.mem_toFinset, List.mem_map]

theorem taskKeys_subset_iff {s : Finset (Text × Int)} :
    taskKeys cwd tasks ⊆ s ↔ ∀ t ∈ tasks, t.key cwd ∈ s := by
  simp only [Finset.subset_iff, mem_taskKeys, forall_exists_index, and_imp, forall_apply_eq_imp_iff₂]

theorem issueKeys_subset_iff {s : Finset (Text × Int)} :
    issueKeys linked ⊆ s ↔ ∀ i ∈ linked, i.key ∈ s := by
  simp only [Finset.subset_iff, mem_issueKeys, forall_exists_index, and_imp, forall_apply_eq_imp_iff₂]

/-- What is found about linked issues and tasks is decided by their keys. -/
theorem findings_eq_filter_keys (h : ∀ i ∈ linked, i.isLinked = true) :
    findings cwd tasks linked =
      (linked.filter fun i => i.key ∉ taskKeys cwd tasks).map Finding.taskMissing ++
        (tasks.filter fun t => t.key cwd ∉ issueKeys linked).map
          fun t => Finding.issueMissing t (t.file cwd) := by
  have hissues : linked.filter (fun i => !tasks.any fun t => t.isKnown cwd [i]) =
      linked.filter fun i => i.key ∉ taskKeys cwd tasks := by
    refine List.filter_congr fun i hi => ?_
    have hone : ∀ t : Task, t.isKnown cwd [i] = true ↔ t.key cwd = i.key := by
      intro t
      rw [isKnown_iff_key (by simpa using h i hi)]
      simp [eq_comm]
    rw [Bool.eq_iff_iff, Bool.not_eq_true', Bool.eq_false_iff, ne_eq, List.any_eq_true, decide_eq_true_eq,
      mem_taskKeys]
    simp only [hone]
  have htasks : tasks.filter (fun t => !t.isKnown cwd linked) =
      tasks.filter fun t => t.key cwd ∉ issueKeys linked := by
    refine List.filter_congr fun t _ => ?_
    rw [Bool.eq_iff_iff, Bool.not_eq_true', Bool.eq_false_iff, ne_eq, isKnown_iff_key h, decide_eq_true_eq,
      mem_issueKeys]
  rw [findings, hissues, htasks]

/-- Nothing is found just where both sides have the same keys. -/
theorem findings_eq_nil_iff (h : ∀ i ∈ linked, i.isLinked = true) :
    findings cwd tasks linked = [] ↔ taskKeys cwd tasks = issueKeys linked := by
  rw [findings_eq_filter_keys h, List.append_eq_nil_iff, List.map_eq_nil_iff, List.map_eq_nil_iff,
    List.filter_eq_nil_iff, List.filter_eq_nil_iff, Finset.Subset.antisymm_iff, taskKeys_subset_iff,
    issueKeys_subset_iff, and_comm]
  simp only [decide_eq_true_eq, not_not]

/-- Tasks and issues in another order give the same findings in another order. -/
theorem findings_perm (h : ∀ i ∈ linked, i.isLinked = true) (htasks : tasks'.Perm tasks)
    (hlinked : linked'.Perm linked) :
    (findings cwd tasks' linked').Perm (findings cwd tasks linked) := by
  have h' : ∀ i ∈ linked', i.isLinked = true := fun i hi => h i (hlinked.mem_iff.mp hi)
  have htaskKeys : taskKeys cwd tasks' = taskKeys cwd tasks :=
    List.toFinset_eq_of_perm _ _ (htasks.map _)
  have hissueKeys : issueKeys linked' = issueKeys linked :=
    List.toFinset_eq_of_perm _ _ (hlinked.map _)
  rw [findings_eq_filter_keys h, findings_eq_filter_keys h', htaskKeys, hissueKeys]
  exact ((hlinked.filter _).map _).append ((htasks.filter _).map _)

end Validation

end Keys

namespace Validation

variable {settings : Settings} {directory document : Path} {given : Option (List Task)}
  {w w' : Workspace} {tasks : List Task} {linked : List Issue} {found : List Finding}

/-! ## The run -/

/-- What a run compares: the tasks of the directory, unless others are given, and the linked issues of
the document. -/
structure Compares (settings : Settings) (directory document : Path) (given : Option (List Task))
    (w : Workspace) (tasks : List Task) (linked : List Issue) : Prop where
  tasks : ∃ place, w.locate directory = .ok place ∧
    tasks = given.getD (allTasksIn w directory place settings.selection)
  linked : ∃ bytes is, w.content document = .ok bytes ∧ readDocument (decode bytes) = .ok is ∧
    linked = is.filter Issue.isLinked

theorem Compares.isLinked (h : Compares settings directory document given w tasks linked) :
    ∀ i ∈ linked, i.isLinked = true := by
  obtain ⟨-, is, -, -, rfl⟩ := h.linked
  exact fun i hi => (List.mem_filter.mp hi).2

theorem Compares.unique {tasks' : List Task} {linked' : List Issue}
    (h : Compares settings directory document given w tasks linked)
    (h' : Compares settings directory document given w tasks' linked') :
    tasks' = tasks ∧ linked' = linked := by
  obtain ⟨place, hplace, rfl⟩ := h.tasks
  obtain ⟨place', hplace', rfl⟩ := h'.tasks
  obtain ⟨bytes, is, hcontent, hread, rfl⟩ := h.linked
  obtain ⟨bytes', is', hcontent', hread', rfl⟩ := h'.linked
  obtain rfl := Except.ok.inj (hplace.symm.trans hplace')
  obtain rfl := Except.ok.inj (hcontent.symm.trans hcontent')
  obtain rfl := Except.ok.inj (hread.symm.trans hread')
  exact ⟨rfl, rfl⟩

/-- A run that returns has compared the tasks with the linked issues. -/
theorem compares_of_run
    (hrun : (run settings directory document given).runOn w = (.ok found, w')) :
    ∃ tasks linked, Compares settings directory document given w tasks linked ∧
      found = findings w.cwd tasks linked := by
  rw [run] at hrun
  obtain ⟨b, w₁, hbackups, hcourse⟩ := runOn_bind_eq_ok_iff.mp hrun
  rw [runOn_ask] at hbackups
  obtain ⟨-, rfl⟩ := Prod.mk.inj hbackups
  obtain ⟨there, w₂, hthere, hchecked⟩ := runOn_bind_eq_ok_iff.mp hcourse
  cases there with
  | false => cases hchecked
  | true =>
      obtain ⟨rfl, place, hplace, hdirectory⟩ := exists_locate_of_isDirectory hthere
      simp only [Bool.not_true, Bool.false_eq_true, if_false] at hchecked
      obtain ⟨present, w₃, hpresent, hready⟩ := runOn_bind_eq_ok_iff.mp hchecked
      rw [runOn_isFile] at hpresent
      obtain ⟨-, rfl⟩ := Prod.mk.inj hpresent
      cases present with
      | false => cases hready
      | true =>
          simp only [Bool.not_true, Bool.false_eq_true, if_false] at hready
          obtain ⟨⟨n, tasks⟩, w₄, hscan, hscanned⟩ := runOn_bind_eq_ok_iff.mp hready
          obtain ⟨htasks, hquiet⟩ := scan_eq_ok hplace hdirectory hscan
          obtain ⟨is, w₅, hload, hend⟩ := runOn_bind_eq_ok_iff.mp hscanned
          obtain ⟨bytes, hcontent, hread, rfl⟩ := load_eq_ok hload
          rw [hquiet.content] at hcontent
          obtain ⟨hfound, -⟩ := Prod.mk.inj hend
          refine ⟨tasks, is.filter Issue.isLinked,
            ⟨⟨place, hplace, htasks⟩, bytes, is, hcontent, hread, rfl⟩, ?_⟩
          rw [← hquiet.cwd]
          exact (Except.ok.inj hfound).symm

/-- Validation passes just where tasks and linked issues have the same keys. It finds one thing about each
linked issue whose key no task has, in the order of the document, and then one about each task whose key
no linked issue has, in the order of the tasks. Another order of tasks and issues gives the same findings
in another order. -/
theorem run_compares_keys
    (hrun : (run settings directory document given).runOn w = (.ok found, w')) :
    ∃ tasks linked, Compares settings directory document given w tasks linked ∧
      (found = [] ↔ taskKeys w.cwd tasks = issueKeys linked) ∧
      found = (linked.filter fun i => i.key ∉ taskKeys w.cwd tasks).map Finding.taskMissing ++
        (tasks.filter fun t => t.key w.cwd ∉ issueKeys linked).map
          (fun t => Finding.issueMissing t (t.file w.cwd)) ∧
      ∀ settings' directory' document' given' v v' found' tasks' linked', v.cwd = w.cwd →
        (run settings' directory' document' given').runOn v = (.ok found', v') →
        Compares settings' directory' document' given' v tasks' linked' →
        tasks'.Perm tasks → linked'.Perm linked → found'.Perm found := by
  obtain ⟨tasks, linked, hcompares, rfl⟩ := compares_of_run hrun
  refine ⟨tasks, linked, hcompares, findings_eq_nil_iff hcompares.isLinked,
    findings_eq_filter_keys hcompares.isLinked, ?_⟩
  intro settings' directory' document' given' v v' found' tasks' linked' hcwd hrun' hcompares' htasks hlinked
  obtain ⟨tasks'', linked'', hcompares'', rfl⟩ := compares_of_run hrun'
  obtain ⟨rfl, rfl⟩ := hcompares'.unique hcompares''
  rw [hcwd]
  exact findings_perm hcompares.isLinked htasks hlinked

/-- A task on the second line of a file, and two issues that point at the first. -/
def drifted : Workspace :=
  .ofFiles ["w"] [("a.py", "x = 1\n# TODO: b\n"), ("orgi.org", firstLineEntry ++ "\n" ++ firstLineEntry)]

theorem run_compares_keys_drifted : ∃ found w',
    (run .default ⟨.relative, []⟩ ⟨.relative, ["orgi.org"]⟩ none).runOn drifted = (.ok found, w') ∧
      found.map Finding.isTaskMissing = [true, true, false] ∧
      ∃ tasks linked,
        Compares .default ⟨.relative, []⟩ ⟨.relative, ["orgi.org"]⟩ none drifted tasks linked ∧
        (found = [] ↔ taskKeys ["w"] tasks = issueKeys linked) ∧
        found = (linked.filter fun i => i.key ∉ taskKeys ["w"] tasks).map Finding.taskMissing ++
          (tasks.filter fun t => t.key ["w"] ∉ issueKeys linked).map
            (fun t => Finding.issueMissing t (t.file ["w"])) ∧
        ∀ settings' directory' document' given' v v' found' tasks' linked', v.cwd = drifted.cwd →
          (run settings' directory' document' given').runOn v = (.ok found', v') →
          Compares settings' directory' document' given' v tasks' linked' →
          tasks'.Perm tasks → linked'.Perm linked → found'.Perm found := by
  obtain ⟨found, hfound, hkinds⟩ : ∃ found,
      ((run .default ⟨.relative, []⟩ ⟨.relative, ["orgi.org"]⟩ none).runOn drifted).1 = .ok found ∧
        found.map Finding.isTaskMissing = [true, true, false] := by
    decide +kernel
  rcases hrun : (run .default ⟨.relative, []⟩ ⟨.relative, ["orgi.org"]⟩ none).runOn drifted with ⟨r, w'⟩
  rw [hrun] at hfound
  obtain rfl : r = .ok found := hfound
  exact ⟨found, w', rfl, hkinds, run_compares_keys hrun⟩

end Validation

end TodoLedger
