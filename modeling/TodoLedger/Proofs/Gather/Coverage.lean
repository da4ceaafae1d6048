import TodoLedger.Proofs.Gather.Effect
import TodoLedger.Proofs.Gather.Survival
/-!
# No task is passed over

Behind a run the document is read to the issues that it had and to one for each task that none of them
points at. So every unmarked task has an issue: one that was there and points at its line, or one that
tells its file, its line and its content. What was there counts whatever its content is.
-/

namespace TodoLedger

open Work Workspace Utf8 Document

/-- The issue tells the file, the line and the content of the task. -/
structure Records (cwd : Place) (task : Task) (j : Issue) : Prop where
  file : j.sourceFile? = some (Text.singleLine (task.file cwd))
  line : j.sourceLine?.map Int.ofNat = some task.line
  hash : ∃ hash, task.contentHash = .ok hash ∧ j.sourceHash? = some hash

namespace Gather

variable {settings : Settings} {b : Backups} {directory document : Path} {place : Place}
  {is known : List Issue} {w w' : Workspace} {g : Gathered} {task : Task} {j : Issue}

/-! ## The new issues -/

/-- The issue is read from what is written of the one that is made of the task. -/
structure IsReadFor (settings : Settings) (w : Workspace) (task : Task) (j : Issue) : Prop where
  writable : task.IsWritable Text.FitsLine w.cwd
  made : ∃ token i, (∀ c ∈ token, c.IsVisible) ∧
    Issue.ofTask w.cwd task token w.clock settings.titleLimit = .ok i ∧
    (i.entryLines i.state).Yields j

theorem IsReadFor.records (h : IsReadFor settings w task j) (hyear : 1000 ≤ w.clock.year) :
    Records w.cwd task j := by
  obtain ⟨token, i, htoken, hmade, hyields⟩ := h.made
  obtain ⟨-, hline, -, hash, hhash, hsource⟩ := source_ofTask h.writable hmade
  obtain ⟨hfile, hline', -, hhash'⟩ :=
    place_of_yields h.writable hmade Text.lineClass_fitsLine htoken hyear hyields
  refine ⟨hfile, ?_, hash, hhash, hhash'.trans hsource⟩
  rw [hline', Issue.sourceLine?, hline]
  exact positive?_ofInt h.writable.line

/-- Behind making issues of tasks the document is read to what it held and to an issue for each of the
tasks. -/
theorem exists_read_of_collect {tasks : List Task} {issues : List Issue} {patches : List Patch}
    (hready : IsReady settings directory b place w) (hw : w.tree.WellFormed)
    (hyear : 1000 ≤ w.clock.year)
    (hsize : ∀ p ∈ w.tree.wanted directory place settings.selection, ∀ bytes,
      w.content p = .ok bytes → (decode bytes).length < 10 ^ Text.maxDigits)
    (hdocument : ∀ p ∈ w.tree.wanted directory place settings.selection,
      p.resolve w.cwd ≠ document.resolve w.cwd)
    (hkept : ∀ q ∈ w.tree.wanted directory place settings.selection,
      ¬b.Holds q.name w.cwd (document.resolve w.cwd))
    (hread : readDocument (decode (bytesAt document w)) = .ok is) (hne : tasks ≠ [])
    (htasks : ∀ task ∈ tasks, task ∈ tasksIn w directory place settings.selection)
    (hrun : (collect settings b document tasks).runOn w = (.ok (issues, patches), w')) :
    ∃ bytes js, w'.content document = .ok bytes ∧ readDocument (decode bytes) = .ok (is ++ js) ∧
      List.Forall₂ (IsReadFor settings w) tasks js := by
  obtain ⟨pairs, v, u, n, rfl, rfl, ⟨htree, hcwd, -⟩, hmade, happend, hmark⟩ :=
    collect_eq_ok hrun
  have hfound : ∀ e ∈ pairs, e.1 ∈ tasksIn w directory place settings.selection :=
    fun e he => htasks _ (List.mem_map_of_mem he)
  have hwritable := hready.isWritable_made hw hyear hsize hfound fun e he => hmade.exists_visible he
  have hread' : readDocument (decode (bytesAt document v)) = .ok is := by
    rw [bytesAt, htree, hcwd]
    exact hread
  obtain ⟨bytes, js, hcontent, hreads, hyields⟩ :=
    exists_read_of_append hread' (by simpa using hne) (forall_issues hwritable) happend
  refine ⟨bytes, js, ?_, hreads, ?_⟩
  · -- Marking leaves the document as it was written.
    have hframe := @frame_append document (pairs.map Prod.snd) v (fun _ => True) trivial
    rw [happend] at hframe
    have hnamed : ∀ e ∈ pairs, e.1.path ∈ w.tree.wanted directory place settings.selection ∧
        e.1.path.IsNamed := by
      intro e he
      have hpath := (mem_tasksIn_iff.mp (hfound e he)).1
      obtain ⟨name, -, hname, hfile, -⟩ := hready.exists_name hw hpath
      exact ⟨hpath, hname ▸ Path.isNamed_child hfile.toIsName⟩
    have hmarks := @frame_mapM_mark b _ u pairs hnamed
    rw [hmark] at hmarks
    exact content_document_of_touches (hframe.cwd.trans hcwd) hmarks hdocument hkept hcontent
  · rw [List.forall₂_map_left_iff] at hyields ⊢
    refine forall₂_imp_of_mem hyields fun e he j hj => ?_
    obtain ⟨token, htoken, hissue⟩ := hmade.exists_visible he
    exact ⟨(hwritable e he).1, token, e.2, htoken, hissue, hj⟩

/-- Behind a run the document is read to what it held and to an issue for each task that was unknown. -/
theorem exists_read_of_run (hready : IsReady settings directory b place w) (hw : w.tree.WellFormed)
    (hyear : 1000 ≤ w.clock.year)
    (hsize : ∀ p ∈ w.tree.wanted directory place settings.selection, ∀ bytes,
      w.content p = .ok bytes → (decode bytes).length < 10 ^ Text.maxDigits)
    (hdocument : ∀ p ∈ w.tree.wanted directory place settings.selection,
      p.resolve w.cwd ≠ document.resolve w.cwd)
    (hkept : ∀ q ∈ w.tree.wanted directory place settings.selection,
      ¬b.Holds q.name w.cwd (document.resolve w.cwd))
    (hread : readDocument (decode (bytesAt document w)) = .ok is)
    (hrun : (run settings directory document false none).runOn w = (.ok g, w')) :
    ∃ known js, Lists document w known ∧
      readDocument (decode (bytesAt document w')) = .ok (is ++ js) ∧
      List.Forall₂ (IsReadFor settings w)
        (unknown w.cwd (tasksIn w directory place settings.selection) known) js ∧
      ((∃ bytes, w.content document = .ok bytes) → ∃ bytes, w'.content document = .ok bytes) := by
  obtain ⟨known, v, hlists, -, hv, ⟨hnone, hv', -⟩ | ⟨hsome, u, hcollect, hu⟩⟩ :=
    run_eq_ok hready hrun
  · have hquiet := hv.trans hv'
    refine ⟨known, [], hlists, ?_, by rw [hnone]; exact .nil, fun hthere => by rwa [hquiet.content]⟩
    rw [bytesAt, hquiet.tree, hquiet.cwd, List.append_nil]
    exact hread
  · obtain ⟨added, rfl⟩ := hv
    obtain ⟨bytes, js, hcontent, hreads, hall⟩ := exists_read_of_collect
      (hready.of_onlyEvents ⟨added, rfl⟩) hw hyear hsize hdocument hkept hread hsome
      (fun task htask => (List.mem_filter.mp htask).1) hcollect
    rw [← hu.content] at hcontent
    refine ⟨known, js, hlists, ?_, hall.imp fun task j hj => ⟨hj.writable, hj.made⟩,
      fun _ => ⟨bytes, hcontent⟩⟩
    rw [bytesAt_of_content hcontent, hreads]

/-! ## The tasks -/

theorem isKnown_iff {cwd : Place} :
    task.isKnown cwd is = true ↔ ∃ i ∈ is, i.pointsAt (task.file cwd) task.line = true := by
  rw [Task.isKnown, Task.issueIn?, List.find?_isSome]

/-- Behind a run every task that was unmarked has an issue in the document. The issues that were there
are still there. -/
theorem run_passes_over_no_task (hw : w.tree.WellFormed) (hyear : 1000 ≤ w.clock.year)
    (hb : settings.backups w.cwd = .ok b) (hplace : w.locate directory = .ok place)
    (hsize : ∀ p ∈ w.tree.wanted directory place settings.selection, ∀ bytes,
      w.content p = .ok bytes → (decode bytes).length < 10 ^ Text.maxDigits)
    (hdocument : ∀ p ∈ w.tree.wanted directory place settings.selection,
      p.resolve w.cwd ≠ document.resolve w.cwd)
    (hkept : ∀ q ∈ w.tree.wanted directory place settings.selection,
      ¬b.Holds q.name w.cwd (document.resolve w.cwd))
    (hread : readDocument (decode (bytesAt document w)) = .ok is)
    (hrun : (run settings directory document false none).runOn w = (.ok g, w')) :
    ∃ js, readDocument (decode (bytesAt document w')) = .ok (is ++ js) ∧
      ∀ task ∈ tasksIn w directory place settings.selection,
        (∃ i ∈ is, i.pointsAt (task.file w.cwd) task.line = true) ∨
          ∃ j ∈ js, Records w.cwd task j := by
  obtain ⟨b', place', hready⟩ := isReady_of_run hrun
  obtain rfl := Except.ok.inj (hb.symm.trans hready.backups)
  obtain rfl := Except.ok.inj (hplace.symm.trans hready.located)
  obtain ⟨known, js, hlists, hread', hall, -⟩ :=
    exists_read_of_run hready hw hyear hsize hdocument hkept hread hrun
  refine ⟨js, hread', fun task htask => ?_⟩
  by_cases hknown : task.isKnown w.cwd known = true
  · left
    obtain ⟨i, hi, hpoints⟩ := isKnown_iff.mp hknown
    rcases hlists.eq_or_eq_nil hread with rfl | rfl
    · exact ⟨i, hi, hpoints⟩
    · cases hi
  · right
    have hunknown : task ∈ unknown w.cwd (tasksIn w directory place settings.selection) known :=
      List.mem_filter.mpr ⟨htask, by simpa using hknown⟩
    obtain ⟨j, hj, hreadFor⟩ := exists_of_mem_right hall.flip task hunknown
    exact ⟨j, hj, hreadFor.records hyear⟩

theorem run_passes_over_no_task_halfKnown :
    ∃ b is g w', (halfKnown "orgi.org").tree.WellFormed ∧
      1000 ≤ (halfKnown "orgi.org").clock.year ∧ Settings.default.backups ["w"] = .ok b ∧
      (halfKnown "orgi.org").locate ⟨.relative, []⟩ = .ok ["w"] ∧
      (∀ p ∈ [Path.mk .relative ["a.py"]], ∀ bytes, (halfKnown "orgi.org").content p = .ok bytes →
        (decode bytes).length < 10 ^ Text.maxDigits) ∧
      (∀ p ∈ [Path.mk .relative ["a.py"]],
        p.resolve ["w"] ≠ Path.resolve ["w"] ⟨.relative, ["orgi.org"]⟩) ∧
      (∀ q ∈ [Path.mk .relative ["a.py"]],
        ¬b.Holds q.name ["w"] (Path.resolve ["w"] ⟨.relative, ["orgi.org"]⟩)) ∧
      readDocument (decode (bytesAt ⟨.relative, ["orgi.org"]⟩ (halfKnown "orgi.org"))) = .ok is ∧
      (run .default ⟨.relative, []⟩ ⟨.relative, ["orgi.org"]⟩ false none).runOn
        (halfKnown "orgi.org") = (.ok g, w') ∧
      ∃ js, readDocument (decode (bytesAt ⟨.relative, ["orgi.org"]⟩ w')) = .ok (is ++ js) ∧
        ∀ task ∈ tasksIn (halfKnown "orgi.org") ⟨.relative, []⟩ ["w"] Settings.default.selection,
          (∃ i ∈ is, i.pointsAt (task.file ["w"]) task.line = true) ∨
            ∃ j ∈ js, Records ["w"] task j := by
  have hb : Settings.default.backups ["w"] = .ok ⟨Backups.defaultDirectory, 10⟩ := rfl
  obtain ⟨hw, hplace, hfound, hsize⟩ := halfKnown_spec
  obtain ⟨hclear, hkept⟩ := halfKnown_apart
  have hyear : 1000 ≤ (halfKnown "orgi.org").clock.year := by decide
  have hdocument : ∀ p ∈ [Path.mk .relative ["a.py"]],
      p.resolve ["w"] ≠ Path.resolve ["w"] ⟨.relative, ["orgi.org"]⟩ := fun p hp => (hclear p hp).1
  obtain ⟨is, hread, -⟩ : ∃ is, readDocument
      (decode (bytesAt ⟨.relative, ["orgi.org"]⟩ (halfKnown "orgi.org"))) = .ok is ∧
        is.length = 1 := by
    decide +kernel
  obtain ⟨⟨g, hg, -⟩, -⟩ := run_halfKnown
  rcases hrun : (run .default ⟨.relative, []⟩ ⟨.relative, ["orgi.org"]⟩ false none).runOn
    (halfKnown "orgi.org") with ⟨r, w'⟩
  rw [hrun] at hg
  obtain rfl : r = .ok g := hg
  refine ⟨_, is, g, w', hw, hyear, hb, hplace, hsize, hdocument, hkept, hread, rfl, ?_⟩
  rw [← hfound] at hsize hdocument hkept
  exact run_passes_over_no_task hw hyear hb hplace hsize hdocument hkept hread hrun

/-- The first task has an issue that points at its line, and that issue tells of another content. No
issue is made for the task. -/
theorem run_passes_over_content :
    (∃ g, ((run .default ⟨.relative, []⟩ ⟨.relative, ["orgi.org"]⟩ false none).runOn
        (halfKnown "orgi.org")).1 = .ok g ∧ g.failures = []) ∧
      (∃ is, readDocument
        (decode (bytesAt ⟨.relative, ["orgi.org"]⟩ (halfKnown "orgi.org"))) = .ok is ∧
          is.length = 1) ∧
      ∃ js, readDocument (decode (bytesAt ⟨.relative, ["orgi.org"]⟩
          ((run .default ⟨.relative, []⟩ ⟨.relative, ["orgi.org"]⟩ false none).runOn
            (halfKnown "orgi.org")).2)) = .ok js ∧
        ∃ task ∈ tasksIn (halfKnown "orgi.org") ⟨.relative, []⟩ ["w"] Settings.default.selection,
          ∃ hash, task.contentHash = .ok hash ∧ ∀ j ∈ js, j.sourceHash? ≠ some hash := by
  decide +kernel

end Gather

end TodoLedger
