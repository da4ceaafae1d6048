import TodoLedger.Proofs.Gather.Course
import TodoLedger.Proofs.Workspace.Sample
/-!
# Gathering twice

A run that returns without a failed patch leaves no task that a second run would make an issue of: a
line without an issue has got a marker, and the issues that were there are still read. Neither the
document nor a backup may be one of the files that are gathered from, and the document may not bear the
name of a backup, or it is pruned.
-/

namespace TodoLedger.Gather

open Work Workspace Utf8 Document

variable {settings : Settings} {b : Backups} {directory document p : Path} {place : Place}
  {files : List Path} {is js : List Issue} {tasks : List Task} {w w' v : Workspace} {g : Gathered}
  {pairs : List (Task × Issue)} {patches : List Patch} {task : Task} {bytes : Bytes}

/-! ## The tasks that are left -/

/-- On a marked line no task is found. -/
theorem not_isMarked_of_mem_tasksAt (h : task ∈ w.tasksAt task.path) : ¬IsMarked w task := by
  rintro ⟨bytes, k, l, hcontent, hline, hl, hbegun⟩
  obtain ⟨bytes', hcontent', htask⟩ := exists_content_of_mem_tasksAt h
  obtain rfl := Except.ok.inj (hcontent.symm.trans hcontent')
  obtain ⟨k', l', -, hline', hl', hnot, -⟩ := exists_line_of_mem_tasksOf htask []
  obtain rfl : k = k' := by omega
  obtain rfl := Option.some.inj (hl.symm.trans hl')
  rw [hnot] at hbegun
  cases hbegun

/-- What is found behind a run was there before it. -/
theorem exists_content_of_wanted (h : IsReady settings directory b place w)
    (hw : w.tree.WellFormed)
    (hframe : Frame
      (Reaches b document (w.tree.wanted directory place settings.selection) w.cwd) w w')
    (hclear : Clear b document w.cwd (w.tree.wanted directory place settings.selection)
      (w'.tree.wanted directory place settings.selection))
    (hp : p ∈ w'.tree.wanted directory place settings.selection)
    (hcontent : w'.content p = .ok bytes) :
    p ∈ w.tree.wanted directory place settings.selection ∧ ∃ start, w.content p = .ok start := by
  obtain ⟨hdocument, hunheld⟩ := hclear p hp
  obtain ⟨name, -, rfl, -⟩ := exists_of_mem_wanted hp
  obtain ⟨q, hlocate, hfile'⟩ := content_eq_ok_iff.mp hcontent
  have hq := eq_resolve_of_locate hlocate
  rw [hframe.cwd] at hq
  subst hq
  have hdirectory := eq_resolve_of_locate h.located
  have hname : name ≠ dotDot := by
    rintro rfl
    -- The directory above would have become a file.
    have habove : (directory.child dotDot).resolve w.cwd = place.dropLast := by
      rw [hdirectory, Path.resolve, Path.child, Path.resolveFrom_append]
      rfl
    rw [habove, hframe.directories _ (hw.parent _ _ h.isDirectory)] at hfile'
    cases hfile'
  have hplace : (directory.child name).resolve w.cwd = place ++ [name] := by
    rw [Path.resolve_child hname, hdirectory]
  obtain ⟨start, hfile⟩ : ∃ start, w.tree.find? (place ++ [name]) = some (.file start) := by
    rw [hplace] at hdocument hunheld hfile'
    by_cases htouched :
        Reaches b document (w.tree.wanted directory place settings.selection) w.cwd (place ++ [name])
    · rcases htouched with hown | ⟨q, hq, hsame⟩ | ⟨q, hq, hheld⟩
      · exact absurd hown hdocument
      · obtain ⟨name', node, -, -, hplace', hnode, -⟩ := h.exists_name hw hq
        rw [← hplace', ← hsame] at hnode
        cases node with
        | file start => exact ⟨start, hnode⟩
        | directory =>
            rw [hframe.directories _ hnode] at hfile'
            cases hfile'
      · exact absurd hheld (hunheld q hq)
    · exact ⟨bytes, (hframe.files _ _ htouched).mp hfile'⟩
  rw [hplace] at hfile'
  refine ⟨mem_wanted_iff hfile |>.mpr (mem_wanted_iff hfile' |>.mp hp), start, ?_⟩
  obtain ⟨hencode, hnull, -⟩ := locate_eq_ok_iff.mp hlocate
  obtain ⟨-, -, hwalk⟩ := locate_eq_ok_iff.mp h.located
  have hshort := (hw.names _ _ hfile name (by simp)).short
  exact content_eq_ok_iff.mpr ⟨_, locate_eq_ok_iff.mpr ⟨hencode, hnull,
    Tree.walk_append_name hwalk h.isDirectory hname hshort⟩, hfile⟩

/-- A task that is found behind a run was found before it, and it is not one of the marked ones. -/
theorem Collects.mem_tasksIn (h : IsReady settings directory b place w) (hw : w.tree.WellFormed)
    (hcollects : Collects settings b document
      (w.tree.wanted directory place settings.selection) tasks w w' pairs patches)
    (hclear : Clear b document w.cwd (w.tree.wanted directory place settings.selection)
      (w.tree.wanted directory place settings.selection))
    (hclear' : Clear b document w.cwd (w.tree.wanted directory place settings.selection)
      (w'.tree.wanted directory place settings.selection))
    (hok : ∀ patch ∈ patches, patch.isFailure = false)
    (htask : task ∈ tasksIn w' directory place settings.selection) :
    task ∈ tasksIn w directory place settings.selection ∧ task ∉ tasks := by
  obtain ⟨hpath', hat'⟩ := mem_tasksIn_iff.mp htask
  have hunmarked := not_isMarked_of_mem_tasksAt hat'
  obtain ⟨bytes, hcontent, hmem⟩ := exists_content_of_mem_tasksAt hat'
  obtain ⟨hpath, start, hstart⟩ :=
    exists_content_of_wanted h hw hcollects.frame hclear' hpath' hcontent
  refine ⟨mem_tasksIn_iff.mpr ⟨hpath, ?_⟩, fun hmarked => hunmarked (hcollects.marked hok _ hmarked)⟩
  obtain ⟨-, u, -, -, -, hframe, hkeeps⟩ := hcollects.course
  obtain ⟨bytes', hcontent', hlines⟩ :=
    hkeeps.files _ hpath start (hframe.content hstart (hclear _ hpath).1)
  obtain rfl := Except.ok.inj (hcontent'.symm.trans hcontent)
  obtain ⟨k, l, -, hline, hl, hnot, -⟩ := exists_line_of_mem_tasksOf hmem []
  -- The line has begun no marker, so it is the one that was there.
  have hsame : (Text.bodies (decode bytes'))[k]? = (Text.bodies (decode start))[k]? := by
    rcases hlines.lines k with hsame | ⟨-, l', hl', hbegun⟩
    · rw [Text.bodies, Text.bodies, List.getElem?_map, List.getElem?_map, hsame]
    · obtain rfl := Option.some.inj (hl.symm.trans hl')
      rw [hnot] at hbegun
      cases hbegun
  rw [Workspace.tasksAt, hstart]
  exact (mem_tasksOf_congr hsame hline).mp hmem

theorem isKnown_append {cwd : Place} (h : task.isKnown cwd is = true) (js : List Issue) :
    task.isKnown cwd (is ++ js) = true := by
  rw [Task.isKnown, Task.issueIn?] at h ⊢
  rw [List.find?_append, Option.isSome_or, h, Bool.true_or]

/-- Behind a run that has made issues every task that is left belongs to an issue. -/
theorem unknown_eq_nil_of_collect {issues : List Issue}
    (hready : IsReady settings directory b place w) (hw : w.tree.WellFormed)
    (hyear : 1000 ≤ w.clock.year)
    (hsize : ∀ p ∈ w.tree.wanted directory place settings.selection, ∀ bytes,
      w.content p = .ok bytes → (decode bytes).length < 10 ^ Text.maxDigits)
    (hclear : Clear b document w.cwd (w.tree.wanted directory place settings.selection)
      (w.tree.wanted directory place settings.selection))
    (hclear' : Clear b document w.cwd (w.tree.wanted directory place settings.selection)
      (w'.tree.wanted directory place settings.selection))
    (hkept : ∀ q ∈ w.tree.wanted directory place settings.selection,
      ¬b.Holds q.name w.cwd (document.resolve w.cwd))
    (hlists : Lists document w is)
    (hsome : unknown w.cwd (tasksIn w directory place settings.selection) is ≠ [])
    (hrun : (collect settings b document
      (unknown w.cwd (tasksIn w directory place settings.selection) is)).runOn w =
        (.ok (issues, patches), w'))
    (hok : ∀ patch ∈ patches, patch.isFailure = false) :
    IsReady settings directory b place w' ∧
      (∀ js, Lists document w' js →
        unknown w'.cwd (tasksIn w' directory place settings.selection) js = []) ∧
      (IsCutOff document w ∨ ∃ js, Lists document w' js) := by
  have hunknown : ∀ task ∈ unknown w.cwd (tasksIn w directory place settings.selection) is,
      task ∈ tasksIn w directory place settings.selection :=
    fun task htask => (List.mem_filter.mp htask).1
  obtain ⟨pairs, hcollects, hwritable⟩ := hready.collects hw hyear hsize hclear hunknown hrun
  have hlists' := hcollects.lists hsome (forall_issues hwritable) (fun p hp => (hclear p hp).1) hkept
    hlists
  refine ⟨hready.frame hcollects.frame, fun js hjs => ?_, ?_⟩
  · rw [unknown, List.filter_eq_nil_iff]
    intro task htask
    obtain ⟨hmem, hleft⟩ := hcollects.mem_tasksIn hready hw hclear hclear' hok htask
    have hknown : task.isKnown w.cwd is = true := by
      by_contra hnot
      exact hleft (List.mem_filter.mpr ⟨hmem, by simpa using hnot⟩)
    rw [hcollects.frame.cwd]
    rcases hlists' with ⟨ks, hks⟩ | ⟨rfl, -⟩
    · obtain rfl := hjs.unique hks
      simp [isKnown_append hknown ks]
    · cases hknown
  · rcases hlists' with ⟨ks, hks⟩ | ⟨-, hcut⟩
    · exact Or.inr ⟨_, hks⟩
    · exact Or.inl hcut

/-! ## The second run -/

/-- A run without failed patches is repeated without a new issue, a backup or a change of a file. The
second run returns, unless the document was there from the first but cut off. -/
theorem second_run_makes_nothing (hw : w.tree.WellFormed) (hyear : 1000 ≤ w.clock.year)
    (hb : settings.backups w.cwd = .ok b) (hplace : w.locate directory = .ok place)
    (hsize : ∀ p ∈ w.tree.wanted directory place settings.selection, ∀ bytes,
      w.content p = .ok bytes → (decode bytes).length < 10 ^ Text.maxDigits)
    (hrun : (run settings directory document false none).runOn w = (.ok g, w'))
    (hok : g.failures = [])
    (hclear : Clear b document w.cwd (w.tree.wanted directory place settings.selection)
      (w.tree.wanted directory place settings.selection))
    (hclear' : Clear b document w.cwd (w.tree.wanted directory place settings.selection)
      (w'.tree.wanted directory place settings.selection))
    (hkept : ∀ q ∈ w.tree.wanted directory place settings.selection,
      ¬b.Holds q.name w.cwd (document.resolve w.cwd)) :
    ∃ r w'', (run settings directory document false none).runOn w' = (r, w'') ∧
      w''.tree = w'.tree ∧ (∀ g', r = .ok g' → g'.newIssues = [] ∧ g'.patches = []) ∧
      (IsCutOff document w ∨ ∃ g', r = .ok g') := by
  obtain ⟨b', place', hready⟩ := isReady_of_run hrun
  obtain rfl := Except.ok.inj (hb.symm.trans hready.backups)
  obtain rfl := Except.ok.inj (hplace.symm.trans hready.located)
  obtain ⟨is, v, hlists, -, hv, hcourse⟩ := run_eq_ok hready hrun
  rcases hcourse with ⟨hnone, hv', -⟩ | ⟨hsome, u, hcollect, hu⟩
  · -- Nothing was new: the second run is the first.
    have hquiet := hv.trans hv'
    obtain ⟨r, w'', hrun', hevents, hnothing, hreturns⟩ :=
      run_of_unknown_nil document (hready.of_onlyEvents hquiet) fun js hjs => by
        obtain rfl := hlists.unique (hquiet.lists_iff.mp hjs)
        rwa [tasksIn_of_onlyEvents hquiet, hquiet.cwd]
    exact ⟨r, w'', hrun', hevents.tree, hnothing,
      Or.inr (hreturns ⟨is, hquiet.lists_iff.mpr hlists⟩)⟩
  · obtain ⟨added, rfl⟩ := hv
    have hlists₁ : Lists document { w with events := w.events ++ added } is :=
      hlists.of_tree_eq rfl rfl
    have hready₁ := hready.of_onlyEvents ⟨added, rfl⟩
    have hpatches : ∀ patch ∈ g.patches, patch.isFailure = false := by
      intro patch hpatch
      simpa using List.filter_eq_nil_iff.mp hok patch hpatch
    rw [hu.tree] at hclear'
    obtain ⟨hreadyᵤ, hleft, hdocument⟩ := unknown_eq_nil_of_collect hready₁ hw hyear hsize hclear
      hclear' hkept hlists₁ hsome hcollect hpatches
    obtain ⟨r, w'', hrun', hevents, hnothing, hreturns⟩ :=
      run_of_unknown_nil document (hreadyᵤ.of_onlyEvents hu) fun js hjs => by
        rw [tasksIn_of_onlyEvents hu, hu.cwd]
        exact hleft js (hu.lists_iff.mp hjs)
    refine ⟨r, w'', hrun', hevents.tree, hnothing, ?_⟩
    rcases hdocument with hcut | ⟨js, hjs⟩
    · exact Or.inl (hcut.of_tree_eq rfl rfl)
    · exact Or.inr (hreturns ⟨js, hu.lists_iff.mpr hjs⟩)

/-- An entry without a headline priority that points at the first line of a file. -/
def firstLineEntry : Text :=
  "* TODO b\n:PROPERTIES:\n:ID: b\n:CREATED: <2025-12-18 Thu 14:30>\n:SOURCE_FILE: a.py\n" ++
    ":SOURCE_LINE: 1\n:SOURCE_COLUMN: 1\n:SOURCE_UUID: b\n:END:"

/-- A file with two tasks, of which the first has an issue and no marker. -/
def halfKnown (document : Text) : Workspace :=
  .ofFiles ["w"] [("a.py", "# TODO: b\n# FIXME: c\n"), (document, firstLineEntry)]

theorem halfKnown_spec : (halfKnown "orgi.org").tree.WellFormed ∧
    (halfKnown "orgi.org").locate ⟨.relative, []⟩ = .ok ["w"] ∧
    (halfKnown "orgi.org").tree.wanted ⟨.relative, []⟩ ["w"] Settings.default.selection =
      [⟨.relative, ["a.py"]⟩] ∧
    ∀ p ∈ [Path.mk .relative ["a.py"]], ∀ bytes, (halfKnown "orgi.org").content p = .ok bytes →
      (decode bytes).length < 10 ^ Text.maxDigits :=
  ⟨Tree.wellFormed_of_plain (by decide +kernel), by decide +kernel, by decide +kernel,
    Workspace.length_lt_of_textAt (by decide +kernel)⟩

/-- Neither the file nor the document lies among the backups. -/
theorem halfKnown_apart :
    Clear ⟨Backups.defaultDirectory, 10⟩ ⟨.relative, ["orgi.org"]⟩ ["w"] [⟨.relative, ["a.py"]⟩]
      [⟨.relative, ["a.py"]⟩] ∧
    ∀ q ∈ [Path.mk .relative ["a.py"]], ¬Backups.Holds ⟨Backups.defaultDirectory, 10⟩ q.name ["w"]
      (Path.resolve ["w"] ⟨.relative, ["orgi.org"]⟩) :=
  ⟨clear_of_not_covers (by decide +kernel),
    fun _ _ hheld => absurd hheld.covers (by decide +kernel)⟩

/-- A run makes an issue of the second task and marks its line. -/
theorem run_halfKnown :
    (∃ g, ((run .default ⟨.relative, []⟩ ⟨.relative, ["orgi.org"]⟩ false none).runOn
        (halfKnown "orgi.org")).1 = .ok g ∧ (g.failures = [] ∧ g.newIssues.length = 1) ∧
        (g.matched = 1 ∧ g.unmatched = 1 ∧ g.modified = 1)) ∧
      ((run .default ⟨.relative, []⟩ ⟨.relative, ["orgi.org"]⟩ false none).runOn
        (halfKnown "orgi.org")).2.tree.wanted ⟨.relative, []⟩ ["w"] Settings.default.selection =
          [⟨.relative, ["a.py"]⟩] := by
  decide +kernel

theorem second_run_makes_nothing_halfKnown :
    ∃ b g w', (halfKnown "orgi.org").tree.WellFormed ∧
      1000 ≤ (halfKnown "orgi.org").clock.year ∧
      Settings.default.backups ["w"] = .ok b ∧
      (halfKnown "orgi.org").locate ⟨.relative, []⟩ = .ok ["w"] ∧
      (∀ p ∈ [Path.mk .relative ["a.py"]], ∀ bytes, (halfKnown "orgi.org").content p = .ok bytes →
        (decode bytes).length < 10 ^ Text.maxDigits) ∧
      (run .default ⟨.relative, []⟩ ⟨.relative, ["orgi.org"]⟩ false none).runOn
        (halfKnown "orgi.org") = (.ok g, w') ∧
      (g.failures = [] ∧ g.newIssues.length = 1) ∧
      Clear b ⟨.relative, ["orgi.org"]⟩ ["w"] [⟨.relative, ["a.py"]⟩] [⟨.relative, ["a.py"]⟩] ∧
      (∀ q ∈ [Path.mk .relative ["a.py"]],
        ¬b.Holds q.name ["w"] (Path.resolve ["w"] ⟨.relative, ["orgi.org"]⟩)) ∧
      ∃ r w'', (run .default ⟨.relative, []⟩ ⟨.relative, ["orgi.org"]⟩ false none).runOn w' =
          (r, w'') ∧
        w''.tree = w'.tree ∧ (∀ g', r = .ok g' → g'.newIssues = [] ∧ g'.patches = []) ∧
        (IsCutOff ⟨.relative, ["orgi.org"]⟩ (halfKnown "orgi.org") ∨ ∃ g', r = .ok g') := by
  have hb : Settings.default.backups ["w"] = .ok ⟨Backups.defaultDirectory, 10⟩ := rfl
  obtain ⟨hw, hplace, hfound, hsize⟩ := halfKnown_spec
  obtain ⟨hclear, hkept⟩ := halfKnown_apart
  have hyear : 1000 ≤ (halfKnown "orgi.org").clock.year := by decide
  obtain ⟨⟨g, hg, hok, -⟩, hfound'⟩ := run_halfKnown
  rcases hrun : (run .default ⟨.relative, []⟩ ⟨.relative, ["orgi.org"]⟩ false none).runOn
    (halfKnown "orgi.org") with ⟨r, w'⟩
  rw [hrun] at hg hfound'
  obtain rfl : r = .ok g := hg
  refine ⟨_, g, w', hw, hyear, hb, hplace, hsize, rfl, hok, hclear, hkept, ?_⟩
  rw [← hfound] at hsize hclear hkept
  have hclear' : Clear ⟨Backups.defaultDirectory, 10⟩ ⟨.relative, ["orgi.org"]⟩ ["w"]
      ((halfKnown "orgi.org").tree.wanted ⟨.relative, []⟩ ["w"] Settings.default.selection)
      (w'.tree.wanted ⟨.relative, []⟩ ["w"] Settings.default.selection) := by
    rw [hfound', ← hfound]
    exact hclear
  exact second_run_makes_nothing hw hyear hb hplace hsize hrun hok.1 hclear hclear' hkept

/-- One backup is kept, beside the files. -/
def backupsBeside : Settings :=
  { Settings.default with backupDirectory := ⟨.relative, []⟩, maxBackups := 1 }

/-- The document bears the name of a backup. It is pruned when a line is marked, and the task that it
had an issue for is found again. -/
theorem second_run_makes_issue_again :
    (∃ g, ((run backupsBeside ⟨.relative, []⟩ ⟨.relative, ["a.py.backup-0"]⟩ false none).runOn
        (halfKnown "a.py.backup-0")).1 = .ok g ∧ g.failures = [] ∧ g.newIssues.length = 1) ∧
      1000 ≤ (halfKnown "a.py.backup-0").clock.year ∧
      (halfKnown "a.py.backup-0").tree.wanted ⟨.relative, []⟩ ["w"] backupsBeside.selection =
        [⟨.relative, ["a.py"]⟩] ∧
      ((run backupsBeside ⟨.relative, []⟩ ⟨.relative, ["a.py.backup-0"]⟩ false none).runOn
        (halfKnown "a.py.backup-0")).2.tree.wanted ⟨.relative, []⟩ ["w"] backupsBeside.selection =
          [⟨.relative, ["a.py"]⟩] ∧
      ∃ g, ((run backupsBeside ⟨.relative, []⟩ ⟨.relative, ["a.py.backup-0"]⟩ false none).runOn
        ((run backupsBeside ⟨.relative, []⟩ ⟨.relative, ["a.py.backup-0"]⟩ false none).runOn
          (halfKnown "a.py.backup-0")).2).1 = .ok g ∧ g.newIssues.length = 1 := by
  decide +kernel

end TodoLedger.Gather
