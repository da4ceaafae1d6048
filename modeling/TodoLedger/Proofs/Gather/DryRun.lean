import TodoLedger.Proofs.Gather.Effect
/-!
# What a dry run foretells

A dry run and a run read the same things, so that both tell of the same survey. The run then makes an
issue of each task that is left over. The files that it counts are those of patches that made a change.
Of these there is one for every file that gets a marker, whether or not other patches fail.
-/

namespace TodoLedger

open Work Workspace Utf8 Document

section Lines

variable {pairs : List (Task × Issue)} {p : Path} {s t : Text}

/-- A text stays as it is if and only if no task of it is marked. -/
theorem MarksFirst.eq_iff (h : MarksFirst p t pairs (Text.lines s))
    (hpairs : ∀ e ∈ pairs, e.1.path = p → e.1 ∈ tasksOf p false t) :
    s = t ↔ ∀ e ∈ pairs, e.1.path ≠ p := by
  constructor
  · rintro rfl e he hpath
    obtain ⟨k, -, -, hline, -⟩ := mem_tasksOf_iff.mp (hpairs e he hpath)
    cases hfirst : firstAt pairs p k with
    | none => exact firstAt_eq_none_iff.mp hfirst e he ⟨hpath, hline⟩
    | some first =>
        -- a task is found on a line without a marker, and this line has got one
        obtain ⟨F, hF, -, rfl, hmarked⟩ := h.marked k first hfirst
        have hfound : (Text.lines s)[F.front.length]? = some F.line := by
          rw [F.lines_eq]
          simp
        have hsame : F.line = F.markedLine first.2.id := Option.some.inj (hfound.symm.trans hmarked)
        have hplain := F.isBegun_body hF
        rw [hsame, Occurrence.markedLine, F.isBegun_marked] at hplain
        cases hplain
  · intro hnone
    have hlines : Text.lines s = Text.lines t := by
      refine List.ext_getElem? fun k => h.kept k ?_
      exact firstAt_eq_none_iff.mpr fun e he hthere => hnone e he hthere.1
    rw [← Text.ofLines_lines s, hlines, Text.ofLines_lines]

end Lines

namespace Gather

variable {settings : Settings} {b : Backups} {directory document : Path} {place : Place}
  {is : List Issue} {tasks : List Task} {paths : List Path} {pairs written : List (Task × Issue)}
  {patches : List Patch} {w w' : Workspace} {g : Gathered}

/-! ## What is found -/

/-- A dry run adds events only, whatever comes of it. -/
theorem onlyEvents_of_dryRun (settings : Settings) (directory document : Path) (w : Workspace) :
    OnlyEvents w ((run settings directory document true none).runOn w).2 := by
  by_cases h : ∃ b place, IsReady settings directory b place w
  · obtain ⟨b, place, hready⟩ := h
    obtain ⟨v, hv, ⟨is, -, heq⟩ | ⟨-, fault, -, heq⟩⟩ := runOn_run document true hready
    · rw [heq, Bool.true_or, if_pos rfl, runOn_conclude]
      exact hv.trans (.report _ v)
    · rw [heq]
      exact hv
  · obtain ⟨fault, hrun⟩ := @run_of_not_ready settings directory document w true h
    rw [hrun]
    exact .refl w

/-- A dry run that is ready and can read the document returns. -/
theorem runOn_dryRun (h : IsReady settings directory b place w) (hlists : Lists document w is) :
    ∃ v, (run settings directory document true none).runOn w =
      (.ok (survey settings directory place w is true), v) := by
  obtain ⟨v, -, ⟨is', hlists', heq⟩ | ⟨hnone, -⟩⟩ := runOn_run document true h
  · obtain rfl := hlists.unique hlists'
    rw [heq, Bool.true_or, if_pos rfl, runOn_conclude]
    exact ⟨_, rfl⟩
  · exact absurd hlists (hnone is)

/-! ## What is counted -/

/-- Some patch changes a file if and only if a pair of the file counts, as far as no pair of the file was
written before. -/
theorem Reported.exists_change_iff (h : Reported written pairs patches) (p : Path) :
    ((∃ patch ∈ patches, patch.isChange = true ∧ patch.path = p) ∨ ∃ e ∈ written, e.1.path = p) ↔
      (∃ e ∈ written, e.1.path = p) ∨ ∃ e ∈ unfailed pairs patches, e.1.path = p := by
  induction h with
  | nil => simp [unfailed]
  | @cons written rest e patch patches hreports _ ih =>
      have hconcat : (∃ e' ∈ written ++ [e], e'.1.path = p) ↔
          (∃ e' ∈ written, e'.1.path = p) ∨ e.1.path = p := by
        simp only [List.mem_append, List.mem_singleton, or_and_right, exists_or, exists_eq_left]
      have hother : patch.isChange = false → (((patch.isChange = true ∧ patch.path = p) ∨
          ∃ other ∈ patches, other.isChange = true ∧ other.path = p) ↔
            ∃ other ∈ patches, other.isChange = true ∧ other.path = p) :=
        fun h => or_iff_right (by simp [h])
      rw [unfailed_cons, List.exists_mem_cons_iff]
      cases hreports with
      | applied _ =>
          rw [if_neg (by simp [Patch.isFailure])] at ih ⊢
          rw [hconcat] at ih
          rw [List.exists_mem_cons_iff, and_iff_right (by rfl), or_assoc, or_comm, or_assoc, ih,
            or_assoc]
      | unchanged hmarked =>
          have hbefore : e.1.path = p → ∃ e' ∈ written, e'.1.path = p := by
            rintro rfl
            obtain ⟨first, hfirst, hpath, -⟩ := hmarked
            exact ⟨first, hfirst, hpath⟩
          rw [if_neg (by simp [Patch.isFailure])] at ih ⊢
          rw [hconcat, or_iff_left_of_imp hbefore] at ih
          rw [hother rfl, List.exists_mem_cons_iff, ← or_assoc, or_iff_left_of_imp hbefore, ih]
      | failed _ =>
          rw [if_pos (by rfl)] at ih ⊢
          rw [hother rfl, ih]

/-- So many of the files have other bytes in the second workspace. -/
def CountsChanged (paths : List Path) (w w' : Workspace) (n : Nat) : Prop :=
  ∃ files : List Path, files.Nodup ∧ n = files.length ∧
    ∀ p, p ∈ files ↔ p ∈ paths ∧ ∃ bytes, w.content p = .ok bytes ∧ w'.content p ≠ .ok bytes

/-- The files that are counted are those whose bytes have changed. -/
theorem changedFiles_of_collect {issues : List Issue} (hne : tasks ≠ [])
    (hfiles : Separate b w.cwd paths)
    (hdocument : ∀ p ∈ paths, p.resolve w.cwd ≠ document.resolve w.cwd)
    (htasks : ∀ task ∈ tasks, task.path ∈ paths ∧ task ∈ w.tasksAt task.path)
    (hrun : (collect settings b document tasks).runOn w = (.ok (issues, patches), w')) :
    CountsChanged paths w w' (Patch.changedFiles patches) := by
  obtain ⟨pairs, v, u, n, ⟨hfst, -⟩, hsame, -, happend, hpairs, hreported, hmarks⟩ :=
    marks_of_collect hne hfiles htasks hrun
  have hframe := frame_of_append hsame happend
  have hcounted : ∀ e ∈ unfailed pairs patches, e ∈ pairs :=
    fun e he => hreported.unfailed_sublist.subset he
  -- A file has other bytes afterwards if a pair of it counts.
  have hchanged : ∀ p ∈ paths, ∀ bytes, w.content p = .ok bytes →
      (w'.content p ≠ .ok bytes ↔ ∃ e ∈ unfailed pairs patches, e.1.path = p) := by
    intro p hp bytes hbytes
    have hbefore := hframe.content hbytes (hdocument p hp)
    obtain ⟨bytes', hafter, hfirst⟩ := hmarks.files p hp bytes hbefore
    have hfound : ∀ e ∈ unfailed pairs patches, e.1.path = p →
        e.1 ∈ tasksOf p false (decode bytes) := by
      rintro e he rfl
      obtain ⟨-, htask, -⟩ := hpairs e (hcounted e he)
      rwa [Workspace.tasksAt, hbefore] at htask
    have hdecode : bytes' = bytes ↔ decode bytes' = decode bytes := by
      refine ⟨congrArg decode, fun hsame => ?_⟩
      rw [← bytesOf_decode bytes', hsame, bytesOf_decode]
    rw [hafter, Ne, Except.ok.injEq, hdecode, hfirst.eq_iff hfound]
    simp only [ne_eq, not_forall, not_not, exists_prop]
  refine ⟨_, nodup_distinct _, rfl, fun p => ?_⟩
  have hpatches : p ∈ distinct ((patches.filter Patch.isChange).map Patch.path) ↔
      ∃ e ∈ unfailed pairs patches, e.1.path = p := by
    have hiff := hreported.exists_change_iff p
    simpa [mem_distinct, and_assoc] using hiff
  rw [hpatches]
  constructor
  · rintro ⟨e, he, rfl⟩
    have htask : e.1 ∈ tasks := hfst ▸ List.mem_map_of_mem (hcounted e he)
    obtain ⟨hpath, hfound⟩ := htasks _ htask
    obtain ⟨bytes, hbytes, -⟩ := exists_content_of_mem_tasksAt hfound
    exact ⟨hpath, bytes, hbytes, (hchanged _ hpath bytes hbytes).mpr ⟨e, he, rfl⟩⟩
  · rintro ⟨hp, bytes, hbytes, hother⟩
    exact (hchanged p hp bytes hbytes).mp hother

/-! ## The two runs -/

/-- What a run that returns has in common with a dry run, and what it adds to it. -/
structure Foretold (settings : Settings) (directory document : Path) (b : Backups) (place : Place)
    (is : List Issue) (w w' : Workspace) (g : Gathered) : Prop where
  isReady : IsReady settings directory b place w
  known : Lists document w is
  surveyed : g = { survey settings directory place w is false with
    newIssues := g.newIssues, patches := g.patches }
  dryRun : ∃ v, (run settings directory document true none).runOn w =
    (.ok { g with dryRun := true, newIssues := [], patches := [] }, v)
  found : g.found = g.matched + g.unmatched
  created : g.newIssues.length = g.unmatched
  /-- The issues are those of the tasks that none of the known ones points at, in their order. -/
  made : ∃ pairs : List (Task × Issue),
    pairs.map Prod.fst = unknown w.cwd (tasksIn w directory place settings.selection) is ∧
      pairs.map Prod.snd = g.newIssues ∧ MadeInTurn settings w.clock w pairs
  ids : w.DrawsDistinct g.unmatched → (g.newIssues.map Issue.id).Nodup
  modified : w.tree.WellFormed → Clear b document w.cwd
      (w.tree.wanted directory place settings.selection)
      (w.tree.wanted directory place settings.selection) →
    CountsChanged (w.tree.wanted directory place settings.selection) w w' g.modified

/-- What a run has made, where it knew some of the tasks. -/
theorem made_of_run (h : IsReady settings directory b place w) (hlists : Lists document w is)
    (hrun : (run settings directory document false none).runOn w = (.ok g, w')) :
    ∃ pairs : List (Task × Issue),
      pairs.map Prod.fst = unknown w.cwd (tasksIn w directory place settings.selection) is ∧
      pairs.map Prod.snd = g.newIssues ∧ MadeInTurn settings w.clock w pairs := by
  obtain ⟨is', v, hlists', -, hv, ⟨hnone, -, hissues, -⟩ | ⟨-, u, hcollect, -⟩⟩ := run_eq_ok h hrun
  · obtain rfl := hlists.unique hlists'
    exact ⟨[], hnone.symm, hissues.symm, .nil _ _ _⟩
  · obtain rfl := hlists.unique hlists'
    obtain ⟨added, rfl⟩ := hv
    obtain ⟨pairs, -, -, -, hfst, hsnd, -, hmade, -, -⟩ := collect_eq_ok hcollect
    exact ⟨pairs, hfst, hsnd, hmade⟩

theorem changedFiles_of_run (h : IsReady settings directory b place w) (hw : w.tree.WellFormed)
    (hclear : Clear b document w.cwd (w.tree.wanted directory place settings.selection)
      (w.tree.wanted directory place settings.selection))
    (hrun : (run settings directory document false none).runOn w = (.ok g, w')) :
    CountsChanged (w.tree.wanted directory place settings.selection) w w' g.modified := by
  obtain ⟨is, v, -, -, hv, ⟨-, hv', -, hpatches⟩ | ⟨hsome, u, hcollect, hu⟩⟩ := run_eq_ok h hrun
  · refine ⟨[], List.nodup_nil, by rw [Gathered.modified, hpatches]; rfl, fun p => ?_⟩
    simp [(hv.trans hv').content]
  · obtain ⟨added, rfl⟩ := hv
    simp only [CountsChanged, hu.content]
    exact changedFiles_of_collect (w := { w with events := w.events ++ added }) hsome
      (h.separate hw fun p hp => (hclear p hp).2) (fun p hp => (hclear p hp).1)
      (fun _ => of_mem_unknown (w := w)) hcollect

/-- A dry run changes no file. It tells the numbers that a run from the same workspace finds, and that
run makes one issue for each task that is left over, in order, and with ids of their own if the tokens
that it draws are distinct. It counts the files that have changed, if neither the document nor a backup
of a file is among the scanned files. -/
theorem dryRun_foretells_run (settings : Settings) (directory document : Path) (w : Workspace) :
    OnlyEvents w ((run settings directory document true none).runOn w).2 ∧
      ∀ g w', (run settings directory document false none).runOn w = (.ok g, w') →
        ∃ b place is, Foretold settings directory document b place is w w' g := by
  refine ⟨onlyEvents_of_dryRun settings directory document w, fun g w' hrun => ?_⟩
  obtain ⟨b, place, hready⟩ := isReady_of_run hrun
  obtain ⟨is, -, hlists, hsurvey, -⟩ := run_eq_ok hready hrun
  obtain ⟨pairs, hfst, hsnd, hmade⟩ := made_of_run hready hlists hrun
  have hunmatched : g.unmatched =
      (unknown w.cwd (tasksIn w directory place settings.selection) is).length :=
    congrArg Gathered.unmatched hsurvey
  have hfound : g.found = (tasksIn w directory place settings.selection).length :=
    congrArg Gathered.found hsurvey
  refine ⟨b, place, is, hready, hlists, hsurvey, ?_, ?_, ?_, ⟨pairs, hfst, hsnd, hmade⟩, ?_,
    fun hw hclear => changedFiles_of_run hready hw hclear hrun⟩
  · obtain ⟨v, hdry⟩ := runOn_dryRun hready hlists
    rw [hsurvey]
    exact ⟨v, hdry⟩
  · have hle : g.unmatched ≤ g.found := by
      rw [hunmatched, hfound]
      exact List.length_filter_le _ _
    rw [Gathered.matched]
    omega
  · rw [hunmatched, ← hfst, ← hsnd, List.length_map, List.length_map]
  · intro hdistinct
    rw [hunmatched, ← hfst, List.length_map] at hdistinct
    rw [← hsnd, List.map_map]
    exact hmade.nodup_ids hdistinct

/-- Of two tasks one is known. In the other workspace none of three tasks is, and their tokens are
distinct. -/
theorem dryRun_foretells_run_halfKnown :
    (∃ b g w', (halfKnown "orgi.org").tree.WellFormed ∧
      Settings.default.backups ["w"] = .ok b ∧
      (run .default ⟨.relative, []⟩ ⟨.relative, ["orgi.org"]⟩ false none).runOn
        (halfKnown "orgi.org") = (.ok g, w') ∧
      (g.matched = 1 ∧ g.unmatched = 1 ∧ g.modified = 1) ∧
      Clear b ⟨.relative, ["orgi.org"]⟩ ["w"] [⟨.relative, ["a.py"]⟩] [⟨.relative, ["a.py"]⟩] ∧
      (∃ v, (run .default ⟨.relative, []⟩ ⟨.relative, ["orgi.org"]⟩ true none).runOn
        (halfKnown "orgi.org") = (.ok { g with dryRun := true, newIssues := [], patches := [] }, v)) ∧
      g.found = g.matched + g.unmatched ∧
      CountsChanged [⟨.relative, ["a.py"]⟩] (halfKnown "orgi.org") w' g.modified) ∧
    ∃ g w', (run .default ⟨.relative, []⟩ ⟨.relative, ["orgi.org"]⟩ false none).runOn twoOnLine =
        (.ok g, w') ∧ g.unmatched = 3 ∧ twoOnLine.DrawsDistinct g.unmatched ∧
      (g.newIssues.map Issue.id).Nodup := by
  constructor
  · have hb : Settings.default.backups ["w"] = .ok ⟨Backups.defaultDirectory, 10⟩ := rfl
    obtain ⟨hw, hplace, hfound, -⟩ := halfKnown_spec
    obtain ⟨hclear, -⟩ := halfKnown_apart
    obtain ⟨⟨g, hg, -, hnumbers⟩, -⟩ := run_halfKnown
    rcases hrun : (run .default ⟨.relative, []⟩ ⟨.relative, ["orgi.org"]⟩ false none).runOn
      (halfKnown "orgi.org") with ⟨r, w'⟩
    rw [hrun] at hg
    obtain rfl : r = .ok g := hg
    obtain ⟨b, place, is, htold⟩ := (dryRun_foretells_run _ _ _ _).2 g w' hrun
    obtain rfl := Except.ok.inj (hb.symm.trans htold.isReady.backups)
    obtain rfl := Except.ok.inj (hplace.symm.trans htold.isReady.located)
    refine ⟨_, g, w', hw, hb, rfl, hnumbers, hclear, htold.dryRun, htold.found, ?_⟩
    rw [← hfound] at hclear ⊢
    exact htold.modified hw hclear
  · obtain ⟨g, hg, hok, -⟩ := run_twoOnLine
    rcases hrun : (run .default ⟨.relative, []⟩ ⟨.relative, ["orgi.org"]⟩ false none).runOn twoOnLine
      with ⟨r, w'⟩
    rw [hrun] at hg
    obtain rfl : r = .ok g := hg
    obtain ⟨b, place, is, htold⟩ := (dryRun_foretells_run _ _ _ _).2 g w' hrun
    have hunmatched : g.unmatched = 3 := htold.created.symm.trans hok.2
    have hdistinct : twoOnLine.DrawsDistinct g.unmatched := by
      rw [hunmatched, drawsDistinct_iff]
      decide
    exact ⟨g, w', rfl, hunmatched, hdistinct, htold.ids hdistinct⟩

/-- With a token that comes again two issues have one id. -/
example : ∃ g, ((run .default ⟨.relative, []⟩ ⟨.relative, ["orgi.org"]⟩ false none).runOn
    { twoOnLine with random := fun _ => 0 }).1 = .ok g ∧ ¬(g.newIssues.map Issue.id).Nodup := by
  decide +kernel

/-- A document that is scanned has grown and is not counted. A scanned file is pruned as a backup of
another one and is not counted either. -/
theorem run_changes_more_than_counted :
    (∃ g, ((run .default ⟨.relative, []⟩ ⟨.relative, ["notes.py"]⟩ false none).runOn
        (ofFiles ["w"] [("a.py", "# TODO: b\n"), ("notes.py", [])])).1 = .ok g ∧
          g.scanned = 2 ∧ g.modified = 1) ∧
      (∀ p ∈ [Path.mk .relative ["a.py"], ⟨.relative, ["notes.py"]⟩],
        ((run .default ⟨.relative, []⟩ ⟨.relative, ["notes.py"]⟩ false none).runOn
          (ofFiles ["w"] [("a.py", "# TODO: b\n"), ("notes.py", [])])).2.textAt p ≠
            (ofFiles ["w"] [("a.py", "# TODO: b\n"), ("notes.py", [])]).textAt p) ∧
      (∃ g, ((run backupsBeside ⟨.relative, []⟩ ⟨.relative, ["orgi.org"]⟩ false none).runOn
        (ofFiles ["w"] [("a.py", "# TODO: b\n"), ("a.py.backup-0.py", "x\n")])).1 = .ok g ∧
          g.scanned = 2 ∧ g.modified = 1) ∧
      ((run backupsBeside ⟨.relative, []⟩ ⟨.relative, ["orgi.org"]⟩ false none).runOn
        (ofFiles ["w"] [("a.py", "# TODO: b\n"), ("a.py.backup-0.py", "x\n")])).2.tree.find?
          ["w", "a.py.backup-0.py"] = none := by
  decide +kernel

end Gather

end TodoLedger
