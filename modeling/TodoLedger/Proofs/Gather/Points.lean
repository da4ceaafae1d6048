import TodoLedger.Proofs.Gather.Stage
/-!
# Every point of a gather run

A run may be stopped at any point. Until the entries of the new issues are in the document no file has
changed. From then on no marker dangles: whatever marker a run has put into a file, the entry of its
issue is in the document.
-/

namespace TodoLedger

open Work Workspace Utf8 Document

namespace Gather

/-- The tasks of a run: those that are given, or else those that are found. -/
def sought (settings : Settings) (directory : Path) (place : Place) (w : Workspace) :
    Option (List Task) → List Task
  | some tasks => tasks
  | none => tasksIn w directory place settings.selection

/-- A task of a file. If that is the document, the task stands on one of its lines. -/
structure IsFitting (document : Path) (w : Workspace) (task : Task) : Prop where
  isNamed : task.path.IsNamed
  line : task.path.resolve w.cwd = document.resolve w.cwd →
    ∃ k < (Text.lines (decode (bytesAt document w))).length, task.line = (k + 1 : Nat)

/-- No file has changed, except that the document may have been made, without bytes. -/
structure Unwritten (document : Path) (w v : Workspace) : Prop where
  frame : Frame (· = document.resolve w.cwd) w v
  bytes : bytesAt document v = bytesAt document w

/-- How far a run has come: until the entries of the issues are written no file has changed, and from
then on no marker dangles. -/
inductive Reached (settings : Settings) (directory document : Path) (given : Option (List Task))
    (all : List Workspace) (w v : Workspace) : Prop
  | before : Unwritten document w v → Reached settings directory document given all w v
  | behind {b : Backups} {place : Place} {issues : List Issue} {v₁ u : Workspace} {n : Nat} :
      settings.backups w.cwd = .ok b → w.locate directory = .ok place → issues ≠ [] →
      v₁ ∈ all → u ∈ all → Frame (fun _ => False) w v₁ →
      (Document.append document issues).runOn v₁ = (.ok n, u) →
      NoneDangling b ((sought settings directory place w given).map Task.path) document issues u v →
      Reached settings directory document given all w v

section Run

variable {settings : Settings} {b : Backups} {directory document : Path} {place : Place}
  {given : Option (List Task)} {tasks : List Task} {all : List Workspace} {w w₀ v : Workspace}

theorem Unwritten.trans {v' : Workspace} (h : Unwritten document w v)
    (h' : Unwritten document v v') : Unwritten document w v' := by
  refine ⟨h.frame.trans ?_, h'.bytes.trans h.bytes⟩
  rw [← h.frame.cwd]
  exact h'.frame

theorem Unwritten.of_frame (h : Frame (fun _ => False) w v) : Unwritten document w v :=
  ⟨h.mono fun _ => False.elim, bytesAt_of_frame h id⟩

theorem Unwritten.of_writeBytes {old : Bytes} (h : Grows document w old) :
    Unwritten document w ((writeBytes document old).runOn w).2 := by
  refine ⟨frame_writeBytes rfl, ?_⟩
  rw [runOn_writeBytes]
  cases hwrite : w.withContent document old with
  | error fault => rfl
  | ok v => exact (bytesAt_of_content (content_of_withContent hwrite)).trans (h.eq_bytesAt hwrite)

theorem Reached.of_frame (h : Frame (fun _ => False) w v) :
    Reached settings directory document given all w v := .before (.of_frame h)

theorem Reached.of_onlyEvents {v' : Workspace}
    (h : Reached settings directory document given all w v) (hquiet : OnlyEvents v v') :
    Reached settings directory document given all w v' := by
  cases h with
  | before hunwritten => exact .before (hunwritten.trans (.of_frame hquiet.frame))
  | behind hb hplace hne hv₁ hu hframe happend hnone =>
      obtain ⟨added, rfl⟩ := hquiet
      exact .behind hb hplace hne hv₁ hu hframe happend (hnone.congr rfl rfl)

/-- What is read before a file is added to is what it is added to. -/
private theorem grows_of_isFile {old : Bytes}
    (hrun : ((do if ← isFile document then readBytes document else pure [] : Work Bytes).runOn w) =
      (.ok old, v)) : Grows document w old ∧ v = w := by
  obtain ⟨there, w₁, hthere, hold⟩ := runOn_bind_eq_ok_iff.mp hrun
  by_cases hcontent : ∃ bytes, w.content document = .ok bytes
  · obtain ⟨bytes, hcontent⟩ := hcontent
    rw [runOn_isFile, node?_eq_file_iff.mpr hcontent] at hthere
    obtain ⟨htrue, rfl⟩ := Prod.mk.inj hthere
    obtain rfl := Except.ok.inj htrue
    simp only [isFileNode, if_true, runOn_readBytes] at hold
    obtain ⟨hbytes, rfl⟩ := Prod.mk.inj hold
    exact ⟨Or.inl hbytes, rfl⟩
  · have hmissing : ∀ bytes, w.content document ≠ .ok bytes := fun bytes h => hcontent ⟨bytes, h⟩
    obtain ⟨rfl, rfl⟩ := runOn_isFile_of_missing hmissing hthere
    obtain ⟨hnil, rfl⟩ := Prod.mk.inj hold
    exact ⟨Or.inr ⟨hmissing, (Except.ok.inj hnil).symm⟩, rfl⟩

/-- At each point of adding a text nothing is added yet, or all of it. -/
theorem points_appendText {t : Text} (hv : v ∈ (Script.appendText document t).points w) :
    Unwritten document w v ∨ (Work.appendText document t).runOn w = (.ok (), v) := by
  rw [← Script.work_appendText]
  rw [Script.appendText] at hv ⊢
  rcases Script.mem_points_bind_iff.mp hv with hv | ⟨old, w₁, hread, hrest⟩
  · left
    rw [Script.mem_points_lift_iff.mp hv, Script.unchanged_read (isFile_unchanged document w)]
    exact .of_frame (.refl w)
  obtain ⟨hgrows, rfl⟩ := grows_of_isFile hread
  have htouched := Unwritten.of_writeBytes hgrows
  rcases Script.mem_points_bind_iff.mp hrest with hv | ⟨_, w₂, htouch, hv⟩
  · left
    rw [Script.mem_points_lift_iff.mp hv]
    exact htouched
  rw [Script.work_lift] at htouch
  rw [htouch] at htouched
  rw [Script.work_bind, runOn_bind_of_ok hread, Script.work_bind, Script.work_lift,
    runOn_bind_of_ok htouch]
  cases hencode : encode t with
  | error f =>
      left
      rw [hencode] at hv
      rw [Script.mem_points_lift_iff.mp hv]
      exact htouched
  | ok bytes =>
      rw [hencode] at hv
      rw [Script.mem_points_lift_iff.mp hv]
      simp only [Script.work_lift, runOn_writeBytes]
      cases w₂.withContent document (old ++ bytes) with
      | error fault => exact Or.inl htouched
      | ok v => exact Or.inr rfl

/-- At each point of adding entries nothing is added yet, or the adding ends well. -/
theorem points_appendIssues {issues : List Issue} (hne : issues ≠ [])
    (hv : v ∈ (Script.appendIssues document issues).points w) :
    Unwritten document w v ∨ ∃ n u, (Document.append document issues).runOn w = (.ok n, u) ∧
      v.tree = u.tree ∧ v.cwd = u.cwd := by
  have hempty : issues.isEmpty = false := by
    rw [List.isEmpty_eq_false_iff]
    exact hne
  rw [← Script.work_appendIssues]
  rw [Script.appendIssues, hempty] at hv ⊢
  simp only [Bool.false_eq_true, if_false] at hv ⊢
  rcases Script.mem_points_bind_iff.mp hv with hv | ⟨_, w₁, hmade, hv⟩
  · left
    exact .of_frame ((Script.through_ensureDirectories
      (fun p v hv => hv.trans (frame_ensureDirectory p v)) document.parent (.refl w)).points v hv)
  have h₁ : Unwritten document w w₁ := by
    have hframe := @frame_ensureDirectories (fun _ => False) document.parent w
    rw [Script.work_ensureDirectories] at hmade
    rw [hmade] at hframe
    exact .of_frame hframe
  rw [Script.work_bind, runOn_bind_of_ok hmade]
  have hquiet := @Script.unchanged_read document (pathExists document) w₁ (by rw [runOn_pathExists])
  rcases Script.mem_points_bind_iff.mp hv with hv | ⟨old, w₂, hread, hrest⟩
  · left
    rw [Script.mem_points_lift_iff.mp hv, hquiet]
    exact h₁
  obtain rfl : w₁ = w₂ := by
    rw [Script.work_lift] at hread
    rw [← hquiet, hread]
  rw [Script.work_bind, runOn_bind_of_ok hread]
  rcases Script.mem_points_bind_iff.mp hrest with hv | ⟨_, w₃, happend, hv⟩
  · refine (points_appendText hv).imp h₁.trans fun happend => ?_
    rw [Script.work_bind, Script.work_appendText, runOn_bind_of_ok happend]
    exact ⟨_, _, rfl, rfl, rfl⟩
  · right
    rw [Script.work_bind, runOn_bind_of_ok happend]
    refine ⟨_, _, rfl, ?_⟩
    rcases Script.mem_points_bind_iff.mp hv with hv | ⟨_, w₄, hreport, hv⟩
    · rw [Script.mem_points_lift_iff.mp hv]
      exact ⟨rfl, rfl⟩
    · obtain ⟨-, rfl⟩ := Prod.mk.inj hreport
      rw [List.mem_singleton.mp hv]
      exact ⟨rfl, rfl⟩

/-- A scan ends with the tasks of the run. -/
theorem runOn_scan_sought (given : Option (List Task)) (h : w.locate directory = .ok place)
    (hdirectory : w.tree.find? place = some .directory) :
    ∃ n v, (scan settings false directory given).runOn w =
      (.ok (n, sought settings directory place w given), v) ∧ OnlyEvents w v := by
  cases given with
  | none =>
      obtain ⟨v, hrun, hquiet⟩ := @runOn_scan w directory place settings false h hdirectory
      exact ⟨_, v, hrun, hquiet⟩
  | some tasks =>
      obtain ⟨v, hrun, hquiet⟩ := @runOn_discover w directory place settings.selection h hdirectory
      refine ⟨(w.tree.wanted directory place settings.selection).length, v, ?_, hquiet⟩
      rw [scan, runOn_bind_of_ok hrun]
      rfl

/-- Tasks that are found fit. -/
theorem isFitting_of_mem_tasksIn (hready : IsReady settings directory b place w)
    (hw : w.tree.WellFormed) {task : Task}
    (htask : task ∈ tasksIn w directory place settings.selection) : IsFitting document w task := by
  obtain ⟨hpath, hfound⟩ := mem_tasksIn_iff.mp htask
  obtain ⟨name, -, hname, hfile, -⟩ := hready.exists_name hw hpath
  refine ⟨hname ▸ Path.isNamed_child hfile.toIsName, fun hsame => ?_⟩
  obtain ⟨bytes, hcontent, htask⟩ := exists_content_of_mem_tasksAt hfound
  obtain ⟨k, body, hk, hline, -⟩ := mem_tasksOf_iff.mp htask
  have hlt := (List.getElem?_eq_some_iff.mp hk).1
  rw [length_withoutBom, Text.bodies, List.length_map] at hlt
  have hbytes : bytesAt document w = bytes := by
    rw [← bytesAt_of_content hcontent, bytesAt, bytesAt, hsame]
  exact ⟨k, by rwa [hbytes], hline⟩

/-- The entries of the issues of some tasks were written, from a workspace in which no file had
changed yet. -/
structure Entered (settings : Settings) (directory document : Path) (given : Option (List Task))
    (all : List Workspace) (w : Workspace) (b : Backups) (place : Place)
    (pairs : List (Task × Issue)) (v₁ u : Workspace) (n : Nat) : Prop where
  ready : IsReady settings directory b place w
  fitting : ∀ task ∈ sought settings directory place w given, IsFitting document w task
  unheld : ∀ task ∈ sought settings directory place w given,
    ¬b.Holds task.path.name w.cwd (document.resolve w.cwd)
  tasks : ∀ e ∈ pairs, e.1 ∈ sought settings directory place w given
  isBasic : ∀ e ∈ pairs, ∀ c ∈ e.2.id, c.IsBasic
  ne_nil : pairs.map Prod.snd ≠ []
  before_mem : v₁ ∈ all
  mem : u ∈ all
  frame : Frame (fun _ => False) w v₁
  append : (Document.append document (pairs.map Prod.snd)).runOn v₁ = (.ok n, u)

namespace Entered

variable {pairs : List (Task × Issue)} {v₁ u : Workspace} {n : Nat}
  (h : Entered settings directory document given all w b place pairs v₁ u n)

include h in
theorem cwd : u.cwd = w.cwd := by
  have hframe := @frame_append document (pairs.map Prod.snd) v₁ (fun _ => True) trivial
  rw [h.append] at hframe
  exact hframe.cwd.trans h.frame.cwd

/-- From there on the tasks are marked. -/
def stage : Stage where
  backups := b
  files := (sought settings directory place w given).map Task.path
  document
  ids := (pairs.map Prod.snd).map Issue.id
  entries := bytesOf ((pairs.map Prod.snd).flatMap Issue.render)
  lines := (Text.lines (decode (bytesAt document v₁))).length
  start := u
  isNamed := by
    intro p hp
    obtain ⟨task, htask, rfl⟩ := List.mem_map.mp hp
    exact (h.fitting task htask).isNamed
  isBasic := by
    intro id hid
    obtain ⟨i, hi, rfl⟩ := List.mem_map.mp hid
    obtain ⟨e, he, rfl⟩ := List.mem_map.mp hi
    exact h.isBasic e he
  unheld := by
    intro p hp
    obtain ⟨task, htask, rfl⟩ := List.mem_map.mp hp
    rw [h.cwd]
    exact h.unheld task htask

theorem progress : h.stage.Progress u := h.stage.progress_start h.ne_nil h.append rfl rfl

theorem noneDangling (hv : h.stage.Emptying v) : NoneDangling b
    ((sought settings directory place w given).map Task.path) document (pairs.map Prod.snd) u v :=
  hv.noneDangling rfl rfl

include h in
theorem reached (hv : NoneDangling b ((sought settings directory place w given).map Task.path)
    document (pairs.map Prod.snd) u v) : Reached settings directory document given all w v :=
  .behind h.ready.backups h.ready.located h.ne_nil h.before_mem h.mem h.frame h.append hv

include h in
/-- No marker dangles while the tasks are marked. -/
theorem through_markAll : Script.Through (Reached settings directory document given all w)
    (Reached settings directory document given all w) (Script.markAll b pairs) u := by
  have hpairs : ∀ e ∈ pairs, h.stage.Admits e.1 e.2.id := by
    intro e he
    have htask := h.tasks e he
    refine ⟨List.mem_map_of_mem htask, List.mem_map_of_mem (List.mem_map_of_mem he), fun hsame => ?_⟩
    change e.1.path.resolve u.cwd = document.resolve u.cwd at hsame
    rw [h.cwd] at hsame
    obtain ⟨k, hk, hline⟩ := (h.fitting e.1 htask).line hsame
    rw [← bytesAt_of_frame h.frame id] at hk
    exact ⟨k, hk, hline⟩
  exact (h.progress.through_markAll hpairs).mono (fun v hv => h.reached (h.noneDangling hv))
    fun v hv => h.reached (h.noneDangling (Or.inl hv))

include h in
/-- No marker dangles while the entries are written, nor behind that if none does in what follows. -/
theorem through_append {α : Type} {f : Nat → Script α}
    (hrest : ∀ n, Script.Through (Reached settings directory document given all w)
      (Reached settings directory document given all w) (f n) u) :
    Script.Through (Reached settings directory document given all w)
      (Reached settings directory document given all w)
      (Script.appendIssues document (pairs.map Prod.snd) >>= f) v₁ := by
  refine Script.through_bind (Script.through_of_points fun v hv => ?_) fun n' u' hrun _ => ?_
  · rcases points_appendIssues h.ne_nil hv with hbefore | ⟨n', u', hrun, htree, hcwd⟩
    · exact .before ((Unwritten.of_frame h.frame).trans hbefore)
    · obtain ⟨-, rfl⟩ := Prod.mk.inj (h.append.symm.trans hrun)
      exact h.reached ((h.noneDangling (Or.inl h.progress)).congr htree hcwd)
  · rw [Script.work_appendIssues] at hrun
    obtain ⟨-, rfl⟩ := Prod.mk.inj (h.append.symm.trans hrun)
    exact hrest n'

end Entered

/-- Where the entries cannot be written no file changes. -/
theorem through_of_append_error {α : Type} {issues : List Issue} {f : Nat → Script α} {fault : Fault}
    {v₁ u : Workspace} (hne : issues ≠ []) (hframe : Frame (fun _ => False) w v₁)
    (happend : (Document.append document issues).runOn v₁ = (.error fault, u)) :
    Script.Through (Reached settings directory document given all w)
      (Reached settings directory document given all w)
      (Script.appendIssues document issues >>= f) v₁ := by
  refine Script.through_bind (Script.through_of_points fun v hv => ?_) fun n u hrun _ => ?_
  · rcases points_appendIssues hne hv with hbefore | ⟨n, u, hrun, -⟩
    · exact .before ((Unwritten.of_frame hframe).trans hbefore)
    · rw [happend] at hrun
      cases hrun
  · rw [Script.work_appendIssues, happend] at hrun
    cases hrun

/-- No point of the making, writing and marking of issues leaves a marker dangling. -/
theorem through_collect (hready : IsReady settings directory b place w)
    (hfitting : ∀ task ∈ sought settings directory place w given, IsFitting document w task)
    (hkept : ∀ task ∈ sought settings directory place w given,
      ¬b.Holds task.path.name w.cwd (document.resolve w.cwd))
    (htasks : ∀ task ∈ tasks, task ∈ sought settings directory place w given)
    (hne : tasks ≠ []) (hquiet : OnlyEvents w w₀)
    (hall : ∀ v ∈ (Script.collect settings b document tasks).points w₀, v ∈ all) :
    Script.Through (Reached settings directory document given all w)
      (Reached settings directory document given all w)
      (Script.collect settings b document tasks) w₀ := by
  rw [Script.collect] at hall ⊢
  have h₀ : Frame (fun _ => False) w w₀ := hquiet.frame
  refine Script.through_bind_of_subset hall
    (Script.through_lift (.of_frame (h₀.trans frame_now))) fun now w₁ hnow hall₁ _ => ?_
  have h₁ : Frame (fun _ => False) w w₁ := by
    obtain ⟨-, rfl⟩ := Prod.mk.inj hnow
    exact h₀.trans frame_now
  have hpairs := sameFiles_mapM_issueFor settings now tasks w₁
  refine Script.through_bind_of_subset hall₁
    (Script.through_lift (.of_frame (h₁.trans hpairs.frame))) fun pairs v₁ hmade hall₂ _ => ?_
  rw [Script.work_lift] at hmade
  rw [hmade] at hpairs
  have h₂ : Frame (fun _ => False) w v₁ := h₁.trans hpairs.frame
  obtain ⟨hfst, -, hissues⟩ := runOn_mapM_issueFor hmade
  have hsome := issues_ne_nil hfst hne
  rcases happend : (Document.append document (pairs.map Prod.snd)).runOn v₁ with ⟨fault | n, u⟩
  · exact through_of_append_error hsome h₂ happend
  have hentered : Entered settings directory document given all w b place pairs v₁ u n :=
    { ready := hready
      fitting := hfitting
      unheld := hkept
      tasks := fun e he => htasks e.1 (hfst ▸ List.mem_map_of_mem he)
      isBasic := fun e he c hc => (hissues.isSlug_id he c hc).isVisible.isBasic
      ne_nil := hsome
      before_mem := hall₁ _ (Script.mem_points_bind_iff.mpr
        (Or.inl (Script.mem_points_lift_iff.mpr (by rw [hmade]))))
      mem := by
        have hlast := (Script.appendIssues document (pairs.map Prod.snd)).runOn_mem_points v₁
        rw [Script.work_appendIssues, happend] at hlast
        exact hall₂ u (Script.mem_points_bind_iff.mpr (Or.inl hlast))
      frame := h₂
      append := happend }
  exact hentered.through_append fun _ => Script.through_bind hentered.through_markAll
    fun _ v _ hv => Script.through_pure hv

/-- No point of a run in a directory that is there leaves a marker dangling. -/
theorem through_gatherIn (hready : IsReady settings directory b place w) (dryRun : Bool)
    (hfitting : ∀ task ∈ sought settings directory place w given, IsFitting document w task)
    (hkept : ∀ task ∈ sought settings directory place w given,
      ¬b.Holds task.path.name w.cwd (document.resolve w.cwd))
    (hall : ∀ v ∈ (Script.gatherIn settings b directory document dryRun given).points w, v ∈ all) :
    Script.Through (Reached settings directory document given all w)
      (Reached settings directory document given all w)
      (Script.gatherIn settings b directory document dryRun given) w := by
  rw [Script.gatherIn] at hall ⊢
  have hstarted : OnlyEvents w { w with events := w.events ++ [.gatherStarted directory dryRun] } :=
    .report _ w
  refine Script.through_bind_of_subset hall (Script.through_lift (.of_frame hstarted.frame))
    fun _ w₁ hreport hall₁ _ => ?_
  obtain ⟨-, rfl⟩ := Prod.mk.inj hreport
  obtain ⟨count, w₂, hscan, hscanned⟩ := @runOn_scan_sought settings directory place
    { w with events := w.events ++ [.gatherStarted directory dryRun] } given hready.located
    hready.isDirectory
  have h₂ := hstarted.trans hscanned
  refine Script.through_bind_of_subset hall₁ (Script.through_lift
    (.of_frame (by rw [hscan]; exact h₂.frame))) fun found w₂' hfound hall₂ _ => ?_
  rw [Script.work_lift, hscan] at hfound
  obtain ⟨hpair, rfl⟩ := Prod.mk.inj hfound
  obtain rfl := Except.ok.inj hpair
  obtain ⟨w₃, hread, hexisting⟩ := runOn_existingIssues document w₂
  have hafter : ((existingIssues document).runOn w₂).2 = w₃ := by
    rcases hexisting with ⟨is, -, hrun⟩ | ⟨-, fault, -, hrun⟩ <;> rw [hrun]
  have h₃ := h₂.trans hread
  refine Script.through_bind_of_subset hall₂ (Script.through_lift
    (.of_frame (by rw [hafter]; exact h₃.frame))) fun existing w₃' hrun hall₃ _ => ?_
  rw [Script.work_lift] at hrun
  obtain rfl : w₃' = w₃ := by rw [← hafter, hrun]
  refine Script.through_bind_of_subset hall₃ (Script.through_lift (.of_frame h₃.frame))
    fun cwd w₄ hcwd hall₄ _ => ?_
  obtain ⟨-, rfl⟩ := Prod.mk.inj hcwd
  have hconclude : ∀ result v, Reached settings directory document given all w v →
      Script.Through (Reached settings directory document given all w)
        (Reached settings directory document given all w) (liftM (conclude result)) v :=
    fun result v hv => Script.through_lift (hv.of_onlyEvents (.report _ v))
  simp only at hall₄ ⊢
  split_ifs at hall₄ ⊢ with hdone
  · exact hconclude _ _ (.of_frame h₃.frame)
  · rw [Bool.or_eq_true, not_or, List.isEmpty_iff] at hdone
    refine Script.through_bind (through_collect hready hfitting hkept
      (fun task htask => (List.mem_filter.mp htask).1) hdone.2 h₃ fun v hv => hall₄ v ?_)
      fun made v _ hv => hconclude _ v hv
    exact Script.mem_points_bind_iff.mpr (Or.inl hv)

/-- No point of a run leaves a marker dangling. -/
theorem through_gather (hw : w.tree.WellFormed) (dryRun : Bool)
    (hgiven : ∀ tasks, given = some tasks → ∀ task ∈ tasks, IsFitting document w task)
    (hkept : ∀ b place, settings.backups w.cwd = .ok b → w.locate directory = .ok place →
      ∀ task ∈ sought settings directory place w given,
        ¬b.Holds task.path.name w.cwd (document.resolve w.cwd))
    (hall : ∀ v ∈ (Script.gather settings directory document dryRun given).points w, v ∈ all) :
    Script.Through (Reached settings directory document given all w)
      (Reached settings directory document given all w)
      (Script.gather settings directory document dryRun given) w := by
  rw [Script.gather] at hall ⊢
  refine Script.through_bind_of_subset hall
    (Script.through_lift (.of_frame (by rw [runOn_ask]; exact .refl w))) fun b w₁ hask hall₁ _ => ?_
  rw [Script.work_lift, runOn_ask] at hask
  obtain ⟨hb, rfl⟩ := Prod.mk.inj hask
  refine Script.through_bind_of_subset hall₁ (Script.through_lift
    (.of_frame (by rw [isDirectory_unchanged]; exact .refl w))) fun there w₁ hthere hall₂ _ => ?_
  rw [Script.work_lift, runOn_isDirectory] at hthere
  obtain ⟨hnode, rfl⟩ := Prod.mk.inj hthere
  cases there with
  | false =>
      exact Script.through_bind (Script.through_throw (.of_frame (.refl w))) fun _ v hrun _ => by
        cases hrun
  | true =>
      obtain ⟨place, hlocate, hplace⟩ : ∃ place, w.locate directory = .ok place ∧
          w.tree.find? place = some .directory := by
        rw [← node?_eq_directory_iff]
        cases hdirectory : w.node? directory with
        | error fault => simp [hdirectory, Except.map] at hnode
        | ok node => simpa [hdirectory, Except.map] using hnode
      have hready : IsReady settings directory b place w := ⟨hb, hlocate, hplace⟩
      refine through_gatherIn hready dryRun ?_ (hkept b place hb hlocate) hall₂
      cases given with
      | none => exact fun task htask => isFitting_of_mem_tasksIn hready hw htask
      | some tasks => exact hgiven tasks rfl

theorem Reached.unwritten (h : Reached settings directory document given all w v)
    (hfails : ∀ issues v₁ n u, issues ≠ [] → v₁ ∈ all → u ∈ all →
      (Document.append document issues).runOn v₁ ≠ (.ok n, u)) : Unwritten document w v := by
  cases h with
  | before hunwritten => exact hunwritten
  | behind _ _ hne hv₁ hu _ happend _ => exact absurd happend (hfails _ _ _ _ hne hv₁ hu)

/-- At every point of a run, whether it returns or raises an exception, each marker that the run has
put into a file names an issue whose entry is in the document. Where no entries are written no file
changes. The points follow each other by one change of a file or a directory at a time. -/
theorem run_leaves_no_marker_dangling (hw : w.tree.WellFormed) (dryRun : Bool)
    (hgiven : ∀ tasks, given = some tasks → ∀ task ∈ tasks, IsFitting document w task)
    (hkept : ∀ b place, settings.backups w.cwd = .ok b → w.locate directory = .ok place →
      ∀ task ∈ sought settings directory place w given,
        ¬b.Holds task.path.name w.cwd (document.resolve w.cwd)) :
    let script := Script.gather settings directory document dryRun given
    script.work = run settings directory document dryRun given ∧
      (script.points w).getLast? =
        some ((run settings directory document dryRun given).runOn w).2 ∧
      (w :: script.points w).IsChain OneChange ∧
      (∀ v ∈ script.points w, Reached settings directory document given (script.points w) w v) ∧
      ((∀ issues v₁ n u, issues ≠ [] → v₁ ∈ script.points w → u ∈ script.points w →
          (Document.append document issues).runOn v₁ ≠ (.ok n, u)) →
        ∀ v ∈ script.points w, Unwritten document w v) := by
  intro script
  have hwork : script.work = run settings directory document dryRun given :=
    Script.work_gather settings directory document dryRun given
  have hreached := (through_gather hw dryRun hgiven hkept fun v hv => hv).points
  refine ⟨hwork, ?_, (Script.steps_gather settings directory document dryRun given).isChain w,
    hreached, fun hfails v hv => (hreached v hv).unwritten hfails⟩
  rw [← hwork]
  exact script.getLast?_points w

end Run

/-- On the way the file is emptied. -/
theorem run_leaves_no_marker_dangling_twoOnLine :
    let script := Script.gather .default ⟨.relative, []⟩ ⟨.relative, ["orgi.org"]⟩ false none
    twoOnLine.tree.WellFormed ∧
      (∀ v ∈ script.points twoOnLine, Reached .default ⟨.relative, []⟩ ⟨.relative, ["orgi.org"]⟩ none
        (script.points twoOnLine) twoOnLine v) ∧
      ∃ v ∈ script.points twoOnLine, v.textAt ⟨.relative, ["a.c"]⟩ = [] := by
  intro script
  obtain ⟨hw, -⟩ := twoOnLine_spec
  refine ⟨hw, (run_leaves_no_marker_dangling hw false (fun _ h => by cases h)
    fun b place hb _ task _ hheld => ?_).2.2.2.1, by decide +kernel⟩
  obtain rfl : ⟨Backups.defaultDirectory, 10⟩ = b := Except.ok.inj hb
  exact absurd hheld.covers (by decide +kernel)

/-- The document is a source file itself. -/
def documentAmongFiles : Workspace :=
  .ofFiles ["w"] [("a.py", "# TODO: b
"), ("d.py", "# TODO: c
")]

/-- A marker is left dangling where the document is taken for a backup and pruned, and for a while
where the document is marked itself and emptied for that. -/
theorem run_leaves_marker_dangling :
    ((run backupsBeside ⟨.relative, []⟩ ⟨.relative, ["a.py.backup-0"]⟩ false none).runOn
        documentAmongBackups).2.textAt ⟨.relative, ["a.py"]⟩ =
          "# TODO: [orgi:gather-20251218-143045-00000000] b\n" ∧
      ((run backupsBeside ⟨.relative, []⟩ ⟨.relative, ["a.py.backup-0"]⟩ false none).runOn
        documentAmongBackups).2.tree.find? ["w", "a.py.backup-0"] = none ∧
      ∃ v ∈ (Script.gather .default ⟨.relative, []⟩ ⟨.relative, ["d.py"]⟩ false none).points
          documentAmongFiles,
        v.textAt ⟨.relative, ["a.py"]⟩ = "# TODO: [orgi:gather-20251218-143045-00000000] b\n" ∧
          v.tree.find? ["w", "d.py"] = some (.file []) := by
  decide +kernel

end Gather

end TodoLedger
