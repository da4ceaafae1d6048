import TodoLedger.Gather
import TodoLedger.Proofs.Backup
import TodoLedger.Proofs.Gather.Course
import TodoLedger.Proofs.Workspace.Script
/-!
# A gather run step by step

Backups, patches and a gather run as scripts. Whatever only reads, reports or uses up a token is one
step; each change of a file or a directory is a step of its own.
-/

namespace TodoLedger

open Work Workspace

/-! ## What only looks -/

theorem OnlyEvents.sameFiles {w v : Workspace} (h : OnlyEvents w v) : SameFiles w v := by
  obtain ⟨added, rfl⟩ := h
  exact ⟨rfl, rfl, List.prefix_append _ _⟩

theorem Work.sameFiles_discover (directory : Path) (s : Selection) (w : Workspace) :
    SameFiles w ((discover directory s).runOn w).2 := by
  rw [discover]
  refine moves_bind (moves_of_unchanged (isDirectory_unchanged directory w)) fun there w₁ _ _ => ?_
  split_ifs
  · exact moves_bind (refl w₁) fun _ w₂ hrun _ => by cases hrun
  refine moves_bind (refl w₁) fun v w₂ _ _ => ?_
  refine moves_bind (moves_of_unchanged (by rw [runOn_ask])) fun place w₃ _ _ => ?_
  refine moves_bind ?_ fun _ w₄ _ _ => moves_bind (sameFiles_report _ w₄) fun _ w₅ _ _ => refl w₅
  obtain ⟨u, hrun, hquiet⟩ := runOn_forM_report Event.fileExcluded
    ((candidates s (v.tree.children place)).filter s.excludes) w₃
  rw [hrun]
  exact hquiet.sameFiles

theorem Gather.sameFiles_scan (settings : Settings) (withMarked : Bool) (directory : Path)
    (given : Option (List Task)) (w : Workspace) :
    SameFiles w ((scan settings withMarked directory given).runOn w).2 := by
  rw [scan]
  refine moves_bind (sameFiles_discover directory _ w) fun files w₁ _ _ => ?_
  cases given with
  | some tasks => exact refl w₁
  | none =>
      refine moves_bind ?_ fun _ w₂ _ _ => refl w₂
      obtain ⟨v, hrun, hquiet⟩ := @runOn_ofFiles withMarked files w₁
      rw [hrun]
      exact hquiet.sameFiles

theorem Gather.sameFiles_existingIssues (document : Path) (w : Workspace) :
    SameFiles w ((existingIssues document).runOn w).2 := by
  obtain ⟨v, hquiet, hrun⟩ := runOn_existingIssues document w
  rcases hrun with ⟨is, -, hrun⟩ | ⟨-, fault, -, hrun⟩
  · rw [hrun]
    exact hquiet.sameFiles
  · rw [hrun]
    exact hquiet.sameFiles

theorem Gather.sameFiles_mapM_issueFor (settings : Settings) (now : DateTime) (tasks : List Task)
    (w : Workspace) : SameFiles w ((tasks.mapM (issueFor settings now)).runOn w).2 := by
  induction tasks generalizing w with
  | nil => exact refl w
  | cons task tasks ih =>
      rw [List.mapM_cons]
      refine moves_bind ?_ fun pair w₁ _ _ => moves_bind (ih w₁) fun _ w₂ _ _ => refl w₂
      rw [issueFor, runOn_bind_of_ok runOn_nextToken, runOn_bind_of_ok runOn_cwd]
      split <;> exact ⟨rfl, rfl, List.prefix_refl _⟩

theorem Backups.sameFiles_old (b : Backups) (name : Text) (w : Workspace) :
    SameFiles w ((b.old name).runOn w).2 := by
  rw [old]
  refine moves_tryCatch (moves_bind ?_ fun _ w₁ _ _ => refl w₁) fun fault w₁ _ _ => ?_
  · rw [existing]
    split_ifs
    · exact moves_bind (refl w) fun _ w₁ hrun _ => by cases hrun
    refine moves_bind (moves_of_unchanged (isDirectory_unchanged _ w)) fun there w₁ _ _ => ?_
    split_ifs
    · refine moves_bind (refl w₁) fun v w₂ _ _ => ?_
      exact moves_bind (moves_of_unchanged (by rw [runOn_ask])) fun _ w₃ _ _ => refl w₃
    · exact refl w₁
  · split
    · exact moves_bind (sameFiles_report _ w₁) fun _ w₂ _ _ => refl w₂
    · exact refl w₁

theorem Backups.oneChange_copy (source target : Path) (w : Workspace) :
    OneChange w ((copy source target).runOn w).2 := by
  rcases copy_cases source target w with ⟨fault, hrun⟩ | ⟨bytes, place, -, -, -, -, hrun⟩
  · rw [hrun]
    exact refl w
  · rw [hrun]
    exact ⟨rfl, Or.inr (Or.inl ⟨place, _, rfl⟩)⟩

/-! ## Scripts -/

namespace Script

/-- What follows a refusal does not matter. -/
private theorem throw_bind {α β : Type} (fault : Fault) (f g : α → Work β) :
    (MonadExcept.throw fault : Work α) >>= f = MonadExcept.throw fault >>= g := rfl

theorem steps_of_sameFiles {α : Type} {x : Work α} (h : ∀ w, SameFiles w (x.runOn w).2) :
    (liftM x : Script α).Steps OneChange := .lift fun w => (h w).oneChange

theorem steps_report (e : Event) : (liftM (report e) : Script Unit).Steps OneChange :=
  steps_of_sameFiles (sameFiles_report e)

theorem steps_of_unchanged {α : Type} {x : Work α} (h : ∀ w, (x.runOn w).2 = w) :
    (liftM x : Script α).Steps OneChange := .lift fun w => by rw [h w]; exact refl w

/-- Adding the entries of issues at the end of a document. -/
def appendIssues (path : Path) (issues : List Issue) : Script Nat := do
  if issues.isEmpty then return 0
  ensureDirectories path.parent
  let old ← (do if ← pathExists path then readBytes path else pure [] : Work Bytes)
  let separator : Text := if endsLine old then "" else "\n"
  appendText path (separator ++ issues.flatMap Issue.render)
  report (.issuesAppended path issues.length)
  return issues.length

theorem work_appendIssues (path : Path) (issues : List Issue) :
    (appendIssues path issues).work = Document.append path issues := by
  rw [appendIssues, Document.append]
  split_ifs
  · rfl
  · simp only [work_bind, work_lift, work_ensureDirectories, work_appendText, work_pure, bind_assoc,
      pure_bind]
    congr 1
    funext _
    congr 1
    funext there
    cases there <;> simp

theorem steps_appendIssues (path : Path) (issues : List Issue) :
    (appendIssues path issues).Steps OneChange := by
  rw [appendIssues]
  split_ifs
  · exact .pure _
  refine .bind steps_ensureDirectories fun _ => .bind (steps_of_unchanged fun w => ?_) fun old => ?_
  · exact unchanged_read (by rw [runOn_pathExists])
  · exact .bind steps_appendText fun _ => .bind (steps_report _) fun _ => .pure _

/-- Deleting files, those that resist excepted. -/
def deleteAll : List Path → Script Unit
  | [] => return
  | p :: ps => do
    try deleteFile p
    catch fault => match fault with
      | .file _ => report (.pruneFailed p.text fault.message)
      | _ => throw fault
    deleteAll ps

theorem work_deleteAll (paths : List Path) :
    (deleteAll paths).work = Backups.deleteAll paths := by
  induction paths with
  | nil => rfl
  | cons p ps ih =>
      rw [deleteAll, Backups.deleteAll, work_bind, work_tryCatch, ih]
      congr 2
      funext fault
      cases fault <;> rfl

theorem steps_deleteAll (paths : List Path) : (deleteAll paths).Steps OneChange := by
  induction paths with
  | nil => exact .pure _
  | cons p ps ih =>
      rw [deleteAll]
      refine .bind (.tryCatch (.lift (oneChange_deleteFile p)) fun fault => ?_) fun _ => ih
      split
      · exact steps_report _
      · exact .throw _

/-- The old backups of a file name are looked up at once and deleted one by one. -/
def prune (b : Backups) (name : Text) : Script Unit := do
  let old ← b.old name
  deleteAll old

theorem work_prune (b : Backups) (name : Text) : (prune b name).work = b.prune name := by
  rw [prune, Backups.prune_eq, work_bind, work_lift]
  simp only [work_deleteAll]

theorem steps_prune (b : Backups) (name : Text) : (prune b name).Steps OneChange :=
  .bind (steps_of_sameFiles (b.sameFiles_old name)) steps_deleteAll

/-- Backing a file up. -/
def create (b : Backups) (source : Path) : Script Path := do
  ensureDirectories b.directory
  let backup := b.backupPath source.name (← now)
  Backups.copy source backup
  report (.backupCreated source backup)
  prune b source.name
  return backup

theorem work_create (b : Backups) (source : Path) : (create b source).work = b.create source := by
  rw [create, Backups.create]
  simp only [work_bind, work_lift, work_ensureDirectories, work_prune, work_pure]

theorem steps_create (b : Backups) (source : Path) : (create b source).Steps OneChange :=
  .bind steps_ensureDirectories fun _ => .bind (steps_of_sameFiles sameFiles_now) fun _ =>
    .bind (.lift (Backups.oneChange_copy _ _)) fun _ => .bind (steps_report _) fun _ =>
      .bind (steps_prune b _) fun _ => .pure _

/-- Applying an edit to a file that is there. -/
def attempt (b : Backups) (path : Path) (e : Edit) : Script Patch := do
  let text ← readText path
  match ← (ask fun _ => e.apply path (Text.lines text) : Work Edited) with
  | .unchanged message =>
    report (.editUnchanged path e.operation)
    return ⟨path, .unchanged, message⟩
  | .changed lines message =>
    let _ ← create b path
    writeText path (Text.ofLines lines)
    return ⟨path, .applied, message⟩

theorem work_attempt (b : Backups) (path : Path) (e : Edit) :
    (attempt b path e).work = Patch.attempt b path e := by
  rw [attempt, Patch.attempt]
  simp only [work_bind, work_lift]
  congr 1
  funext text
  congr 1
  funext edited
  cases edited with
  | unchanged message => rfl
  | changed lines message => simp only [work_bind, work_create, work_writeText, work_pure]

theorem steps_attempt (b : Backups) (path : Path) (e : Edit) :
    (attempt b path e).Steps OneChange := by
  rw [attempt]
  refine .bind (steps_of_unchanged fun w => by rw [runOn_readText]) fun text =>
    .bind (steps_of_unchanged fun w => by rw [runOn_ask]) fun edited => ?_
  split
  · exact .bind (steps_report _) fun _ => .pure _
  · exact .bind (steps_create b path) fun _ => .bind steps_writeText fun _ => .pure _

/-- Applying an edit to a file. -/
def edit (b : Backups) (path : Path) (e : Edit) : Script Patch := do
  if !(← isFile path) then throw (.sourceMissing path)
  try
    let patch ← attempt b path e
    if patch.isChange then report (.editApplied path e.operation)
    pure patch
  catch fault =>
    if fault.isReported then
      report (.editFailed path e.operation fault.message fault.kind)
      pure ⟨path, .failed, "Failed to " ++ e.operation.name ++ ": " ++ fault.message⟩
    else throw fault

theorem work_edit (b : Backups) (path : Path) (e : Edit) :
    (edit b path e).work = Patch.apply b path e := by
  rw [edit, Patch.apply]
  simp only [work_bind, work_lift]
  congr 1
  funext there
  cases there with
  | false => exact throw_bind _ _ _
  | true =>
      simp only [Bool.not_true, Bool.false_eq_true, if_false, work_tryCatch, work_bind, work_attempt]
      congr 1
      · congr 1
        funext patch
        split_ifs <;> rfl
      · funext fault
        split_ifs <;> rfl

theorem steps_edit (b : Backups) (path : Path) (e : Edit) : (edit b path e).Steps OneChange := by
  rw [edit]
  refine .bind (steps_of_unchanged (isFile_unchanged path)) fun there => .refuse fun _ => ?_
  refine .tryCatch (.bind (steps_attempt b path e) fun patch => ?_) fun fault => ?_
  · split_ifs
    · exact .bind (steps_report _) fun _ => .pure _
    · exact .pure _
  · split_ifs
    · exact .bind (steps_report _) fun _ => .pure _
    · exact .throw _

/-- Marking the line of a task. -/
def mark (b : Backups) (task : Task) (issue : Issue) : Script Patch := do
  try edit b task.path (.insertMarker task issue.id)
  catch fault => match fault with
    | .sourceMissing _ =>
      report (.markingFailed task.path fault.message)
      pure ⟨task.path, .failed, fault.message⟩
    | _ => throw fault

theorem work_mark (b : Backups) (task : Task) (issue : Issue) :
    (mark b task issue).work = Gather.mark b task issue := by
  rw [mark, Gather.mark, work_tryCatch, work_edit]
  congr 1
  funext fault
  cases fault <;> rfl

theorem steps_mark (b : Backups) (task : Task) (issue : Issue) :
    (mark b task issue).Steps OneChange := by
  rw [mark]
  refine .tryCatch (steps_edit b task.path _) fun fault => ?_
  split
  · exact .bind (steps_report _) fun _ => .pure _
  · exact .throw _

/-- Marking the lines of some tasks. -/
def markAll (b : Backups) : List (Task × Issue) → Script (List Patch)
  | [] => return []
  | e :: pairs => do
    let patch ← mark b e.1 e.2
    let patches ← markAll b pairs
    return patch :: patches

theorem work_markAll (b : Backups) (pairs : List (Task × Issue)) :
    (markAll b pairs).work = pairs.mapM fun e => Gather.mark b e.1 e.2 := by
  induction pairs with
  | nil => rfl
  | cons e pairs ih =>
      rw [List.mapM_cons, markAll]
      simp only [work_bind, work_mark, ih, work_pure]

theorem steps_markAll (b : Backups) (pairs : List (Task × Issue)) :
    (markAll b pairs).Steps OneChange := by
  induction pairs with
  | nil => exact .pure _
  | cons e pairs ih => exact .bind (steps_mark b e.1 e.2) fun _ => .bind ih fun _ => .pure _

/-- Making issues of tasks, writing them to the document and marking the tasks. -/
def collect (settings : Settings) (b : Backups) (document : Path) (tasks : List Task) :
    Script (List Issue × List Patch) := do
  let now ← now
  let pairs ← (tasks.mapM (Gather.issueFor settings now) : Work (List (Task × Issue)))
  let _ ← appendIssues document (pairs.map Prod.snd)
  let patches ← markAll b pairs
  return (pairs.map Prod.snd, patches)

theorem work_collect (settings : Settings) (b : Backups) (document : Path) (tasks : List Task) :
    (collect settings b document tasks).work = Gather.collect settings b document tasks := by
  rw [collect, Gather.collect]
  simp only [work_bind, work_lift, work_appendIssues, work_markAll, work_pure]

theorem steps_collect (settings : Settings) (b : Backups) (document : Path) (tasks : List Task) :
    (collect settings b document tasks).Steps OneChange :=
  .bind (steps_of_sameFiles sameFiles_now) fun now =>
    .bind (steps_of_sameFiles (Gather.sameFiles_mapM_issueFor settings now tasks)) fun pairs =>
      .bind (steps_appendIssues document _) fun _ => .bind (steps_markAll b pairs) fun _ => .pure _

/-- A gather run in a directory that is there. -/
def gatherIn (settings : Settings) (b : Backups) (directory document : Path) (dryRun : Bool)
    (given : Option (List Task)) : Script Gathered := do
  report (.gatherStarted directory dryRun)
  let (scanned, tasks) ← Gather.scan settings false directory given
  let existing ← Gather.existingIssues document
  let cwd ← cwd
  let unmatched := tasks.filter fun t => !t.isKnown cwd existing
  let result : Gathered :=
    { scanned, found := tasks.length, existing := existing.length, unmatched := unmatched.length,
      dryRun, newIssues := [], patches := [] }
  if dryRun || unmatched.isEmpty then Gather.conclude result
  else
    let (newIssues, patches) ← collect settings b document unmatched
    Gather.conclude { result with newIssues, patches }

/-- A gather run. -/
def gather (settings : Settings) (directory document : Path) (dryRun : Bool)
    (given : Option (List Task)) : Script Gathered := do
  let b ← (ask fun w => settings.backups w.cwd : Work Backups)
  if !(← isDirectory directory) then throw (.sourceDirectoryMissing directory)
  gatherIn settings b directory document dryRun given

theorem work_gather (settings : Settings) (directory document : Path) (dryRun : Bool)
    (given : Option (List Task)) : (gather settings directory document dryRun given).work =
      Gather.run settings directory document dryRun given := by
  rw [gather, Gather.run]
  simp only [work_bind, work_lift]
  congr 1
  funext b
  congr 1
  funext there
  cases there with
  | false => exact throw_bind _ _ _
  | true =>
      simp only [Bool.not_true, Bool.false_eq_true, if_false, gatherIn, work_bind, work_lift]
      congr 1
      funext _
      congr 1
      funext scanned
      congr 1
      funext existing
      congr 1
      funext cwd
      split_ifs
      · rfl
      · rw [work_bind, work_collect]
        rfl

theorem steps_gatherIn (settings : Settings) (b : Backups) (directory document : Path)
    (dryRun : Bool) (given : Option (List Task)) :
    (gatherIn settings b directory document dryRun given).Steps OneChange := by
  have hconclude : ∀ result, (liftM (Gather.conclude result) : Script Gathered).Steps OneChange :=
    fun _ => .lift fun _ => ⟨rfl, Or.inl rfl⟩
  refine .bind (steps_report _) fun _ =>
    .bind (steps_of_sameFiles (Gather.sameFiles_scan settings false directory given)) fun found =>
    .bind (steps_of_sameFiles (Gather.sameFiles_existingIssues document)) fun existing =>
    .bind (steps_of_sameFiles fun w => refl w) fun cwd => ?_
  simp only
  split_ifs
  · exact hconclude _
  · exact .bind (steps_collect settings b document _) fun _ => hconclude _

/-- A gather run changes one file or directory at a time. -/
theorem steps_gather (settings : Settings) (directory document : Path) (dryRun : Bool)
    (given : Option (List Task)) :
    (gather settings directory document dryRun given).Steps OneChange :=
  .bind (steps_of_unchanged fun w => by rw [runOn_ask]) fun b =>
    .bind (steps_of_unchanged (isDirectory_unchanged directory)) fun _ =>
      .refuse fun _ => steps_gatherIn settings b directory document dryRun given

end Script

end TodoLedger
