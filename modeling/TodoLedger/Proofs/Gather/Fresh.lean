import TodoLedger.Proofs.Gather.Course
/-!
# Gathering into a new document

Where there is no document yet every task that is found becomes an issue. The run fails only if an
operation on files fails. It leaves a document that lists an issue for each task, and files whose
lines are marked where tasks were found.
-/

namespace TodoLedger.Gather

open Work Workspace Utf8 Document

variable {settings : Settings} {b : Backups} {directory document : Path} {place : Place}
  {tasks : List Task} {w w' v : Workspace} {g : Gathered} {task : Task} {issue : Issue}

/-! ## How a run fails -/

theorem failsIn_mark (hslash : Rune.ofChar '/' ∉ task.path.name) (w : Workspace) :
    FailsIn Fault.IsOfFiles (mark b task issue) w := by
  refine failsIn_handled (Patch.failsIn_apply hslash w) fun f w₁ _ hf => ?_
  rcases hf with hfiles | rfl
  · cases hfiles with
    | encoding f => exact failsIn_throw (.encoding f)
    | nullByte => exact failsIn_throw .nullByte
    | file f => exact failsIn_throw (.file f)
  · exact failsIn_bind (failsIn_of_ok (runOn_report _)) fun _ _ _ => failsIn_pure _

/-- Issues of tasks that can be written are made without a fault. -/
theorem failsIn_mapM_issueFor {P : Fault → Prop} {Q : Text → Prop} {now : DateTime}
    (h : ∀ task ∈ tasks, task.IsWritable Q w.cwd) :
    FailsIn P (tasks.mapM (issueFor settings now)) w := by
  induction tasks generalizing w with
  | nil => exact failsIn_pure _
  | cons task tasks ih =>
      obtain ⟨htask, hrest⟩ := List.forall_mem_cons.mp h
      obtain ⟨token, v, hv, hnext⟩ : ∃ token v, v.cwd = w.cwd ∧
          nextToken.runOn w = (.ok token, v) := ⟨_, _, rfl, runOn_nextToken⟩
      obtain ⟨issue, hissue⟩ := @exists_ofTask Q task token w.cwd now settings.titleLimit htask
      have hone : (issueFor settings now task).runOn w = (.ok (task, issue), v) := by
        rw [issueFor, runOn_bind_of_ok hnext, runOn_bind_of_ok runOn_cwd, hv, hissue]
        rfl
      rw [List.mapM_cons]
      refine failsIn_bind (failsIn_of_ok hone) fun pair w₁ hpair => ?_
      obtain ⟨-, rfl⟩ := Prod.mk.inj (hone.symm.trans hpair)
      exact failsIn_bind (ih (by rwa [hv])) fun _ _ _ => failsIn_pure _

theorem failsIn_collect (h : ∀ task ∈ tasks, task.IsWritable Text.FitsLine w.cwd ∧
    Rune.ofChar '/' ∉ task.path.name) :
    FailsIn Fault.IsOfFiles (collect settings b document tasks) w := by
  rw [collect]
  refine failsIn_bind (failsIn_of_ok runOn_now) fun now w₁ hnow => ?_
  rw [runOn_now] at hnow
  obtain ⟨-, rfl⟩ := Prod.mk.inj hnow
  refine failsIn_bind (failsIn_mapM_issueFor fun task htask => (h task htask).1) fun pairs w₂ hpairs => ?_
  obtain ⟨hfst, -⟩ := runOn_mapM_issueFor hpairs
  refine failsIn_bind (failsIn_append document _ w₂) fun _ w₃ _ => ?_
  refine failsIn_bind (failsIn_mapM (fun e he => failsIn_mark ?_) w₃) fun _ _ _ => failsIn_pure _
  exact (h e.1 (hfst ▸ List.mem_map_of_mem he)).2

/-- Where a first run starts: there is no document, the files bear names that are kept on one line and
are not too long, and neither they nor the document are taken for backups of one of them. -/
structure IsFresh (settings : Settings) (directory document : Path) (b : Backups) (place : Place)
    (w : Workspace) : Prop extends IsReady settings directory b place w where
  wellFormed : w.tree.WellFormed
  year : 1000 ≤ w.clock.year
  size : ∀ p ∈ w.tree.wanted directory place settings.selection, ∀ bytes,
    w.content p = .ok bytes → (decode bytes).length < 10 ^ Text.maxDigits
  placed : ∀ p ∈ w.tree.wanted directory place settings.selection,
    Text.BreakFree (p.relativeTo w.cwd) ∧ Text.IsTrimmed (p.relativeTo w.cwd)
  isNew : IsNew document w
  clear : Clear b document w.cwd (w.tree.wanted directory place settings.selection)
    (w.tree.wanted directory place settings.selection)
  kept : ∀ q ∈ w.tree.wanted directory place settings.selection,
    ¬b.Holds q.name w.cwd (document.resolve w.cwd)

/-- Into a new document a run fails only where an operation on files fails. -/
theorem IsFresh.failsIn_run (h : IsFresh settings directory document b place w) :
    FailsIn Fault.IsOfFiles (run settings directory document false none) w := by
  obtain ⟨v, hv, ⟨is, -, heq⟩ | ⟨-, fault, hfault, heq⟩⟩ := runOn_run document false h.toIsReady
  · have htasks : ∀ task ∈ unknown w.cwd (tasksIn w directory place settings.selection) is,
        task.IsWritable Text.FitsLine v.cwd ∧ Rune.ofChar '/' ∉ task.path.name := by
      intro task htask
      obtain ⟨hpath, hfound⟩ := of_mem_unknown htask
      obtain ⟨name, -, hname, hfile, -⟩ := h.exists_name h.wellFormed hpath
      rw [hv.cwd]
      refine ⟨h.isWritable h.wellFormed h.size hpath hfound, ?_⟩
      rw [hname]
      exact (Path.isNamed_child hfile.toIsName).isName.noSlash
    intro f w' hrun
    rw [heq, Bool.false_or] at hrun
    split_ifs at hrun with hempty
    · rw [runOn_conclude] at hrun
      cases hrun
    · refine failsIn_bind (failsIn_collect htasks) (fun made u _ => ?_) f w' hrun
      exact failsIn_bind (failsIn_of_ok (runOn_report _)) fun _ _ _ => failsIn_pure _
  · intro f w' hrun
    rw [heq] at hrun
    obtain ⟨hsame, -⟩ := Prod.mk.inj hrun
    rw [← Except.error.inj hsame]
    exact hfault h.isNew

theorem IsFresh.of_onlyEvents (h : IsFresh settings directory document b place w)
    (hquiet : OnlyEvents w v) : IsFresh settings directory document b place v := by
  obtain ⟨added, rfl⟩ := hquiet
  exact ⟨h.toIsReady.of_onlyEvents ⟨added, rfl⟩, h.wellFormed, h.year, h.size, h.placed, h.isNew,
    h.clear, h.kept⟩

/-! ## What a run leaves -/

/-- The issue is linked to the file and the line of the task. -/
structure Links (cwd : Place) (task : Task) (j : Issue) : Prop where
  isLinked : j.isLinked = true
  file : j.sourceFile? = some (task.file cwd)
  line : ∃ n : Nat, task.line = n ∧ j.sourceLine? = some n

theorem Links.pointsAt {cwd : Place} {j : Issue} (h : Links cwd task j) :
    j.pointsAt (task.file cwd) task.line = true := by
  obtain ⟨n, hn, hline⟩ := h.line
  rw [Issue.pointsAt, h.isLinked, h.file, hline, hn]
  simp

theorem Links.restate {cwd : Place} {j : Issue} (h : Links cwd task j) (s : State) :
    Links cwd task { j with state := s } := ⟨h.isLinked, h.file, h.line⟩

/-- A document lists an issue for each task, and the files have changed by markers on lines of tasks
only. -/
structure IsGathered (b : Backups) (document : Path) (files : List Path) (tasks : List Task)
    (w w' : Workspace) (js : List Issue) : Prop where
  frame : Frame (Reaches b document files w.cwd) w w'
  files : ∀ p ∈ files, ∀ bytes, w.content p = .ok bytes → ∃ bytes', w'.content p = .ok bytes' ∧
    Advances (HasTask tasks p) (Text.lines (decode bytes)) (Text.lines (decode bytes'))
  listed : ∃ bytes, w'.content document = .ok bytes ∧ readDocument (decode bytes) = .ok js
  linked : List.Forall₂ (Links w.cwd) tasks js
  restated : ∀ s, ∃ bytes, readDocument (decode bytes) = .ok (js.map fun j => { j with state := s })

/-- What is written of issues comes back from its bytes, whatever their states are. -/
theorem isStable_writtenLines {issues : List Issue}
    (hissues : ∀ i ∈ issues, i.IsWritable Text.FitsLine) (states : Issue → State) :
    IsStable (Text.ofBodies (writtenLines issues states)) :=
  Text.isStable_ofBodies
    (@fits_of_mem_writtenLines Text.FitsLine issues states Text.lineClass_fitsLine hissues)

/-- A new document is just what is written of the issues. -/
theorem content_of_append_isNew {issues : List Issue} {u : Workspace} {n : Nat} (hnew : IsNew document v)
    (hne : issues ≠ []) (hissues : ∀ i ∈ issues, i.IsWritable Text.FitsLine)
    (happend : (append document issues).runOn v = (.ok n, u)) :
    u.content document = .ok (bytesOf (Text.ofBodies (writtenLines issues Issue.state))) := by
  obtain ⟨-, bytes, hencode, hcontent⟩ := content_of_append hne happend
  obtain rfl := Except.ok.inj
    ((isStable_appended hissues hne (decode (bytesAt document v))).1.encode.symm.trans hencode)
  rw [hcontent, hnew.bytesAt, flatMap_render]
  rfl

theorem IsFresh.isGathered {issues : List Issue} {patches : List Patch}
    (h : IsFresh settings directory document b place w)
    (hsome : tasksIn w directory place settings.selection ≠ [])
    (hrun : (collect settings b document (tasksIn w directory place settings.selection)).runOn w =
      (.ok (issues, patches), w')) :
    ∃ js, IsGathered b document (w.tree.wanted directory place settings.selection)
      (tasksIn w directory place settings.selection) w w' js := by
  obtain ⟨pairs, hcollects, hwritable⟩ :=
    h.collects h.wellFormed h.year h.size h.clear (fun _ htask => htask) hrun
  obtain ⟨v, u, n, ⟨htree, hcwd⟩, happend, hframe, hkeeps⟩ := hcollects.course
  have hQ := Text.lineClass_fitsLine
  have hissues := forall_issues hwritable
  have hstable := isStable_writtenLines hissues
  have hnew : IsNew document v := by
    rw [IsNew, htree, hcwd]
    exact h.isNew
  have hlisted :=
    content_of_append_isNew hnew (issues_ne_nil hcollects.from_tasks hsome) hissues happend
  have hdocument := content_document_of_touches hframe.cwd hkeeps.frame
    (fun p hp => (h.clear p hp).1) h.kept hlisted
  obtain ⟨js, hread, hall⟩ := @readDocument_writtenLines _ _ Issue.state hQ hissues
  refine ⟨js, hcollects.frame, fun p hp bytes hbytes => ?_, ⟨_, hdocument, ?_⟩, ?_, fun s =>
    ⟨bytesOf (Text.ofBodies (writtenLines (pairs.map Prod.snd) fun _ => s)), ?_⟩⟩
  · exact hkeeps.files p hp bytes (hframe.content hbytes (h.clear p hp).1)
  · rw [(hstable _).decode_bytesOf, hread]
  · rw [← hcollects.from_tasks, List.forall₂_map_left_iff]
    rw [List.forall₂_map_left_iff] at hall
    refine forall₂_imp_of_mem hall fun e he j hyields => ?_
    obtain ⟨token, htoken, hissue⟩ := hcollects.made e he
    have hmem := hcollects.from_tasks ▸ List.mem_map_of_mem he
    have hfile := h.isPlaced h.wellFormed h.placed (mem_tasksIn_iff.mp hmem).1
    obtain ⟨-, hlinked, hsource, hline⟩ :=
      isLinked_of_yields (hwritable e he).1 hissue hQ htoken h.year hfile hyields
    exact ⟨hlinked, hsource, hline⟩
  · rw [(hstable fun _ => s).decode_bytesOf, readDocument_writtenLines_state hQ hissues s hread]

/-- A run into a new document changes nothing if no task is found, and else gathers all tasks. -/
theorem IsFresh.gathers_of_run (h : IsFresh settings directory document b place w)
    (hrun : (run settings directory document false none).runOn w = (.ok g, w')) :
    (tasksIn w directory place settings.selection = [] ∧ OnlyEvents w w') ∨
      ∃ js, IsGathered b document (w.tree.wanted directory place settings.selection)
        (tasksIn w directory place settings.selection) w w' js := by
  obtain ⟨is, v, hlists, -, hv, hcourse⟩ := run_eq_ok h.toIsReady hrun
  obtain rfl : is = [] := by
    cases hlists with
    | missing _ _ => rfl
    | refused hcontent _ => exact absurd hcontent (h.isNew.content _)
    | read hcontent _ => exact absurd hcontent (h.isNew.content _)
  have hunknown : unknown w.cwd (tasksIn w directory place settings.selection) [] =
      tasksIn w directory place settings.selection :=
    List.filter_eq_self.mpr fun _ _ => rfl
  rw [hunknown] at hcourse
  rcases hcourse with ⟨hnone, hv', -⟩ | ⟨hsome, u, hcollect, hu⟩
  · exact Or.inl ⟨hnone, hv.trans hv'⟩
  · rw [← tasksIn_of_onlyEvents hv] at hsome hcollect
    obtain ⟨js, hgathered⟩ := (h.of_onlyEvents hv).isGathered hsome hcollect
    obtain ⟨bytes, hdocument, hread⟩ := hgathered.listed
    obtain ⟨added, rfl⟩ := hv
    have hstart : OnlyEvents w { w with events := w.events ++ added } := ⟨added, rfl⟩
    refine Or.inr ⟨js, (hstart.frame.trans hgathered.frame).trans hu.frame, fun p hp start hbytes => ?_,
      ⟨bytes, by rw [hu.content, hdocument], hread⟩, hgathered.linked, hgathered.restated⟩
    rw [hu.content]
    exact hgathered.files p hp start hbytes

end TodoLedger.Gather
