import TodoLedger.Proofs.Document.Storage
import TodoLedger.Proofs.Gather.Issue
import TodoLedger.Proofs.Gather.Marking
import TodoLedger.Proofs.Workspace.WellFormed
/-!
# The course of a gather run

A run scans the directory and reads the document, which adds events only. Where every task is known it
ends there; else it makes issues of the others, appends them to the document and marks their lines.
-/

namespace TodoLedger

open Work Workspace Utf8 Document

namespace OnlyEvents

variable {w v : Workspace}

theorem tree (h : OnlyEvents w v) : v.tree = w.tree := by
  obtain ⟨added, rfl⟩ := h
  rfl

theorem cwd (h : OnlyEvents w v) : v.cwd = w.cwd := by
  obtain ⟨added, rfl⟩ := h
  rfl

theorem clock (h : OnlyEvents w v) : v.clock = w.clock := by
  obtain ⟨added, rfl⟩ := h
  rfl

theorem frame {touched : Place → Prop} (h : OnlyEvents w v) : Frame touched w v := by
  obtain ⟨added, rfl⟩ := h
  exact .of_tree_eq rfl rfl (List.prefix_append _ _)

theorem lists_iff {p : Path} {is : List Issue} (h : OnlyEvents w v) :
    Lists p v is ↔ Lists p w is :=
  ⟨fun hlists => hlists.of_tree_eq h.tree.symm h.cwd.symm, fun hlists => hlists.of_tree_eq h.tree h.cwd⟩

end OnlyEvents

theorem Document.IsNew.of_onlyEvents {document : Path} {w v : Workspace} (h : IsNew document w)
    (hquiet : OnlyEvents w v) : IsNew document v := by
  obtain ⟨added, rfl⟩ := hquiet
  exact h

namespace Gather

variable {settings : Settings} {b : Backups} {directory document : Path} {place : Place}
  {is : List Issue} {tasks : List Task} {w w' v : Workspace} {g : Gathered}

/-! ## The issues that are there -/

/-- Of a document that is refused at a line a run takes that it holds nothing. -/
theorem runOn_existingIssues_of_content {bytes : Bytes} (h : w.content document = .ok bytes) :
    ∃ v, OnlyEvents w v ∧ (existingIssues document).runOn w =
      match readDocument (decode bytes) with
      | .ok issues => (.ok issues, v)
      | .error (.document _ _) => (.ok [], v)
      | .error fault => (.error (.read fault), w) := by
  have hfile : (isFile document).runOn w = (.ok true, w) := by
    rw [runOn_isFile, node?_eq_file_iff.mpr h]
    rfl
  rw [existingIssues, runOn_bind_of_ok hfile]
  simp only [Bool.not_true, Bool.false_eq_true, if_false]
  rw [runOn_tryCatch, runOn_load h]
  cases readDocument (decode bytes) with
  | ok issues => exact ⟨_, .report _ w, rfl⟩
  | error fault =>
      cases fault with
      | document line cause => exact ⟨_, .report _ w, rfl⟩
      | tooManyDigits n => exact ⟨w, .refl w, rfl⟩
      | noDraft => exact ⟨w, .refl w, rfl⟩
      | noEntry phase => exact ⟨w, .refl w, rfl⟩

/-- A document that is refused for no fault of a line holds nothing that a run can go on with. -/
private theorem not_lists {bytes : Bytes} {fault : ReadFault} (hcontent : w.content document = .ok bytes)
    (hread : readDocument (decode bytes) = .error fault)
    (hfault : ∀ line cause, fault ≠ .document line cause) : ∀ is, ¬Lists document w is := by
  intro is hlists
  cases hlists with
  | missing hnode hfile => exact Lists.content_ne_of_missing hnode hfile hcontent
  | refused hcontent' herror =>
      obtain rfl := Except.ok.inj (hcontent.symm.trans hcontent')
      exact hfault _ _ (Except.error.inj (hread.symm.trans herror))
  | read hcontent' hread' =>
      obtain rfl := Except.ok.inj (hcontent.symm.trans hcontent')
      cases hread.symm.trans hread'

/-- Of a document that cannot be looked up it is not known what it holds, and the run is ended by that
fault. -/
private theorem runOn_existingIssues_of_node?_error {fault : Fault} (hnode : w.node? document = .error fault) :
    (∀ is, ¬Lists document w is) ∧ fault.IsOfFiles ∧
      (existingIssues document).runOn w = (.error fault, w) := by
  have hcontent : ∀ bytes, w.content document ≠ .ok bytes := by
    intro bytes hbytes
    rw [node?_eq_file_iff.mpr hbytes] at hnode
    cases hnode
  refine ⟨fun is hlists => ?_, ?_, ?_⟩
  · cases hlists with
    | missing hnode' _ => simp [hnode] at hnode'
    | refused hbytes _ => exact hcontent _ hbytes
    | read hbytes _ => exact hcontent _ hbytes
  · exact failsIn_node? (Fault.admits_isOfFiles document) fault w (by rw [runOn_node?, hnode])
  · rw [existingIssues]
    exact runOn_bind_of_error (by rw [runOn_isFile, hnode]; rfl)

/-- What a document holds is found, or the run is ended by a fault. Where there is none yet, that is
the fault of an operation on files. -/
theorem runOn_existingIssues (document : Path) (w : Workspace) : ∃ v, OnlyEvents w v ∧
    ((∃ is, Lists document w is ∧ (existingIssues document).runOn w = (.ok is, v)) ∨
      (∀ is, ¬Lists document w is) ∧ ∃ fault, (IsNew document w → fault.IsOfFiles) ∧
        (existingIssues document).runOn w = (.error fault, v)) := by
  cases hnode : w.node? document with
  | error fault =>
      obtain ⟨hnone, hfault, hrun⟩ := runOn_existingIssues_of_node?_error hnode
      exact ⟨w, .refl w, Or.inr ⟨hnone, fault, fun _ => hfault, hrun⟩⟩
  | ok node =>
      cases hfile : isFileNode node with
      | false =>
          have hthere : (isFile document).runOn w = (.ok false, w) := by
            rw [runOn_isFile, hnode]
            exact congrArg (fun there => (Except.ok there, w)) hfile
          refine ⟨_, .report (.documentMissing document) w,
            Or.inl ⟨[], .missing hnode hfile, ?_⟩⟩
          rw [existingIssues, runOn_bind_of_ok hthere]
          rfl
      | true =>
          obtain ⟨bytes, rfl⟩ : ∃ bytes, node = some (.file bytes) := by
            rcases node with _ | _ | bytes
            · cases hfile
            · cases hfile
            · exact ⟨bytes, rfl⟩
          have hcontent := node?_eq_file_iff.mp hnode
          have hold : ∀ fault : Fault, IsNew document w → fault.IsOfFiles :=
            fun _ hnew => absurd hcontent (hnew.content _)
          obtain ⟨v, hv, hrun⟩ := runOn_existingIssues_of_content hcontent
          split at hrun
          next issues hread => exact ⟨v, hv, Or.inl ⟨issues, .read hcontent hread, hrun⟩⟩
          next line cause hread => exact ⟨v, hv, Or.inl ⟨[], .refused hcontent hread, hrun⟩⟩
          next fault hfault hread =>
            exact ⟨w, .refl w, Or.inr ⟨not_lists hcontent hread hfault, _, hold _, hrun⟩⟩

/-! ## The run -/

/-- The unmarked tasks of the wanted files of a directory. -/
def tasksIn (w : Workspace) (directory : Path) (place : Place) (s : Selection) : List Task :=
  (w.tree.wanted directory place s).flatMap w.tasksAt

theorem tasksIn_of_onlyEvents {s : Selection} (h : OnlyEvents w v) :
    tasksIn v directory place s = tasksIn w directory place s := by
  have htasks : v.tasksAt = w.tasksAt := funext h.tasksAt
  rw [tasksIn, tasksIn, h.tree, htasks]

theorem mem_tasksIn_iff {s : Selection} {task : Task} : task ∈ tasksIn w directory place s ↔
    task.path ∈ w.tree.wanted directory place s ∧ task ∈ w.tasksAt task.path := by
  rw [tasksIn, List.mem_flatMap]
  constructor
  · rintro ⟨p, hp, htask⟩
    obtain ⟨bytes, -, hmem⟩ := exists_content_of_mem_tasksAt htask
    rw [(isFound_of_mem_tasksOf hmem).path]
    exact ⟨hp, htask⟩
  · rintro ⟨hp, htask⟩
    exact ⟨_, hp, htask⟩

/-- The tasks that none of the issues points at. -/
def unknown (cwd : Place) (tasks : List Task) (is : List Issue) : List Task :=
  tasks.filter fun t => !t.isKnown cwd is

theorem of_mem_unknown {s : Selection} {task : Task}
    (h : task ∈ unknown w.cwd (tasksIn w directory place s) is) :
    task.path ∈ w.tree.wanted directory place s ∧ task ∈ w.tasksAt task.path :=
  mem_tasksIn_iff.mp (List.mem_filter.mp h).1

/-- Where a run can start: a directory is scanned and backups can be made. -/
structure IsReady (settings : Settings) (directory : Path) (b : Backups) (place : Place)
    (w : Workspace) : Prop where
  backups : settings.backups w.cwd = .ok b
  located : w.locate directory = .ok place
  isDirectory : w.tree.find? place = some .directory

theorem IsReady.frame {touched : Place → Prop} (h : IsReady settings directory b place w)
    (hframe : Frame touched w v) : IsReady settings directory b place v where
  backups := by
    rw [hframe.cwd]
    exact h.backups
  located := hframe.locate h.located
  isDirectory := hframe.directories _ h.isDirectory

theorem IsReady.of_onlyEvents (h : IsReady settings directory b place w) (hquiet : OnlyEvents w v) :
    IsReady settings directory b place v := by
  obtain ⟨added, rfl⟩ := hquiet
  exact ⟨h.backups, h.located, h.isDirectory⟩

/-- A wanted file stands in the directory under a name that the system can give. -/
theorem IsReady.exists_name {p : Path} (h : IsReady settings directory b place w)
    (hw : w.tree.WellFormed) (hp : p ∈ w.tree.wanted directory place settings.selection) :
    ∃ name node, p = directory.child name ∧ Path.IsFileName name ∧
      p.resolve w.cwd = place ++ [name] ∧ w.tree.find? (place ++ [name]) = some node ∧
      ∀ s ∈ p.resolve w.cwd, Path.IsFileName s := by
  obtain ⟨name, node, rfl, hnode⟩ := exists_of_mem_wanted hp
  have hnames := hw.names _ _ hnode
  have hname := hnames name (by simp)
  have hplace : (directory.child name).resolve w.cwd = place ++ [name] := by
    rw [Path.resolve_child hname.ne_dotDot, eq_resolve_of_locate h.located]
  exact ⟨name, node, rfl, hname, hplace, hnode, hplace ▸ hnames⟩

/-- A wanted file that is still there is still wanted. -/
theorem IsReady.mem_wanted_of_content {p : Path} {start bytes : Bytes}
    (h : IsReady settings directory b place w) (hw : w.tree.WellFormed)
    (hp : p ∈ w.tree.wanted directory place settings.selection) (hstart : w.content p = .ok start)
    (hcwd : v.cwd = w.cwd) (hcontent : v.content p = .ok bytes) :
    p ∈ v.tree.wanted directory place settings.selection := by
  obtain ⟨name, node, rfl, -, hplace, -⟩ := h.exists_name hw hp
  obtain ⟨q, hlocate, hfile⟩ := content_eq_ok_iff.mp hstart
  obtain ⟨q', hlocate', hfile'⟩ := content_eq_ok_iff.mp hcontent
  rw [eq_resolve_of_locate hlocate, hplace] at hfile
  rw [eq_resolve_of_locate hlocate', hcwd, hplace] at hfile'
  exact (mem_wanted_iff hfile').mpr ((mem_wanted_iff hfile).mp hp)

/-- The wanted files stand at places of their own. -/
theorem IsReady.separate (h : IsReady settings directory b place w) (hw : w.tree.WellFormed)
    (hunheld : ∀ p ∈ w.tree.wanted directory place settings.selection,
      ∀ q ∈ w.tree.wanted directory place settings.selection,
        ¬b.Holds q.name w.cwd (p.resolve w.cwd)) :
    Separate b w.cwd (w.tree.wanted directory place settings.selection) where
  isNamed := by
    intro p hp
    obtain ⟨name, -, rfl, hname, -⟩ := h.exists_name hw hp
    exact Path.isNamed_child hname.toIsName
  unheld := hunheld
  injective := by
    intro p hp q hq hsame
    obtain ⟨name, -, rfl, -, hplace, -⟩ := h.exists_name hw hp
    obtain ⟨name', -, rfl, -, hplace', -⟩ := h.exists_name hw hq
    rw [hplace, hplace', List.append_cancel_left_eq, List.singleton_inj] at hsame
    rw [hsame]

/-- The result of a run that knows these issues, before any is made. -/
def survey (settings : Settings) (directory : Path) (place : Place) (w : Workspace) (is : List Issue)
    (dryRun : Bool) : Gathered where
  scanned := (w.tree.wanted directory place settings.selection).length
  found := (tasksIn w directory place settings.selection).length
  existing := is.length
  unmatched := (unknown w.cwd (tasksIn w directory place settings.selection) is).length
  dryRun := dryRun
  newIssues := []
  patches := []

theorem runOn_conclude (result : Gathered) (w : Workspace) : (conclude result).runOn w =
    (.ok result, { w with events := w.events ++ [.gatherCompleted result.counts] }) := rfl

/-- A run that is ready reads the document. There a dry run ends; every other run goes on with the tasks
that no issue points at. -/
theorem runOn_run (document : Path) (dryRun : Bool) (h : IsReady settings directory b place w) :
    ∃ v, OnlyEvents w v ∧
      ((∃ is, Lists document w is ∧ (run settings directory document dryRun none).runOn w =
          (if dryRun || (unknown w.cwd (tasksIn w directory place settings.selection) is).isEmpty then
            conclude (survey settings directory place w is dryRun)
          else do
            let (newIssues, patches) ← collect settings b document
              (unknown w.cwd (tasksIn w directory place settings.selection) is)
            conclude { survey settings directory place w is dryRun with newIssues, patches }).runOn v) ∨
      (∀ is, ¬Lists document w is) ∧ ∃ fault, (IsNew document w → fault.IsOfFiles) ∧
        (run settings directory document dryRun none).runOn w = (.error fault, v)) := by
  have hbackups : (ask fun w => settings.backups w.cwd : Work Backups).runOn w = (.ok b, w) := by
    rw [runOn_ask, h.backups]
  have hthere := runOn_isDirectory_of_locate h.located h.isDirectory
  have hready : OnlyEvents w { w with events := w.events ++ [.gatherStarted directory dryRun] } :=
    .report _ w
  obtain ⟨v₁, hscan, hv₁⟩ := @runOn_scan
    { w with events := w.events ++ [.gatherStarted directory dryRun] } directory place settings false
    h.located h.isDirectory
  have hquiet := hready.trans hv₁
  obtain ⟨v, hv, hdocument⟩ := runOn_existingIssues document v₁
  have hstart : (run settings directory document dryRun none).runOn w =
      (existingIssues document >>= fun existing => do
        let cwd ← cwd
        let unmatched := unknown cwd (tasksIn w directory place settings.selection) existing
        let result : Gathered :=
          { scanned := (w.tree.wanted directory place settings.selection).length
            found := (tasksIn w directory place settings.selection).length
            existing := existing.length, unmatched := unmatched.length, dryRun
            newIssues := [], patches := [] }
        if dryRun || unmatched.isEmpty then conclude result
        else do
          let (newIssues, patches) ← collect settings b document unmatched
          conclude { result with newIssues, patches }).runOn v₁ := by
    rw [run, runOn_bind_of_ok hbackups, runOn_bind_of_ok hthere]
    simp only [Bool.not_true, Bool.false_eq_true, if_false]
    rw [runOn_bind_of_ok (runOn_report _), runOn_bind_of_ok hscan]
    rfl
  refine ⟨v, hquiet.trans hv, ?_⟩
  rcases hdocument with ⟨is, hlists, hrun⟩ | ⟨hnone, fault, hfault, hrun⟩
  · left
    have hcwd : (cwd : Work Place).runOn v = (.ok w.cwd, v) := by
      rw [runOn_cwd, (hquiet.trans hv).cwd]
    rw [hstart, runOn_bind_of_ok hrun, runOn_bind_of_ok hcwd]
    exact ⟨is, hquiet.lists_iff.mp hlists, rfl⟩
  · right
    refine ⟨fun is hlists => hnone is (hquiet.lists_iff.mpr hlists), fault, fun hnew => ?_, ?_⟩
    · exact hfault (hnew.of_onlyEvents hquiet)
    · rw [hstart, runOn_bind_of_error hrun]

/-- Without a directory to scan or a place for backups a run does nothing. -/
theorem run_of_not_ready {dryRun : Bool} (h : ¬∃ b place, IsReady settings directory b place w) :
    ∃ fault, (run settings directory document dryRun none).runOn w = (.error fault, w) := by
  cases hb : settings.backups w.cwd with
  | error fault => exact ⟨fault, runOn_bind_of_error (by rw [runOn_ask, hb])⟩
  | ok b =>
      have hbackups : (ask fun w => settings.backups w.cwd : Work Backups).runOn w = (.ok b, w) := by
        rw [runOn_ask, hb]
      rw [run, runOn_bind_of_ok hbackups]
      rcases hthere : (isDirectory directory).runOn w with ⟨answer, v⟩
      obtain rfl : w = v := by
        rw [runOn_isDirectory] at hthere
        exact (Prod.mk.inj hthere).2
      rcases answer with fault | there
      · exact ⟨fault, runOn_bind_of_error hthere⟩
      · cases there with
        | true =>
            obtain ⟨-, place, hlocate, hplace⟩ := exists_locate_of_isDirectory hthere
            exact absurd ⟨b, place, hb, hlocate, hplace⟩ h
        | false => exact ⟨_, by rw [runOn_bind_of_ok hthere]; rfl⟩

/-- A run that returns had a directory to scan and a place for backups. -/
theorem isReady_of_run (hrun : (run settings directory document false none).runOn w = (.ok g, w')) :
    ∃ b place, IsReady settings directory b place w := by
  by_contra hnot
  obtain ⟨fault, hrefused⟩ := @run_of_not_ready settings directory document w false hnot
  rw [hrefused] at hrun
  cases hrun

/-! ## Making issues -/

theorem id_eq_of_ofTask {cwd : Place} {task : Task} {issue : Issue} {token : Text} {now : DateTime}
    {limit : Int} (h : Issue.ofTask cwd task token now limit = .ok issue) :
    issue.id = gatheredId now token := by
  rw [Issue.ofTask] at h
  cases hhash : task.contentHash with
  | error f =>
      rw [hhash] at h
      cases h
  | ok hash =>
      rw [hhash] at h
      exact congrArg Issue.id (Except.ok.inj h).symm

/-- The issues are made of the tasks, each with the next token. -/
def MadeInTurn (settings : Settings) (now : DateTime) (w : Workspace) (pairs : List (Task × Issue)) :
    Prop :=
  ∀ k e, pairs[k]? = some e →
    Issue.ofTask w.cwd e.1 (w.token k) now settings.titleLimit = .ok e.2

namespace MadeInTurn

variable {now : DateTime} {pairs : List (Task × Issue)} {e : Task × Issue}

theorem nil (settings : Settings) (now : DateTime) (w : Workspace) :
    MadeInTurn settings now w [] := by
  intro k e he
  cases he

theorem exists_token (h : MadeInTurn settings now w pairs) (he : e ∈ pairs) : ∃ token,
    IsToken token ∧ Issue.ofTask w.cwd e.1 token now settings.titleLimit = .ok e.2 := by
  obtain ⟨k, hk⟩ := List.mem_iff_getElem?.mp he
  exact ⟨w.token k, w.isToken_token k, h k e hk⟩

theorem exists_visible (h : MadeInTurn settings now w pairs) (he : e ∈ pairs) : ∃ token,
    (∀ c ∈ token, c.IsVisible) ∧ Issue.ofTask w.cwd e.1 token now settings.titleLimit = .ok e.2 := by
  obtain ⟨token, htoken, hissue⟩ := h.exists_token he
  exact ⟨token, htoken.isVisible, hissue⟩

theorem isSlug_id (h : MadeInTurn settings now w pairs) (he : e ∈ pairs) :
    ∀ c ∈ e.2.id, c.IsSlug := by
  obtain ⟨token, htoken, hissue⟩ := h.exists_token he
  rw [id_eq_of_ofTask hissue]
  exact isSlug_gatheredId htoken.digits

/-- Issues with distinct tokens have distinct ids. -/
theorem nodup_ids (h : MadeInTurn settings now w pairs) (hdistinct : w.DrawsDistinct pairs.length) :
    (pairs.map fun e => e.2.id).Nodup := by
  rw [List.Nodup, List.pairwise_map, List.pairwise_iff_getElem]
  intro i j hi hj hlt hsame
  have hid : ∀ k (hk : k < pairs.length), pairs[k].2.id = gatheredId now (w.token k) :=
    fun k hk => id_eq_of_ofTask (h k pairs[k] (List.getElem?_eq_getElem hk))
  rw [hid i hi, hid j hj] at hsame
  have htokens : w.token i = w.token j := List.append_cancel_left hsame
  have heq : i = j := hdistinct i hi j hj htokens
  omega

end MadeInTurn

theorem runOn_mapM_issueFor {now : DateTime} {pairs : List (Task × Issue)}
    (hrun : (tasks.mapM (issueFor settings now)).runOn w = (.ok pairs, v)) :
    pairs.map Prod.fst = tasks ∧ (v.tree = w.tree ∧ v.cwd = w.cwd ∧ v.events = w.events) ∧
      MadeInTurn settings now w pairs := by
  induction tasks generalizing w pairs with
  | nil =>
      obtain ⟨hpairs, rfl⟩ := Prod.mk.inj hrun
      obtain rfl := Except.ok.inj hpairs
      exact ⟨rfl, ⟨rfl, rfl, rfl⟩, .nil settings now w⟩
  | cons task tasks ih =>
      obtain ⟨pair, w₁, others, hone, hothers, rfl⟩ := runOn_mapM_cons_eq_ok hrun
      rw [issueFor, runOn_bind_of_ok runOn_nextToken, runOn_bind_of_ok runOn_cwd] at hone
      cases hissue : Issue.ofTask w.cwd task (w.token 0) now settings.titleLimit with
      | error fault =>
          simp only [hissue] at hone
          cases hone
      | ok issue =>
          simp only [hissue] at hone
          obtain ⟨hpair, rfl⟩ := Prod.mk.inj hone
          obtain rfl := Except.ok.inj hpair
          obtain ⟨hfst, hsame, hmade⟩ := ih hothers
          refine ⟨by rw [List.map_cons, hfst], hsame, fun k e he => ?_⟩
          cases k with
          | zero =>
              obtain rfl := Option.some.inj he
              exact hissue
          | succ k =>
              rw [← Workspace.token_drawn]
              exact hmade k e he

/-- The issues are appended and the tasks are marked. -/
theorem collect_eq_ok {issues : List Issue} {patches : List Patch}
    (hrun : (collect settings b document tasks).runOn w = (.ok (issues, patches), w')) :
    ∃ (pairs : List (Task × Issue)) (v u : Workspace) (n : Nat),
      pairs.map Prod.fst = tasks ∧ pairs.map Prod.snd = issues ∧
      (v.tree = w.tree ∧ v.cwd = w.cwd ∧ v.events = w.events) ∧
      MadeInTurn settings w.clock w pairs ∧ (append document issues).runOn v = (.ok n, u) ∧
      (pairs.mapM fun e => mark b e.1 e.2).runOn u = (.ok patches, w') := by
  rw [collect, runOn_bind_of_ok runOn_now] at hrun
  obtain ⟨pairs, v, hmade, hrun⟩ := runOn_bind_eq_ok_iff.mp hrun
  obtain ⟨n, u, happend, hrun⟩ := runOn_bind_eq_ok_iff.mp hrun
  obtain ⟨all, u', hmark, hrun⟩ := runOn_bind_eq_ok_iff.mp hrun
  obtain ⟨hresult, rfl⟩ := Prod.mk.inj hrun
  obtain ⟨rfl, rfl⟩ := Prod.mk.inj (Except.ok.inj hresult)
  obtain ⟨hfst, hsame, hissues⟩ := runOn_mapM_issueFor hmade
  exact ⟨pairs, v, u, n, hfst, rfl, hsame, hissues, happend, hmark⟩

/-- Where there are tasks there are issues of them. -/
theorem issues_ne_nil {pairs : List (Task × Issue)} (hfst : pairs.map Prod.fst = tasks)
    (hne : tasks ≠ []) : pairs.map Prod.snd ≠ [] := by
  rw [Ne, List.map_eq_nil_iff]
  rintro rfl
  exact hne hfst.symm

/-- What is found in files that are not too long can be written. -/
theorem IsReady.isWritable (h : IsReady settings directory b place w) (hw : w.tree.WellFormed)
    (hsize : ∀ p ∈ w.tree.wanted directory place settings.selection, ∀ bytes,
      w.content p = .ok bytes → (decode bytes).length < 10 ^ Text.maxDigits) {task : Task}
    (hpath : task.path ∈ w.tree.wanted directory place settings.selection)
    (hfound : task ∈ w.tasksAt task.path) : task.IsWritable Text.FitsLine w.cwd := by
  obtain ⟨bytes, hcontent, hmem⟩ := exists_content_of_mem_tasksAt hfound
  obtain ⟨-, -, -, -, -, -, hnames⟩ := h.exists_name hw hpath
  exact isWritable_of_isStable (isStable_decode bytes) hmem (hsize _ hpath bytes hcontent)
    (Path.isStable_relativeTo hnames)

/-- The file of a task is named on one line if the files of the directory are. -/
theorem IsReady.isPlaced (h : IsReady settings directory b place w) (hw : w.tree.WellFormed)
    (hplaced : ∀ p ∈ w.tree.wanted directory place settings.selection,
      Text.BreakFree (p.relativeTo w.cwd) ∧ Text.IsTrimmed (p.relativeTo w.cwd)) {task : Task}
    (hpath : task.path ∈ w.tree.wanted directory place settings.selection) :
    task.IsPlaced w.cwd := by
  obtain ⟨-, -, -, -, -, -, hnames⟩ := h.exists_name hw hpath
  refine ⟨(hplaced _ hpath).1, (hplaced _ hpath).2, Path.text_ne_nil fun s hs => ?_⟩
  exact (Path.isName_of_mem_seenFrom (fun s hs => (hnames s hs).toIsName) s hs).toIsSegment

/-- Issues are made of tasks and appended, and the tasks are marked: from the one workspace to the
other the document has grown, and lines of tasks have begun markers. -/
structure Collects (settings : Settings) (b : Backups) (document : Path) (files : List Path)
    (tasks : List Task) (w w' : Workspace) (pairs : List (Task × Issue)) (patches : List Patch) :
    Prop where
  from_tasks : pairs.map Prod.fst = tasks
  made : ∀ e ∈ pairs, ∃ token, (∀ c ∈ token, c.IsVisible) ∧
    Issue.ofTask w.cwd e.1 token w.clock settings.titleLimit = .ok e.2
  course : ∃ (v u : Workspace) (n : Nat), (v.tree = w.tree ∧ v.cwd = w.cwd) ∧
    (append document (pairs.map Prod.snd)).runOn v = (.ok n, u) ∧
    Frame (· = document.resolve w.cwd) w u ∧ Keeps b files tasks u w'
  marked : (∀ patch ∈ patches, patch.isFailure = false) → ∀ task ∈ tasks, IsMarked w' task

/-- Neither the document nor a backup of the files is among those that are found. -/
def Clear (b : Backups) (document : Path) (cwd : Place) (files found : List Path) : Prop :=
  ∀ p ∈ found, p.resolve cwd ≠ document.resolve cwd ∧
    ∀ q ∈ files, ¬b.Holds q.name cwd (p.resolve cwd)

/-- Files that lie elsewhere than the backups are clear of them. -/
theorem clear_of_not_covers {cwd : Place} {files found : List Path}
    (h : ∀ p ∈ found, p.resolve cwd ≠ document.resolve cwd ∧ ¬b.Covers cwd (p.resolve cwd)) :
    Clear b document cwd files found :=
  fun p hp => ⟨(h p hp).1, fun _ _ hheld => (h p hp).2 hheld.covers⟩

/-- The places that a run may touch: those of the document, of the files and of their backups. -/
def Reaches (b : Backups) (document : Path) (files : List Path) (cwd place : Place) : Prop :=
  place = document.resolve cwd ∨ Touches b files cwd place

theorem Collects.frame {files : List Path} {pairs : List (Task × Issue)} {patches : List Patch}
    (h : Collects settings b document files tasks w w' pairs patches) :
    Frame (Reaches b document files w.cwd) w w' := by
  obtain ⟨v, u, n, -, -, hframe, hkeeps⟩ := h.course
  have hmarks := hkeeps.frame
  rw [hframe.cwd] at hmarks
  exact (hframe.mono fun _ => Or.inl).trans (hmarks.mono fun _ => Or.inr)

/-- Behind steps that add events only an append touches the document alone. -/
theorem frame_of_append {issues : List Issue} {u : Workspace} {n : Nat}
    (hsame : v.tree = w.tree ∧ v.cwd = w.cwd ∧ v.events = w.events)
    (happend : (append document issues).runOn v = (.ok n, u)) :
    Frame (· = document.resolve w.cwd) w u := by
  obtain ⟨htree, hcwd, hevents⟩ := hsame
  have happended := @frame_append document issues v (· = document.resolve w.cwd) (by rw [hcwd])
  rw [happend] at happended
  exact (Frame.of_tree_eq hcwd htree (hevents ▸ List.prefix_refl _)).trans happended

theorem collects_of_collect {files : List Path} {issues : List Issue} {patches : List Patch}
    (hfiles : Separate b w.cwd files)
    (hdocument : ∀ p ∈ files, p.resolve w.cwd ≠ document.resolve w.cwd)
    (htasks : ∀ task ∈ tasks, task.path ∈ files ∧ task ∈ w.tasksAt task.path)
    (hrun : (collect settings b document tasks).runOn w = (.ok (issues, patches), w')) :
    ∃ pairs, Collects settings b document files tasks w w' pairs patches := by
  obtain ⟨pairs, v, u, n, hfst, rfl, hsame, hmade, happend, hmark⟩ := collect_eq_ok hrun
  have hframe := frame_of_append hsame happend
  have hpairs : ∀ e ∈ pairs, e.1 ∈ tasks ∧ e.1.path ∈ files ∧ e.1 ∈ u.tasksAt e.1.path ∧
      ∀ c ∈ e.2.id, c.IsBasic := by
    intro e he
    have htask : e.1 ∈ tasks := hfst ▸ List.mem_map_of_mem he
    obtain ⟨hpath, hfound⟩ := htasks _ htask
    refine ⟨htask, hpath, ?_, fun c hc => (hmade.isSlug_id he c hc).isVisible.isBasic⟩
    obtain ⟨bytes, hcontent, hmem⟩ := exists_content_of_mem_tasksAt hfound
    have hcontent' := hframe.content hcontent (hdocument _ hpath)
    rw [Workspace.tasksAt, hcontent']
    exact hmem
  have hfilesThere : Separate b u.cwd files := by
    rw [hframe.cwd]
    exact hfiles
  obtain ⟨hkeeps, hmarked⟩ := keeps_mapM_mark hfilesThere hpairs (.refl u) hmark
  refine ⟨pairs, hfst, fun e he => hmade.exists_visible he,
    ⟨v, u, n, ⟨hsame.1, hsame.2.1⟩, happend, hframe, hkeeps⟩, fun hok task htask => ?_⟩
  rw [← hfst, List.mem_map] at htask
  obtain ⟨e, he, rfl⟩ := htask
  exact hmarked hok e he

/-- The issues that are made of tasks of the directory can be written. -/
theorem IsReady.isWritable_made {pairs : List (Task × Issue)}
    (h : IsReady settings directory b place w) (hw : w.tree.WellFormed)
    (hyear : 1000 ≤ w.clock.year)
    (hsize : ∀ p ∈ w.tree.wanted directory place settings.selection, ∀ bytes,
      w.content p = .ok bytes → (decode bytes).length < 10 ^ Text.maxDigits)
    (htasks : ∀ e ∈ pairs, e.1 ∈ tasksIn w directory place settings.selection)
    (hmade : ∀ e ∈ pairs, ∃ token, (∀ c ∈ token, c.IsVisible) ∧
      Issue.ofTask w.cwd e.1 token w.clock settings.titleLimit = .ok e.2) :
    ∀ e ∈ pairs, e.1.IsWritable Text.FitsLine w.cwd ∧ e.2.IsWritable Text.FitsLine := by
  intro e he
  obtain ⟨hpath, hfound⟩ := mem_tasksIn_iff.mp (htasks e he)
  have htask := h.isWritable hw hsize hpath hfound
  obtain ⟨token, htoken, hissue⟩ := hmade e he
  exact ⟨htask, isWritable_ofTask htask hissue Text.lineClass_fitsLine htoken hyear⟩

theorem forall_issues {pairs : List (Task × Issue)} {Q : Task → Prop} {R : Issue → Prop}
    (h : ∀ e ∈ pairs, Q e.1 ∧ R e.2) : ∀ i ∈ pairs.map Prod.snd, R i := by
  intro i hi
  obtain ⟨e, he, rfl⟩ := List.mem_map.mp hi
  exact (h e he).2

/-- Issues of tasks of the directory can be written. -/
theorem IsReady.collects (h : IsReady settings directory b place w) (hw : w.tree.WellFormed)
    (hyear : 1000 ≤ w.clock.year)
    (hsize : ∀ p ∈ w.tree.wanted directory place settings.selection, ∀ bytes,
      w.content p = .ok bytes → (decode bytes).length < 10 ^ Text.maxDigits)
    (hclear : Clear b document w.cwd (w.tree.wanted directory place settings.selection)
      (w.tree.wanted directory place settings.selection))
    (htasks : ∀ task ∈ tasks, task ∈ tasksIn w directory place settings.selection)
    {issues : List Issue} {patches : List Patch}
    (hrun : (collect settings b document tasks).runOn w = (.ok (issues, patches), w')) :
    ∃ pairs, Collects settings b document (w.tree.wanted directory place settings.selection) tasks
        w w' pairs patches ∧
      ∀ e ∈ pairs, e.1.IsWritable Text.FitsLine w.cwd ∧ e.2.IsWritable Text.FitsLine := by
  obtain ⟨pairs, hcollects⟩ := collects_of_collect
    (h.separate hw fun p hp => (hclear p hp).2) (fun p hp => (hclear p hp).1)
    (fun task htask => mem_tasksIn_iff.mp (htasks task htask)) hrun
  refine ⟨pairs, hcollects, h.isWritable_made hw hyear hsize (fun e he => htasks _ ?_) hcollects.made⟩
  exact hcollects.from_tasks ▸ List.mem_map_of_mem he

/-- Marking leaves the document alone, unless it is one of the files or one of their backups. -/
theorem content_document_of_touches {files : List Path} {u : Workspace} {cwd : Place} {bytes : Bytes}
    (hcwd : u.cwd = cwd) (hframe : Frame (Touches b files u.cwd) u w')
    (hdocument : ∀ p ∈ files, p.resolve cwd ≠ document.resolve cwd)
    (hkept : ∀ q ∈ files, ¬b.Holds q.name cwd (document.resolve cwd))
    (hcontent : u.content document = .ok bytes) : w'.content document = .ok bytes := by
  subst hcwd
  refine hframe.content hcontent ?_
  rintro (⟨p, hp, hsame⟩ | ⟨q, hq, hheld⟩)
  · exact hdocument p hp hsame.symm
  · exact hkept q hq hheld

/-- Behind making issues of tasks the document is read to what it held and to more issues, unless it was
there but cut off. -/
theorem Collects.lists {files : List Path} {pairs : List (Task × Issue)} {patches : List Patch}
    (h : Collects settings b document files tasks w w' pairs patches) (hne : tasks ≠ [])
    (hissues : ∀ i ∈ pairs.map Prod.snd, i.IsWritable Text.FitsLine)
    (hdocument : ∀ p ∈ files, p.resolve w.cwd ≠ document.resolve w.cwd)
    (hkept : ∀ q ∈ files, ¬b.Holds q.name w.cwd (document.resolve w.cwd))
    (hlists : Lists document w is) :
    (∃ js, Lists document w' (is ++ js)) ∨ is = [] ∧ IsCutOff document w := by
  obtain ⟨v, u, n, ⟨htree, hcwd⟩, happend, hframe, hkeeps⟩ := h.course
  obtain ⟨bytes, hcontent, hread⟩ :=
    lists_append (hlists.of_tree_eq htree hcwd) (issues_ne_nil h.from_tasks hne) hissues happend
  have hcontent' :=
    content_document_of_touches hframe.cwd hkeeps.frame hdocument hkept hcontent
  rcases hread with ⟨js, hjs⟩ | ⟨hnil, hcut⟩
  · exact Or.inl ⟨js, hjs.of_content hcontent hcontent'⟩
  · exact Or.inr ⟨hnil, hcut.of_tree_eq htree.symm hcwd.symm⟩

/-- What a run that returns has done: nothing but events where every task was known, or else it has
made issues, appended them and marked their tasks. Apart from what it has made it tells what was there. -/
theorem run_eq_ok (h : IsReady settings directory b place w)
    (hrun : (run settings directory document false none).runOn w = (.ok g, w')) :
    ∃ is v, Lists document w is ∧ g = { survey settings directory place w is false with
        newIssues := g.newIssues, patches := g.patches } ∧ OnlyEvents w v ∧
      ((unknown w.cwd (tasksIn w directory place settings.selection) is = [] ∧ OnlyEvents v w' ∧
          g.newIssues = [] ∧ g.patches = []) ∨
        unknown w.cwd (tasksIn w directory place settings.selection) is ≠ [] ∧
          ∃ u, (collect settings b document
              (unknown w.cwd (tasksIn w directory place settings.selection) is)).runOn v =
            (.ok (g.newIssues, g.patches), u) ∧ OnlyEvents u w') := by
  obtain ⟨v, hv, ⟨is, hlists, heq⟩ | ⟨-, fault, -, heq⟩⟩ := runOn_run document false h
  · rw [heq, Bool.false_or] at hrun
    split_ifs at hrun with hempty
    · rw [runOn_conclude] at hrun
      obtain ⟨hresult, rfl⟩ := Prod.mk.inj hrun
      obtain rfl := Except.ok.inj hresult
      exact ⟨is, v, hlists, rfl, hv, Or.inl ⟨List.isEmpty_iff.mp hempty, .report _ v, rfl, rfl⟩⟩
    · obtain ⟨⟨issues, patches⟩, u, hcollect, hend⟩ := runOn_bind_eq_ok_iff.mp hrun
      simp only [runOn_conclude] at hend
      obtain ⟨hresult, rfl⟩ := Prod.mk.inj hend
      obtain rfl := Except.ok.inj hresult
      exact ⟨is, v, hlists, rfl, hv, Or.inr ⟨by simpa using hempty, u, hcollect, .report _ u⟩⟩
  · rw [heq] at hrun
    cases hrun

/-- Where every task is known a run adds events only. It returns if the document can be read. -/
theorem run_of_unknown_nil (document : Path) (h : IsReady settings directory b place w)
    (hnone : ∀ is, Lists document w is →
      unknown w.cwd (tasksIn w directory place settings.selection) is = []) :
    ∃ r v, (run settings directory document false none).runOn w = (r, v) ∧ OnlyEvents w v ∧
      (∀ g, r = .ok g → g.newIssues = [] ∧ g.patches = []) ∧
      ((∃ is, Lists document w is) → ∃ g, r = .ok g) := by
  obtain ⟨v, hv, ⟨is, hlists, heq⟩ | ⟨hrefused, fault, -, heq⟩⟩ := runOn_run document false h
  · rw [hnone is hlists] at heq
    simp only [Bool.false_or, List.isEmpty_nil, if_true, runOn_conclude] at heq
    refine ⟨_, _, heq, hv.trans (.report _ v), ?_, fun _ => ⟨_, rfl⟩⟩
    intro g hg
    obtain rfl := Except.ok.inj hg
    exact ⟨rfl, rfl⟩
  · refine ⟨_, v, heq, hv, by simp, ?_⟩
    rintro ⟨is, hlists⟩
    exact absurd hlists (hrefused is)

end Gather

end TodoLedger
