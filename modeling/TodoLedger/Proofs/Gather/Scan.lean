import TodoLedger.Gather
import TodoLedger.Proofs.Path
import TodoLedger.Proofs.Sorted
import TodoLedger.Proofs.Workspace.Tree
import TodoLedger.Proofs.Workspace.Run
/-!
# Scanning a directory

A scan finds the wanted files that stand directly in the directory and the tasks of those that can be
read. It changes nothing but the list of events.
-/

namespace TodoLedger

open Work Workspace Utf8

/-- From one workspace to the other nothing but events was added. -/
def OnlyEvents (w v : Workspace) : Prop := ∃ added, v = { w with events := w.events ++ added }

namespace OnlyEvents

variable {w v u : Workspace}

theorem refl (w : Workspace) : OnlyEvents w w := ⟨[], by rw [List.append_nil]⟩

theorem trans (h₁ : OnlyEvents w v) (h₂ : OnlyEvents v u) : OnlyEvents w u := by
  obtain ⟨added₁, rfl⟩ := h₁
  obtain ⟨added₂, rfl⟩ := h₂
  exact ⟨added₁ ++ added₂, by rw [List.append_assoc]⟩

theorem report (e : Event) (w : Workspace) :
    OnlyEvents w { w with events := w.events ++ [e] } := ⟨[e], rfl⟩

theorem content (h : OnlyEvents w v) (p : Path) : v.content p = w.content p := by
  obtain ⟨added, rfl⟩ := h
  rfl

end OnlyEvents

section Scan

variable {w v : Workspace} {directory p : Path} {place : Place} {s : Selection}

/-! ## Discovery -/

/-- The wanted files of the directory at a place. -/
def Tree.wanted (t : Tree) (directory : Path) (place : Place) (s : Selection) : List Path :=
  ascending (((candidates s (t.children place)).filter fun n => !s.excludes n).map directory.child)

theorem runOn_forM_report {α : Type} (f : α → Event) (as : List α) (w : Workspace) :
    ∃ v, (as.forM fun a => report (f a)).runOn w = (.ok ⟨⟩, v) ∧ OnlyEvents w v := by
  induction as generalizing w with
  | nil => exact ⟨w, rfl, .refl w⟩
  | cons a as ih =>
      obtain ⟨v, hrun, hv⟩ := ih { w with events := w.events ++ [f a] }
      refine ⟨v, ?_, (OnlyEvents.report (f a) w).trans hv⟩
      show (report (f a) >>= fun _ => as.forM fun a => report (f a)).runOn w = _
      rw [runOn_bind_of_ok (runOn_report _), hrun]

theorem runOn_isDirectory_of_locate (h : w.locate p = .ok place)
    (hdirectory : w.tree.find? place = some .directory) :
    (isDirectory p).runOn w = (.ok true, w) := by
  have hnode : w.node? p = .ok (some .directory) := by
    rw [Workspace.node?, h]
    exact congrArg Except.ok hdirectory
  rw [runOn_isDirectory, hnode]
  rfl

/-- Where a directory stands, its path leads to it. -/
theorem exists_locate_of_isDirectory (h : (isDirectory p).runOn w = (.ok true, w')) :
    w' = w ∧ ∃ place, w.locate p = .ok place ∧ w.tree.find? place = some .directory := by
  rw [runOn_isDirectory] at h
  obtain ⟨hthere, rfl⟩ := Prod.mk.inj h
  refine ⟨rfl, node?_eq_directory_iff.mp ?_⟩
  cases hnode : w.node? p with
  | error fault =>
      rw [hnode] at hthere
      cases hthere
  | ok node =>
      rw [hnode] at hthere
      rw [of_decide_eq_true (Except.ok.inj hthere)]

theorem runOn_discover (h : w.locate directory = .ok place)
    (hdirectory : w.tree.find? place = some .directory) :
    ∃ v, (discover directory s).runOn w = (.ok (w.tree.wanted directory place s), v) ∧
      OnlyEvents w v := by
  have hthere := runOn_isDirectory_of_locate h hdirectory
  have hlocate : (ask (·.locate directory) : Work Place).runOn w = (.ok place, w) := by
    rw [runOn_ask, h]
  obtain ⟨v, hforM, hv⟩ := runOn_forM_report Event.fileExcluded
    ((candidates s (w.tree.children place)).filter s.excludes) w
  rw [discover, runOn_bind_of_ok hthere]
  simp only [Bool.not_true, Bool.false_eq_true, if_false]
  rw [runOn_bind_of_ok runOn_get, runOn_bind_of_ok hlocate, runOn_bind_of_ok hforM,
    runOn_bind_of_ok (runOn_report _)]
  exact ⟨_, rfl, hv.trans (.report _ v)⟩

/-- A wanted file stands in the directory under a name. -/
theorem exists_of_mem_wanted (h : p ∈ w.tree.wanted directory place s) :
    ∃ name node, p = directory.child name ∧ w.tree.find? (place ++ [name]) = some node := by
  rw [Tree.wanted, ascending, mem_sorted, List.mem_map] at h
  obtain ⟨name, hname, rfl⟩ := h
  have hcandidate := (List.mem_filter.mp hname).1
  rw [candidates, List.mem_map] at hcandidate
  obtain ⟨⟨name', node⟩, hlisted, hname'⟩ := hcandidate
  obtain rfl : name' = name := hname'
  have hentry := Tree.mem_children_iff.mp (List.mem_filter.mp hlisted).1
  obtain ⟨found, hfound⟩ := Tree.exists_find?_of_mem hentry
  exact ⟨name', found, rfl, hfound⟩

/-- Whether a file is wanted depends on its name. -/
theorem mem_wanted_iff {t : Tree} {name : Text} {bytes : Bytes}
    (hfile : t.find? (place ++ [name]) = some (.file bytes)) :
    directory.child name ∈ t.wanted directory place s ↔
      s.hasExtension name = true ∧ s.excludes name = false := by
  rw [Tree.wanted, ascending, mem_sorted, List.mem_map]
  constructor
  · rintro ⟨name', hname', hsame⟩
    obtain rfl : name' = name := by simpa [Path.child] using hsame
    obtain ⟨hcandidate, hkept⟩ := List.mem_filter.mp hname'
    obtain ⟨⟨n, node⟩, hlisted, rfl⟩ := List.mem_map.mp hcandidate
    have hwanted := (List.mem_filter.mp hlisted).2
    rw [Bool.and_eq_true] at hwanted
    exact ⟨hwanted.2, by simpa using hkept⟩
  · rintro ⟨hextension, hkept⟩
    refine ⟨name, List.mem_filter.mpr ⟨?_, by simpa using hkept⟩, rfl⟩
    refine List.mem_map.mpr ⟨(name, .file bytes), List.mem_filter.mpr ⟨?_, ?_⟩, rfl⟩
    · exact Tree.mem_children_iff.mpr (Tree.mem_nodes_of_find? (by simp) hfile)
    · simp [Node.isFile, hextension]

/-! ## Extraction -/

/-- The unmarked tasks of the file at a path; none if it cannot be read. -/
def Workspace.tasksAt (w : Workspace) (p : Path) : List Task :=
  match w.content p with
  | .ok bytes => tasksOf p false (decode bytes)
  | .error _ => []

/-- The tasks of the file at a path, marked ones as well if they are wanted. -/
def Workspace.tasksFor (w : Workspace) (withMarked : Bool) (p : Path) : List Task :=
  match w.content p with
  | .ok bytes => tasksOf p withMarked (decode bytes)
  | .error _ => []

theorem exists_content_of_mem_tasksFor {task : Task} {withMarked : Bool}
    (h : task ∈ w.tasksFor withMarked p) :
    ∃ bytes, w.content p = .ok bytes ∧ task ∈ tasksOf p withMarked (decode bytes) := by
  rw [Workspace.tasksFor] at h
  split at h
  · rename_i bytes hcontent
    exact ⟨bytes, hcontent, h⟩
  · cases h

theorem exists_content_of_mem_tasksAt {task : Task} (h : task ∈ w.tasksAt p) :
    ∃ bytes, w.content p = .ok bytes ∧ task ∈ tasksOf p false (decode bytes) :=
  exists_content_of_mem_tasksFor h

theorem OnlyEvents.tasksFor (h : OnlyEvents w v) (withMarked : Bool) (p : Path) :
    v.tasksFor withMarked p = w.tasksFor withMarked p := by
  rw [Workspace.tasksFor, Workspace.tasksFor, h.content]

theorem OnlyEvents.tasksAt (h : OnlyEvents w v) (p : Path) : v.tasksAt p = w.tasksAt p :=
  h.tasksFor false p

variable {withMarked : Bool}

private theorem runOn_ofFile (p : Path) (w : Workspace) :
    (Extraction.ofFile withMarked p).runOn w = (.ok (w.tasksFor withMarked p), w) ∨
      ∃ fault, (Extraction.ofFile withMarked p).runOn w = (.error fault, w) ∧
        fault.isReported = true ∧ w.tasksFor withMarked p = [] := by
  by_cases hfile : ∃ bytes, w.content p = .ok bytes
  · left
    obtain ⟨bytes, hcontent⟩ := hfile
    have hthere : (isFile p).runOn w = (.ok true, w) := by
      rw [runOn_isFile, node?_eq_file_iff.mpr hcontent]
      rfl
    have hread : (readText p).runOn w = (.ok (decode bytes), w) := by
      rw [runOn_readText, hcontent]
      rfl
    rw [Extraction.ofFile, runOn_bind_of_ok hthere]
    simp only [Bool.not_true, Bool.false_eq_true, if_false]
    rw [runOn_bind_of_ok hread, Workspace.tasksFor, hcontent]
    rfl
  · right
    have hnone : w.tasksFor withMarked p = [] := by
      rw [Workspace.tasksFor]
      split
      · rename_i bytes hcontent
        exact absurd ⟨bytes, hcontent⟩ hfile
      · rfl
    cases hnode : w.node? p with
    | error fault =>
        have hlong : fault.isReported = true := by
          rw [Workspace.node?] at hnode
          split at hnode
          · cases hnode
          · obtain rfl := Except.error.inj hnode
            rfl
          · cases hnode
        refine ⟨fault, ?_, hlong, hnone⟩
        rw [Extraction.ofFile]
        exact runOn_bind_of_error (by rw [runOn_isFile, hnode]; rfl)
    | ok n =>
        have hthere : (isFile p).runOn w = (.ok false, w) := by
          rw [runOn_isFile, hnode]
          cases n with
          | none => rfl
          | some node =>
              cases node with
              | directory => rfl
              | file bytes => exact absurd ⟨bytes, node?_eq_file_iff.mp hnode⟩ hfile
        refine ⟨.sourceMissing p, ?_, rfl, hnone⟩
        rw [Extraction.ofFile, runOn_bind_of_ok hthere]
        rfl

theorem runOn_ofFileOrNone (p : Path) (w : Workspace) :
    ∃ v, (Extraction.ofFileOrNone withMarked p).runOn w = (.ok (w.tasksFor withMarked p), v) ∧ OnlyEvents w v := by
  rw [Extraction.ofFileOrNone, runOn_tryCatch]
  rcases runOn_ofFile p w with hrun | ⟨fault, hrun, hreported, hnone⟩
  · rw [hrun]
    exact ⟨w, rfl, .refl w⟩
  · rw [hrun]
    simp only [hreported, if_true]
    rw [runOn_bind_of_ok (runOn_report _), runOn_pure, hnone]
    exact ⟨_, rfl, .report _ w⟩

private theorem runOn_mapM_ofFileOrNone (paths : List Path) (w : Workspace) :
    ∃ v, (paths.mapM (Extraction.ofFileOrNone withMarked)).runOn w = (.ok (paths.map (w.tasksFor withMarked)), v) ∧
      OnlyEvents w v := by
  induction paths generalizing w with
  | nil => exact ⟨w, rfl, .refl w⟩
  | cons p paths ih =>
      obtain ⟨v, hfirst, hv⟩ := runOn_ofFileOrNone p w
      obtain ⟨u, hrest, hu⟩ := ih v
      have hsame : paths.map (v.tasksFor withMarked) = paths.map (w.tasksFor withMarked) :=
        List.map_congr_left fun q _ => hv.tasksFor withMarked q
      refine ⟨u, ?_, hv.trans hu⟩
      rw [runOn_mapM_cons_of_ok hfirst, hrest, hsame]
      rfl

theorem runOn_ofFiles (paths : List Path) (w : Workspace) :
    ∃ v, (Extraction.ofFiles withMarked paths).runOn w = (.ok (paths.flatMap (w.tasksFor withMarked)), v) ∧
      OnlyEvents w v := by
  obtain ⟨v, hrun, hv⟩ := runOn_mapM_ofFileOrNone paths w
  refine ⟨{ v with events := v.events ++ [.tasksExtracted (paths.map (w.tasksFor withMarked)).flatten.length] },
    ?_, hv.trans (.report _ v)⟩
  rw [Extraction.ofFiles, runOn_bind_of_ok hrun, List.flatMap_def]
  rfl

/-- A scan finds the wanted files and their tasks. -/
theorem runOn_scan {settings : Settings} (withMarked : Bool) (h : w.locate directory = .ok place)
    (hdirectory : w.tree.find? place = some .directory) :
    ∃ v, (Gather.scan settings withMarked directory none).runOn w =
      (.ok ((w.tree.wanted directory place settings.selection).length,
        (w.tree.wanted directory place settings.selection).flatMap (w.tasksFor withMarked)), v) ∧
      OnlyEvents w v := by
  obtain ⟨v, hdiscover, hv⟩ := @runOn_discover w directory place settings.selection h hdirectory
  obtain ⟨u, htasks, hu⟩ :=
    @runOn_ofFiles withMarked (w.tree.wanted directory place settings.selection) v
  have hsame : v.tasksFor withMarked = w.tasksFor withMarked := funext (hv.tasksFor withMarked)
  refine ⟨u, ?_, hv.trans hu⟩
  rw [Gather.scan, runOn_bind_of_ok hdiscover]
  simp only
  rw [runOn_bind_of_ok htasks, hsame]
  rfl

/-- A scan gives the tasks of the wanted files, unless others are given. -/
theorem scan_eq_ok {settings : Settings} {withMarked : Bool} {given : Option (List Task)} {n : Nat}
    {tasks : List Task} (h : w.locate directory = .ok place)
    (hdirectory : w.tree.find? place = some .directory)
    (hrun : (Gather.scan settings withMarked directory given).runOn w = (.ok (n, tasks), v)) :
    tasks = given.getD ((w.tree.wanted directory place settings.selection).flatMap
      (w.tasksFor withMarked)) ∧ OnlyEvents w v := by
  cases given with
  | none =>
      obtain ⟨u, hscan, hu⟩ := @runOn_scan w directory place settings withMarked h hdirectory
      obtain ⟨hsame, rfl⟩ := Prod.mk.inj (hscan.symm.trans hrun)
      exact ⟨(congrArg Prod.snd (Except.ok.inj hsame)).symm, hu⟩
  | some ts =>
      obtain ⟨u, hdiscover, hu⟩ := runOn_discover (s := settings.selection) h hdirectory
      rw [Gather.scan, runOn_bind_of_ok hdiscover] at hrun
      obtain ⟨hsame, rfl⟩ := Prod.mk.inj hrun
      exact ⟨(congrArg Prod.snd (Except.ok.inj hsame)).symm, hu⟩

end Scan

end TodoLedger
