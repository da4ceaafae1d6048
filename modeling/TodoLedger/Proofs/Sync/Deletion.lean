import TodoLedger.Gather
import TodoLedger.Proofs.Sync.Run
import TodoLedger.Proofs.Tasks
import TodoLedger.Proofs.Workspace.Sample
import Mathlib.Logic.Relation
/-!
# What a sync run deletes

A run is a chain of steps that leave the files outside the backups alone or delete one line. A line
that is deleted is the accepted target of an issue that is done: the line is found by its number, and
it still has the body it had when the run began. Whether it is a task of the issue is not looked at,
so it is one when it is deleted exactly if it was one at the beginning.
-/

namespace TodoLedger

open Work Workspace Utf8

/-- A task with the id of the issue is found on the line of the target. -/
def Target.Reports (t : Target) (bytes : Bytes) (id : Text) : Prop :=
  ∃ task ∈ tasksOf t.path true (decode bytes), task.line = t.line ∧ task.issueId = some id

instance (t : Target) (bytes : Bytes) (id : Text) : Decidable (t.Reports bytes id) :=
  inferInstanceAs (Decidable (∃ task ∈ tasksOf t.path true (decode bytes), _))

namespace Sync

/-- The line of an accepted target is deleted, and if the file is no backup the line is what it was
at the beginning of the run. -/
def DeletesAccepted (b : Backups) (w : Workspace) (approver : Approver) (issues : List Issue)
    (v v' : Workspace) : Prop :=
  ∃ t ∈ (review approver w issues).1.accepted, ∃ i ∈ completed issues, t.IsOf w.cwd i ∧
    ∃ bytes, Deletes b t bytes v v' ∧
      ∀ start, w.content t.path = .ok start → ¬b.Covers w.cwd (t.path.resolve w.cwd) →
        (Text.bodies (decode bytes))[t.line - 1]? = (Text.bodies (decode start))[t.line - 1]? ∧
          (t.Reports bytes i.id ↔ t.Reports start i.id)

/-- Above the lines that were removed already every file outside the backups has its lines. -/
structure Agrees (b : Backups) (w : Workspace) (done : List Target) (v : Workspace) : Prop where
  cwd : v.cwd = w.cwd
  above : ∀ p bytes, p.IsReal → ¬b.Covers w.cwd (p.resolve w.cwd) → w.content p = .ok bytes →
    ∃ bytes', v.content p = .ok bytes' ∧ ∀ k, (∀ s ∈ done, s.path = p → k < s.line) →
      (Text.bodies (decode bytes')).take k = (Text.bodies (decode bytes)).take k

namespace Agrees

variable {b : Backups} {w v v' : Workspace} {done : List Target} {t : Target} {bytes : Bytes}

theorem of_frame (h : Frame (b.Covers w.cwd) w v) : Agrees b w [] v where
  cwd := h.cwd
  above := fun _ bytes _ hcovers hcontent =>
    ⟨bytes, h.content hcontent hcovers, fun _ _ => rfl⟩

theorem frame (h : Agrees b w done v) (hframe : Frame (b.Covers w.cwd) v v') :
    Agrees b w (done ++ [t]) v' where
  cwd := hframe.cwd.trans h.cwd
  above := by
    intro p bytes hp hcovers hcontent
    obtain ⟨bytes', hcontent', htake⟩ := h.above p bytes hp hcovers hcontent
    refine ⟨bytes', hframe.content hcontent' (by rwa [h.cwd]), fun k hk => htake k ?_⟩
    exact fun s hs => hk s (List.mem_append_left _ hs)

theorem deletes (h : Agrees b w done v) (ht : t.path.IsReal) (hdeletes : Deletes b t bytes v v') :
    Agrees b w (done ++ [t]) v' where
  cwd := hdeletes.frame.cwd.trans h.cwd
  above := by
    intro p bytes₀ hp hcovers hcontent
    obtain ⟨bytes', hcontent', htake⟩ := h.above p bytes₀ hp hcovers hcontent
    by_cases hpath : t.path = p
    · subst hpath
      obtain rfl : bytes' = bytes := by
        rw [hdeletes.before] at hcontent'
        exact (Except.ok.inj hcontent').symm
      refine ⟨_, hdeletes.after, fun k hk => ?_⟩
      have hlt : k < t.line := hk t (by simp) rfl
      have hle := hdeletes.le
      have hstable := Text.isStable_ofLines_of_sublist (isStable_decode bytes')
        (List.eraseIdx_sublist (Text.lines (decode bytes')) (t.line - 1))
      rw [hstable.decode_bytesOf, Text.take_bodies_eraseIdx (by omega) (by omega)]
      exact htake k fun s hs => hk s (List.mem_append_left _ hs)
    · have huntouched : ¬Patch.Touches b t.path v.cwd (p.resolve v.cwd) := by
        rintro (hplace | hcovered)
        · exact hpath (hp.eq_of_resolve ht hplace).symm
        · exact hcovers (h.cwd ▸ hcovered)
      refine ⟨bytes', hdeletes.frame.content hcontent' huntouched, fun k hk => htake k ?_⟩
      exact fun s hs => hk s (List.mem_append_left _ hs)

end Agrees

theorem Target.reports_congr {t : Target} {s u : Bytes} {id : Text} (hpos : 1 ≤ t.line)
    (h : (Text.bodies (decode s))[t.line - 1]? = (Text.bodies (decode u))[t.line - 1]?) :
    t.Reports s id ↔ t.Reports u id := by
  have hmem : ∀ task : Task, task.line = t.line →
      (task ∈ tasksOf t.path true (decode s) ↔ task ∈ tasksOf t.path true (decode u)) := by
    intro task hline
    refine mem_tasksOf_congr h ?_
    rw [hline]
    congr 1
    omega
  constructor
  · rintro ⟨task, htask, hline, hid⟩
    exact ⟨task, (hmem task hline).mp htask, hline, hid⟩
  · rintro ⟨task, htask, hline, hid⟩
    exact ⟨task, (hmem task hline).mpr htask, hline, hid⟩

/-- The steps of a run: nothing outside the backups changes, or an accepted line is deleted. -/
def Moves (b : Backups) (w : Workspace) (approver : Approver) (issues : List Issue)
    (v v' : Workspace) : Prop :=
  Frame (b.Covers w.cwd) v v' ∨ DeletesAccepted b w approver issues v v'

section Chain

variable {b : Backups} {w v : Workspace} {approver : Approver} {issues : List Issue}
  {done : List Target} {t : Target}

private theorem getElem?_of_take_eq {s u : List Text} {n : Nat}
    (h : s.take n = u.take n) (hn : 1 ≤ n) : s[n - 1]? = u[n - 1]? := by
  have hlt : n - 1 < n := by omega
  have hat := congrArg (fun l => l[n - 1]?) h
  simpa only [List.getElem?_take_of_lt hlt] using hat

/-- One removal is a step of the run, provided that the lines of its file that were removed before
stood below. -/
theorem moves_remove (hcwd : ∀ s ∈ w.cwd, Path.IsName s)
    (ht : t ∈ (review approver w issues).1.accepted) (h : Agrees b w done v)
    (hbelow : ∀ s ∈ done, s.path = t.path → t.line < s.line) :
    Moves b w approver issues v ((remove b t).runOn v).2 ∧
      Agrees b w (done ++ [t]) ((remove b t).runOn v).2 := by
  obtain ⟨hreal, ⟨i, hi, hof⟩, -⟩ := isReal_of_mem_accepted hcwd ht
  rcases remove_cases hreal v with ⟨hframe, -⟩ | ⟨patch, bytes, -, -, hdeletes⟩
  · rw [h.cwd] at hframe
    exact ⟨Or.inl hframe, h.frame hframe⟩
  · refine ⟨Or.inr ⟨t, ht, i, hi, hof, bytes, hdeletes, ?_⟩, h.deletes hreal hdeletes⟩
    intro bytes₀ hcontent hcovers
    obtain ⟨bytes', hcontent', htake⟩ := h.above t.path bytes₀ hreal hcovers hcontent
    obtain rfl : bytes' = bytes := by
      rw [hdeletes.before] at hcontent'
      exact (Except.ok.inj hcontent').symm
    have hbody := getElem?_of_take_eq (htake t.line hbelow) hdeletes.pos
    exact ⟨hbody, Target.reports_congr hdeletes.pos hbody⟩

/-- The removals are steps of the run, whatever part of them is done already. -/
theorem moves_removals (hcwd : ∀ s ∈ w.cwd, Path.IsName s) {rest : List Target}
    (hrest : ∀ t ∈ rest, t ∈ (review approver w issues).1.accepted) (h : Agrees b w done v)
    (hsorted : (done ++ rest).Pairwise fun s t => s.path = t.path → t.line < s.line) :
    Relation.ReflTransGen (Moves b w approver issues) v ((rest.mapM (remove b)).runOn v).2 := by
  induction rest generalizing done v with
  | nil => exact .refl
  | cons t rest ih =>
      obtain ⟨ht, hothers⟩ := List.forall_mem_cons.mp hrest
      have hbelow : ∀ s ∈ done, s.path = t.path → t.line < s.line :=
        fun s hs => (List.pairwise_append.mp hsorted).2.2 s hs t (by simp)
      obtain ⟨hmove, hagrees⟩ := moves_remove hcwd ht h hbelow
      rcases hrun : (remove b t).runOn v with ⟨fault | patch, u⟩
      · rw [hrun] at hmove
        rw [List.mapM_cons, runOn_bind_of_error hrun]
        exact .single hmove
      · rw [hrun] at hmove hagrees
        rw [runOn_mapM_cons_of_ok hrun]
        exact .head hmove (ih hothers hagrees (by rwa [List.append_assoc]))

end Chain

/-- Every sync run, however it ends, is a chain of steps that each leave the files outside the
backups alone or delete the line of an accepted target, found by its number and unchanged since the
run began. -/
theorem run_deletes_accepted_lines (settings : Settings) (document : Path) (approver : Approver)
    (w : Workspace) (b : Backups) (bytes : Bytes) (issues : List Issue)
    (hcwd : ∀ s ∈ w.cwd, Path.IsName s) (hb : settings.backups w.cwd = .ok b)
    (hdocument : w.content document = .ok bytes)
    (hissues : readDocument (decode bytes) = .ok issues) :
    Relation.ReflTransGen (Moves b w approver issues) w
      ((run settings document approver).runOn w).2 := by
  obtain ⟨v, hv, hrun⟩ := @runOn_run settings document approver w b bytes issues hb hdocument hissues
  have hstart : Frame (b.Covers w.cwd) w v := hv.frame
  have hsound : Review.Sound w (completed issues) (review approver w issues).1 :=
    (Review.Sound.start w _ approver.isAuto _).run fun _ hi => hi
  rw [hrun]
  rcases hreview : review approver w issues with ⟨r, _ | fault⟩
  · rw [hreview] at hsound
    have hremovals := @moves_removals b w v approver issues [] hcwd (removals r.accepted)
      (fun t ht => by rw [hreview]; exact mem_removals_iff.mp ht) (.of_frame hstart)
      (removals_pairwise hsound.nodup)
    refine .head (Or.inl hstart) ?_
    simp only
    rw [runOn_bind]
    rcases hdone : ((removals r.accepted).mapM (remove b)).runOn v with ⟨fault | patches, u⟩
    · rwa [hdone] at hremovals
    · rw [hdone] at hremovals
      exact hremovals.tail (Or.inl (frame_report _))
  · exact .single (Or.inl hstart)

/-! ## A task that moved -/

/-- A file with one gathered task. -/
def gatheredTask : Workspace :=
  ((Gather.run .default ⟨.relative, []⟩ ⟨.relative, ["orgi.org"]⟩ false none).runOn
    (ofFiles ["w"] [("a.py", "# TODO: b\n")])).2

/-- A line was put above the task, and its issue is done. -/
def shiftedTask : Workspace :=
  ofFiles ["w"] [("a.py", "x = 1\n" ++ gatheredTask.textAt ⟨.relative, ["a.py"]⟩),
    ("orgi.org", "* DONE" ++ (gatheredTask.textAt ⟨.relative, ["orgi.org"]⟩).drop 6)]

theorem run_deletes_accepted_lines_shiftedTask :
    ∃ b bytes issues, (∀ s ∈ shiftedTask.cwd, Path.IsName s) ∧
      Settings.default.backups shiftedTask.cwd = .ok b ∧
      shiftedTask.content ⟨.relative, ["orgi.org"]⟩ = .ok bytes ∧
      readDocument (decode bytes) = .ok issues ∧
      Relation.ReflTransGen (Moves b shiftedTask .auto issues) shiftedTask
        ((run .default ⟨.relative, ["orgi.org"]⟩ .auto).runOn shiftedTask).2 := by
  have hcwd : ∀ s ∈ shiftedTask.cwd, Path.IsName s := by
    intro s hs
    obtain rfl : s = "w" := List.mem_singleton.mp hs
    exact ⟨⟨by decide, by decide, by decide⟩, by decide⟩
  obtain ⟨b, hb, -⟩ : ∃ b, Settings.default.backups shiftedTask.cwd = .ok b ∧ True := by
    decide +kernel
  obtain ⟨bytes, hdocument, issues, hissues, -⟩ :
      ∃ bytes, shiftedTask.content ⟨.relative, ["orgi.org"]⟩ = .ok bytes ∧
        ∃ issues, readDocument (decode bytes) = .ok issues ∧ True := by
    decide +kernel
  exact ⟨b, bytes, issues, hcwd, hb, hdocument, hissues,
    run_deletes_accepted_lines _ _ _ _ b bytes issues hcwd hb hdocument hissues⟩

/-- The line that was put above the task is deleted in its stead, although no task is on it. -/
theorem run_deletes_line_of_no_task :
    ∃ bytes, shiftedTask.content ⟨.relative, ["orgi.org"]⟩ = .ok bytes ∧
    ∃ issues, readDocument (decode bytes) = .ok issues ∧
    ∃ i ∈ completed issues, fileOf shiftedTask.cwd i = .ok (.absolute ["w", "a.py"]) ∧
      i.sourceLine? = some 1 ∧
      ∃ start, shiftedTask.content (.absolute ["w", "a.py"]) = .ok start ∧
        ((run .default ⟨.relative, ["orgi.org"]⟩ .auto).runOn shiftedTask).2.content
          (.absolute ["w", "a.py"]) =
          .ok (bytesOf (Text.ofLines ((Text.lines (decode start)).eraseIdx 0))) ∧
        ¬Target.Reports ⟨.absolute ["w", "a.py"], 1⟩ start i.id := by
  decide +kernel

end Sync

end TodoLedger
