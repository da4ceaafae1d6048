import TodoLedger.Proofs.Document.Storage
import TodoLedger.Proofs.Sync.Removal
/-!
# The course of a sync run

A run whose document can be read reviews the issues that are done, reports the review and then
removes the accepted lines one by one. Up to the removals nothing but events and output is added.
-/

namespace TodoLedger

open Work Workspace Utf8

namespace Review

theorem run_congr {w v : Workspace} (htree : v.tree = w.tree) (hcwd : v.cwd = w.cwd) (r : Review)
    (issues : List Issue) : r.run v issues = r.run w issues := by
  have hnode : v.node? = w.node? := by
    funext p
    simp only [Workspace.node?, locate, htree, hcwd]
  have hstep : ∀ r i, Review.step v r i = Review.step w r i := by
    intro r i
    simp only [step, hnode, hcwd]
  induction issues generalizing r with
  | nil => rfl
  | cons i issues ih =>
      rw [run, run, hstep]
      split
      · exact ih _
      · rfl

end Review

/-- A file could not be edited, for another reason than the number of a line. -/
def Event.IsEditFailure : Event → Prop
  | .editFailed _ _ _ kind => kind ≠ ("InvalidOperationError" : Text)
  | _ => False

instance (e : Event) : Decidable e.IsEditFailure := by
  cases e
  case editFailed => exact inferInstanceAs (Decidable (_ ≠ _))
  all_goals exact isFalse id

namespace Sync

/-- From one workspace to the other no event of a failed edit was added. -/
def NoEditFailed (w v : Workspace) : Prop :=
  ∃ added, v.events = w.events ++ added ∧ ∀ e ∈ added, ¬e.IsEditFailure

theorem NoEditFailed.split {w v u : Workspace} (h : NoEditFailed w u)
    (hfirst : w.events <+: v.events) (hsecond : v.events <+: u.events) :
    NoEditFailed w v ∧ NoEditFailed v u := by
  obtain ⟨added, hadded, hall⟩ := h
  obtain ⟨a, ha⟩ := hfirst
  obtain ⟨b, hb⟩ := hsecond
  obtain rfl : added = a ++ b := by
    rw [← ha, List.append_assoc] at hb
    exact (List.append_cancel_left (hb.trans hadded)).symm
  refine ⟨⟨a, ha.symm, fun e he => ?_⟩, ⟨b, hb.symm, fun e he => ?_⟩⟩
  · exact hall e (List.mem_append_left _ he)
  · exact hall e (List.mem_append_right _ he)

/-- What a failed edit reports is no fault of files where no edit failed. -/
theorem NoEditFailed.not_isOfFiles {w v : Workspace} {p : Path} {e : Edit} {fault : Fault}
    (h : NoEditFailed w { v with events := v.events ++ [Patch.failureEvent p e fault] })
    (hevents : w.events <+: v.events) : ¬fault.IsOfFiles := by
  intro hfault
  have hsecond : v.events <+: v.events ++ [Patch.failureEvent p e fault] := List.prefix_append _ _
  obtain ⟨added, hadded, hall⟩ := (h.split hevents hsecond).2
  obtain rfl := List.append_cancel_left hadded
  exact hall (Patch.failureEvent p e fault) (List.mem_singleton_self _) hfault.kind_ne

/-- From one workspace to the other only events and output were added, and none of the events tells
of a failed edit. -/
structure OnlyReports (w v : Workspace) : Prop where
  tree : v.tree = w.tree
  cwd : v.cwd = w.cwd
  input : v.input = w.input
  events : ∃ added, v.events = w.events ++ added ∧ ∀ e ∈ added, ¬e.IsEditFailure

namespace OnlyReports

variable {w v u : Workspace}

theorem refl (w : Workspace) : OnlyReports w w := ⟨rfl, rfl, rfl, [], by simp⟩

theorem trans (h₁ : OnlyReports w v) (h₂ : OnlyReports v u) : OnlyReports w u := by
  obtain ⟨added₁, hadded₁, hall₁⟩ := h₁.events
  obtain ⟨added₂, hadded₂, hall₂⟩ := h₂.events
  refine ⟨h₂.tree.trans h₁.tree, h₂.cwd.trans h₁.cwd, h₂.input.trans h₁.input,
    added₁ ++ added₂, by rw [hadded₂, hadded₁, List.append_assoc], ?_⟩
  intro e he
  rcases List.mem_append.mp he with he | he
  · exact hall₁ e he
  · exact hall₂ e he

theorem report {e : Event} (he : ¬e.IsEditFailure) (w : Workspace) :
    OnlyReports w { w with events := w.events ++ [e] } :=
  ⟨rfl, rfl, rfl, [e], rfl, by simpa using he⟩

theorem print (t : Text) (w : Workspace) : OnlyReports w { w with output := w.output ++ t } :=
  ⟨rfl, rfl, rfl, [], by simp⟩

theorem frame {touched : Place → Prop} (h : OnlyReports w v) : Frame touched w v := by
  obtain ⟨added, hadded, -⟩ := h.events
  exact .of_tree_eq h.cwd h.tree (hadded ▸ List.prefix_append _ _)

theorem content (h : OnlyReports w v) (p : Path) : v.content p = w.content p := by
  simp only [Workspace.content, locate, h.tree, h.cwd]

end OnlyReports

theorem runOn_reportAll {events : List Event} (h : ∀ e ∈ events, ¬e.IsEditFailure) (w : Workspace) :
    ∃ v, (reportAll events).runOn w = (.ok (), v) ∧ OnlyReports w v := by
  induction events generalizing w with
  | nil => exact ⟨w, rfl, .refl w⟩
  | cons e es ih =>
      obtain ⟨he, hes⟩ := List.forall_mem_cons.mp h
      obtain ⟨v, hrun, honly⟩ := ih hes { w with events := w.events ++ [e] }
      refine ⟨v, ?_, (OnlyReports.report he w).trans honly⟩
      rw [reportAll, runOn_bind_of_ok (runOn_report e), hrun]

private theorem question_events (r : Review) (i : Issue) (t : Target) :
    (r.question i t).events = r.events := by
  rw [Review.question]
  split <;> rfl

/-- A review reports missing and repeated targets only. -/
theorem events_of_review {w : Workspace} {issues : List Issue} (r : Review)
    (h : ∀ e ∈ r.events, ¬e.IsEditFailure) : ∀ e ∈ (r.run w issues).1.events, ¬e.IsEditFailure := by
  induction issues generalizing r with
  | nil => exact h
  | cons i issues ih =>
      rw [Review.run]
      split
      · rename_i r' hstep
        refine ih r' ?_
        have hnote : ∀ e' : Event, ¬e'.IsEditFailure →
            ∀ e ∈ ((r.note e').skip).events, ¬e.IsEditFailure := by
          intro e' he' e he
          rcases List.mem_append.mp he with he | he
          · exact h e he
          · rwa [List.mem_singleton.mp he]
        cases Review.step_of_eq_ok hstep with
        | missing _ _ => exact hnote _ id
        | repeated _ _ _ => exact hnote _ id
        | accepted _ _ _ _ => exact h
        | asked _ _ _ _ =>
            rw [question_events]
            exact h
      · exact h

variable {settings : Settings} {document : Path} {approver : Approver} {w : Workspace}
  {b : Backups} {bytes : Bytes} {issues : List Issue}

theorem runOn_prompt (approver : Approver) (asked : List (Issue × Path)) (w : Workspace) :
    ∃ v, (approver.prompt asked).runOn w = (.ok (), v) ∧ OnlyReports w v := by
  cases approver with
  | auto => exact ⟨w, rfl, .refl w⟩
  | scripted answers => exact ⟨w, rfl, .refl w⟩
  | user => exact ⟨_, runOn_print _, .print _ w⟩

theorem runOn_decide (approver : Approver) (w : Workspace) (issues : List Issue) :
    ∃ v, OnlyReports w v ∧ (Sync.decide approver issues).runOn w =
      match review approver w issues with
      | (_, some fault) => (.error fault, v)
      | (r, none) => (.ok r, v) := by
  have hall := @events_of_review w (completed issues)
    (Review.start approver.isAuto (approver.answers w.input)) (by simp [Review.start])
  obtain ⟨v, hreported, hv⟩ := runOn_reportAll hall w
  obtain ⟨u, hprompt, hu⟩ := runOn_prompt approver (review approver w issues).1.asked v
  refine ⟨u, hv.trans hu, ?_⟩
  rw [Sync.decide, runOn_bind_of_ok runOn_get]
  rcases hreview : review approver w issues with ⟨r, fault⟩
  rw [hreview] at hprompt
  rw [review] at hreview
  rw [hreview] at hreported
  rw [runOn_bind_of_ok hreported, runOn_bind_of_ok hprompt]
  cases fault <;> rfl

theorem runOn_run (hb : settings.backups w.cwd = .ok b)
    (hdocument : w.content document = .ok bytes)
    (hissues : readDocument (decode bytes) = .ok issues) :
    ∃ v, OnlyReports w v ∧ (run settings document approver).runOn w =
      match review approver w issues with
      | (_, some fault) => (.error fault, v)
      | (r, none) => ((removals r.accepted).mapM (remove b) >>= conclude issues r).runOn v := by
  have hbackups : (ask fun w => settings.backups w.cwd : Work Backups).runOn w = (.ok b, w) := by
    rw [runOn_ask, hb]
  have hfile : (isFile document).runOn w = (.ok true, w) := by
    rw [runOn_isFile, node?_eq_file_iff.mpr hdocument]
    rfl
  obtain ⟨w₁, hw₁, hstarted⟩ : ∃ w₁, OnlyReports w w₁ ∧
      (report (.syncStarted document approver.isAuto)).runOn w = (.ok (), w₁) :=
    ⟨_, .report id w, runOn_report _⟩
  obtain ⟨w₂, hw₂, hload⟩ : ∃ w₂, OnlyReports w₁ w₂ ∧
      (Document.load document).runOn w₁ = (.ok issues, w₂) :=
    ⟨_, .report id w₁, by
      rw [Document.runOn_load ((hw₁.content document).trans hdocument), hissues]⟩
  have hquiet := hw₁.trans hw₂
  obtain ⟨v, hv, hdecide⟩ := runOn_decide approver w₂ issues
  have hreview : review approver w₂ issues = review approver w issues := by
    rw [review, review, hquiet.input]
    exact Review.run_congr hquiet.tree hquiet.cwd _ _
  rw [hreview] at hdecide
  refine ⟨v, hquiet.trans hv, ?_⟩
  rw [run, runOn_bind_of_ok hbackups, runOn_bind_of_ok hfile]
  simp only [Bool.not_true, Bool.false_eq_true, if_false]
  rw [runOn_bind_of_ok hstarted, runOn_bind_of_ok hload]
  rcases hreviewed : review approver w issues with ⟨r, _ | fault⟩
  · rw [hreviewed] at hdecide
    rw [runOn_bind_of_ok hdecide]
  · rw [hreviewed] at hdecide
    rw [runOn_bind_of_error hdecide]

/-- The places that a run may touch: those of the backups, and those that the issues point at. -/
def Touches (b : Backups) (cwd : Place) (issues : List Issue) (place : Place) : Prop :=
  b.Covers cwd place ∨ ∃ i ∈ completed issues, ∃ p, fileOf cwd i = .ok p ∧ place = p.resolve cwd

theorem isReal_of_mem_accepted {t : Target} (hcwd : ∀ s ∈ w.cwd, Path.IsName s)
    (ht : t ∈ (review approver w issues).1.accepted) :
    t.path.IsReal ∧ (∃ i ∈ completed issues, t.IsOf w.cwd i) ∧
      ∃ bytes, w.content t.path = .ok bytes := by
  have hsound : Review.Sound w (completed issues) (review approver w issues).1 :=
    (Review.Sound.start w _ approver.isAuto _).run fun _ hi => hi
  obtain ⟨⟨i, hi, hof⟩, hfile⟩ := hsound.accepted t ht
  exact ⟨isReal_of_fileOf hcwd hof.file, ⟨i, hi, hof⟩, hfile⟩

/-- However a run ends, it touches no file but those of accepted targets and the backups of them. -/
theorem frame_run_accepted (hcwd : ∀ s ∈ w.cwd, Path.IsName s)
    (hb : settings.backups w.cwd = .ok b) (hdocument : w.content document = .ok bytes)
    (hissues : readDocument (decode bytes) = .ok issues) :
    Frame (fun place => ∃ t ∈ (review approver w issues).1.accepted,
        Patch.Reaches b t.path w.cwd place)
      w ((run settings document approver).runOn w).2 := by
  obtain ⟨v, hv, hrun⟩ := @runOn_run settings document approver w b bytes issues hb hdocument hissues
  rw [hrun]
  rcases hreview : review approver w issues with ⟨r, _ | fault⟩
  · refine hv.frame.trans (moves_bind (frame_removals fun t ht => ?_) fun patches u _ _ => ?_)
    · have haccepted : t ∈ (review approver w issues).1.accepted := by
        rw [hreview]
        exact mem_removals_iff.mp ht
      refine ⟨(isReal_of_mem_accepted hcwd haccepted).1, fun place hreaches => ?_⟩
      rw [hv.cwd] at hreaches
      exact ⟨t, mem_removals_iff.mp ht, hreaches⟩
    · exact frame_report _
  · exact hv.frame

theorem frame_run (hcwd : ∀ s ∈ w.cwd, Path.IsName s) (hb : settings.backups w.cwd = .ok b)
    (hdocument : w.content document = .ok bytes)
    (hissues : readDocument (decode bytes) = .ok issues) :
    Frame (Touches b w.cwd issues) w ((run settings document approver).runOn w).2 := by
  refine (@frame_run_accepted settings document approver w b bytes issues hcwd hb hdocument
    hissues).mono fun place htouched => ?_
  obtain ⟨t, ht, hplace | hheld⟩ := htouched
  · obtain ⟨-, ⟨i, hi, hof⟩, -⟩ := isReal_of_mem_accepted hcwd ht
    exact Or.inr ⟨i, hi, t.path, hof.file, hplace⟩
  · exact Or.inl hheld.covers

end Sync

end TodoLedger
