import TodoLedger.Proofs.Sync.Run
import TodoLedger.Proofs.Workspace.Sample
/-!
# Running sync a second time

The document is not rewritten, so a second run looks for the lines of the same issues again, by their
numbers. It removes nothing exactly if each of these numbers is beyond the end of its file by then.
-/

namespace TodoLedger

open Work Workspace Utf8

/-- The line of the target is one of the lines of its file. -/
def Target.IsPresent (t : Target) (w : Workspace) : Prop :=
  ∃ bytes, w.content t.path = .ok bytes ∧ 1 ≤ t.line ∧ t.line ≤ (Text.lines (decode bytes)).length

instance (t : Target) (w : Workspace) : Decidable (t.IsPresent w) :=
  inferInstanceAs (Decidable (∃ bytes, w.content t.path = .ok bytes ∧ _))

theorem Target.isPresent_congr {t : Target} {w v : Workspace} (htree : v.tree = w.tree)
    (hcwd : v.cwd = w.cwd) : t.IsPresent v ↔ t.IsPresent w := by
  simp only [IsPresent, Workspace.content, locate, htree, hcwd]

namespace Sync

/-! ## Removals that are refused -/

section Removals

variable {b : Backups} {t : Target} {ts : List Target} {patch : Patch} {patches : List Patch}
  {v u : Workspace} {bytes : Bytes} {touched : Place → Prop}

theorem remove_of_not_isPresent (ht : t.path.IsReal) (hcontent : v.content t.path = .ok bytes)
    (h : ¬t.IsPresent v) : ∃ patch u, (remove b t).runOn v = (.ok patch, u) ∧
      patch.isChange = false ∧ u.tree = v.tree ∧ u.cwd = v.cwd := by
  have hedit : (Edit.removeLine t.line).apply t.path (Text.lines (decode bytes)) =
      .error (.lineOutOfRange t.line t.path) := by
    apply Edit.apply_removeLine_of_gt
    by_contra hrange
    exact h ⟨bytes, hcontent, by omega, by omega⟩
  have hstep := remove_step (b := b) ht hcontent
  generalize (remove b t).runOn v = r at hstep
  cases hstep with
  | refused _ => exact ⟨_, _, rfl, rfl, rfl, rfl⟩
  | unchanged h => simp [hedit] at h
  | applied h _ _ => simp [hedit] at h
  | failed h _ _ _ => simp [hedit] at h
  | raised h _ _ _ => simp [hedit] at h

theorem removals_of_not_isPresent (hts : ∀ t ∈ ts, t.path.IsReal ∧
      (∃ bytes, v.content t.path = .ok bytes) ∧ ¬t.IsPresent v) :
    ∃ patches u, (ts.mapM (remove b)).runOn v = (.ok patches, u) ∧
      (∀ p ∈ patches, p.isChange = false) ∧ u.tree = v.tree := by
  induction ts generalizing v with
  | nil => exact ⟨[], v, rfl, by simp, rfl⟩
  | cons t ts ih =>
      obtain ⟨⟨ht, ⟨bytes, hcontent⟩, habsent⟩, hothers⟩ := List.forall_mem_cons.mp hts
      obtain ⟨patch, v₁, hrun, hpatch, htree, hcwd⟩ := remove_of_not_isPresent ht hcontent habsent
      obtain ⟨patches, u, hrest, hpatches, hutree⟩ := @ih v₁ (by
        intro s hs
        obtain ⟨hs, ⟨bytes, hcontent⟩, habsent⟩ := hothers s hs
        refine ⟨hs, ⟨bytes, ?_⟩, fun h => habsent ((Target.isPresent_congr htree hcwd).mp h)⟩
        simpa only [Workspace.content, locate, htree, hcwd] using hcontent)
      refine ⟨patch :: patches, u, ?_, List.forall_mem_cons.mpr ⟨hpatch, hpatches⟩,
        hutree.trans htree⟩
      rw [runOn_mapM_cons_of_ok hrun, hrest]
      rfl

/-- A removal that makes no change and reports no failure has not found its line. -/
theorem not_isPresent_of_remove (ht : t.path.IsReal) (hrun : (remove b t).runOn v = (.ok patch, u))
    (hpatch : patch.isChange = false) (hquiet : NoEditFailed v u) :
    ¬t.IsPresent v ∧ u.tree = v.tree ∧ u.cwd = v.cwd := by
  by_cases hfile : ∃ bytes, v.content t.path = .ok bytes
  · obtain ⟨bytes, hcontent⟩ := hfile
    have hstep := remove_step (b := b) ht hcontent
    rw [hrun] at hstep
    cases hstep with
    | refused h =>
        refine ⟨?_, rfl, rfl⟩
        rintro ⟨bytes', hcontent', hpos, hle⟩
        obtain rfl := Except.ok.inj (hcontent.symm.trans hcontent')
        obtain ⟨m, hm⟩ := Edit.apply_removeLine_of_le (p := t.path) hpos hle
        rw [hm] at h
        cases h
    | unchanged h => exact absurd h Edit.removeLine_ne_unchanged
    | applied _ _ _ => cases hpatch
    | failed _ hframe hfault _ => exact absurd hfault (hquiet.not_isOfFiles hframe.events)
  · obtain ⟨fault, hmissing⟩ := Patch.apply_missing (b := b) (e := .removeLine t.line)
      (not_exists.mp hfile)
    rw [remove, hmissing] at hrun
    cases hrun

theorem not_isPresent_of_removals (hts : ∀ t ∈ ts, t.path.IsReal)
    (hrun : (ts.mapM (remove b)).runOn v = (.ok patches, u))
    (hpatches : ∀ p ∈ patches, p.isChange = false) (hquiet : NoEditFailed v u) :
    ∀ t ∈ ts, ¬t.IsPresent v := by
  induction ts generalizing v patches with
  | nil => simp
  | cons t ts ih =>
      obtain ⟨ht, hothers⟩ := List.forall_mem_cons.mp hts
      obtain ⟨patch, v₁, rest, hfirst, hsecond, rfl⟩ := runOn_mapM_cons_eq_ok hrun
      obtain ⟨hpatch, hrest⟩ := List.forall_mem_cons.mp hpatches
      have hframe : Frame (fun _ => True) v v₁ := by
        have hremove := frame_remove (b := b) ht v
        rw [hfirst] at hremove
        exact hremove.mono fun _ _ => trivial
      have hframes : Frame (fun _ => True) v₁ u := by
        have hremovals := @frame_removals b v₁ (fun _ => True) ts fun s hs =>
          ⟨hothers s hs, fun _ _ => trivial⟩
        rwa [hsecond] at hremovals
      obtain ⟨hquiet₁, hquiet₂⟩ := hquiet.split hframe.events hframes.events
      obtain ⟨habsent, htree, hcwd⟩ := not_isPresent_of_remove ht hfirst hpatch hquiet₁
      refine List.forall_mem_cons.mpr ⟨habsent, fun s hs hpresent => ?_⟩
      exact ih hothers hsecond hrest hquiet₂ s hs ((Target.isPresent_congr htree hcwd).mpr hpresent)

end Removals

/-! ## The second run -/

section Second

variable {settings : Settings} {document : Path} {w : Workspace} {b : Backups} {bytes : Bytes}
  {issues : List Issue}

/-- Where none of the lines is present a run changes no file. -/
theorem run_of_not_isPresent (hcwd : ∀ s ∈ w.cwd, Path.IsName s)
    (hb : settings.backups w.cwd = .ok b) (hdocument : w.content document = .ok bytes)
    (hissues : readDocument (decode bytes) = .ok issues)
    (h : ∀ i ∈ completed issues, ∀ t : Target, t.IsOf w.cwd i → ¬t.IsPresent w) :
    ((run settings document .auto).runOn w).2.tree = w.tree ∧
      ((∀ i ∈ completed issues, HasPath w.cwd i) →
        ∃ s v, (run settings document .auto).runOn w = (.ok s, v) ∧ s.removed = 0) := by
  obtain ⟨v, hv, hrun⟩ := @runOn_run settings document .auto w b bytes issues hb hdocument hissues
  rw [hrun]
  rcases hreview : review .auto w issues with ⟨r, _ | fault⟩
  · obtain ⟨patches, u, hmapM, hpatches, htree⟩ :=
        @removals_of_not_isPresent b (removals r.accepted) v (by
      intro t ht
      have haccepted : t ∈ (review .auto w issues).1.accepted := by
        rw [hreview]
        exact mem_removals_iff.mp ht
      obtain ⟨hreal, ⟨i, hi, hof⟩, start, hcontent⟩ := isReal_of_mem_accepted hcwd haccepted
      refine ⟨hreal, ⟨start, by rw [hv.content, hcontent]⟩, fun hpresent => ?_⟩
      exact h i hi t hof ((Target.isPresent_congr hv.tree hv.cwd).mp hpresent))
    simp only
    rw [runOn_bind_of_ok hmapM]
    refine ⟨htree.trans hv.tree, fun _ => ⟨_, _, rfl, ?_⟩⟩
    have hnone : patches.filter Patch.isChange = [] := by
      simpa [List.filter_eq_nil_iff] using hpatches
    simp [Synced.removed, hnone]
  · refine ⟨hv.tree, fun hpath => ?_⟩
    have hdone := @review_of_hasPath w (completed issues)
      (Review.start true (Approver.auto.answers w.input)) hpath
    rw [review, Approver.isAuto] at hreview
    rw [hreview] at hdone
    cases hdone

/-- A run that removes nothing, without a failure, has found none of the lines present. -/
theorem not_isPresent_of_run {s : Synced} {u : Workspace} (hcwd : ∀ s ∈ w.cwd, Path.IsName s)
    (hb : settings.backups w.cwd = .ok b) (hdocument : w.content document = .ok bytes)
    (hissues : readDocument (decode bytes) = .ok issues)
    (hrun : (run settings document .auto).runOn w = (.ok s, u)) (hremoved : s.removed = 0)
    (hquiet : NoEditFailed w u) :
    ∀ i ∈ completed issues, ∀ t : Target, t.IsOf w.cwd i → ¬t.IsPresent w := by
  obtain ⟨v, hv, hcourse⟩ :=
    @runOn_run settings document .auto w b bytes issues hb hdocument hissues
  rw [hcourse] at hrun
  rcases hreview : review .auto w issues with ⟨r, _ | fault⟩
  · rw [hreview] at hrun
    simp only at hrun
    rw [runOn_bind_eq_ok_iff] at hrun
    obtain ⟨patches, u₁, hmapM, hconclude⟩ := hrun
    rw [conclude, runOn_bind_of_ok (runOn_report _), runOn_pure] at hconclude
    cases hconclude
    have hpatches : ∀ p ∈ patches, p.isChange = false := by
      simpa [Synced.removed, List.filter_eq_nil_iff] using hremoved
    have hreal : ∀ t ∈ removals r.accepted, t.path.IsReal := by
      intro t ht
      have haccepted : t ∈ (review .auto w issues).1.accepted := by
        rw [hreview]
        exact mem_removals_iff.mp ht
      exact (isReal_of_mem_accepted hcwd haccepted).1
    have hframe : Frame (fun _ => True) v u₁ := by
      have hremovals := @frame_removals b v (fun _ => True) (removals r.accepted) fun t ht =>
        ⟨hreal t ht, fun _ _ => trivial⟩
      rwa [hmapM] at hremovals
    have hevents := (@OnlyReports.frame w v (fun _ => True) hv).events
    obtain ⟨-, hquiet⟩ := hquiet.split hevents (hframe.events.trans (List.prefix_append _ _))
    obtain ⟨hquiet, -⟩ := hquiet.split hframe.events (List.prefix_append _ _)
    have habsent := not_isPresent_of_removals hreal hmapM hpatches hquiet
    intro i hi t ht hpresent
    obtain ⟨start, hcontent, -⟩ := id hpresent
    have haccepted := (Review.mem_accepted_of_run rfl hreview).2 i hi t start ht hcontent
    exact habsent t (mem_removals_iff.mpr haccepted)
      ((Target.isPresent_congr hv.tree hv.cwd).mpr hpresent)
  · rw [hreview] at hrun
    cases hrun

end Second

/-- A second run, from what the first one left, removes nothing exactly if each line that an issue
asks for is then beyond the end of its file; only a path that the system cannot hold or an edit that
fails may come between. The first run leaves the document alone unless it is a backup or an issue
points at it. -/
theorem second_run_removes_nothing_iff (settings : Settings) (document : Path) (w w₁ : Workspace)
    (b : Backups) (bytes : Bytes) (issues : List Issue) (s₁ : Synced)
    (hcwd : ∀ s ∈ w.cwd, Path.IsName s) (hb : settings.backups w.cwd = .ok b)
    (hdocument : w.content document = .ok bytes)
    (hissues : readDocument (decode bytes) = .ok issues)
    (hfirst : (run settings document .auto).runOn w = (.ok s₁, w₁)) :
    (¬Touches b w.cwd issues (document.resolve w.cwd) → w₁.content document = .ok bytes) ∧
    ∀ bytes₁ issues₁, w₁.content document = .ok bytes₁ →
      readDocument (decode bytes₁) = .ok issues₁ →
      ((∀ i ∈ completed issues₁, ∀ t : Target, t.IsOf w.cwd i → ¬t.IsPresent w₁) →
        ((run settings document .auto).runOn w₁).2.tree = w₁.tree ∧
          ((∀ i ∈ completed issues₁, HasPath w.cwd i) →
            ∃ s₂ w₂, (run settings document .auto).runOn w₁ = (.ok s₂, w₂) ∧ s₂.removed = 0)) ∧
      ∀ s₂ w₂, (run settings document .auto).runOn w₁ = (.ok s₂, w₂) → s₂.removed = 0 →
        NoEditFailed w₁ w₂ →
        ∀ i ∈ completed issues₁, ∀ t : Target, t.IsOf w.cwd i → ¬t.IsPresent w₁ := by
  have hframe := @frame_run settings document .auto w b bytes issues hcwd hb hdocument hissues
  rw [hfirst] at hframe
  refine ⟨hframe.content hdocument, fun bytes₁ issues₁ hdocument₁ hissues₁ => ?_⟩
  have hcwd₁ : w₁.cwd = w.cwd := hframe.cwd
  rw [← hcwd₁] at hcwd hb ⊢
  refine ⟨run_of_not_isPresent hcwd hb hdocument₁ hissues₁, fun s₂ w₂ hrun hremoved hquiet => ?_⟩
  exact not_isPresent_of_run hcwd hb hdocument₁ hissues₁ hrun hremoved hquiet

/-- An issue that is done and points at the first line of a file. -/
def doneDocument : Text :=
  "* DONE b\n:PROPERTIES:\n:ID: b\n:CREATED: <2025-12-18 Thu 14:30>\n:SOURCE_FILE: a.py\n" ++
    ":SOURCE_LINE: 1\n:SOURCE_COLUMN: 1\n:SOURCE_UUID: 0\n:END:\n"

/-- The file holds the line of the issue only. -/
def loneTask : Workspace := ofFiles ["w"] [("a.py", "# TODO: b\n"), ("orgi.org", doneDocument)]

/-- Another line stands below the line of the issue. -/
def taskAboveLine : Workspace :=
  ofFiles ["w"] [("a.py", "# TODO: b\nx = 1\n"), ("orgi.org", doneDocument)]

def syncAll : Work Synced := run .default ⟨.relative, ["orgi.org"]⟩ .auto

theorem second_run_removes_nothing_loneTask :
    ∃ s₁ w₁ s₂ w₂, syncAll.runOn loneTask = (.ok s₁, w₁) ∧ s₁.removed = 1 ∧
      syncAll.runOn w₁ = (.ok s₂, w₂) ∧ s₂.removed = 0 := by
  have hcwd : ∀ s ∈ loneTask.cwd, Path.IsName s := by
    intro s hs
    obtain rfl : s = "w" := List.mem_singleton.mp hs
    exact ⟨⟨by decide, by decide, by decide⟩, by decide⟩
  obtain ⟨b, hb, -⟩ : ∃ b, Settings.default.backups loneTask.cwd = .ok b ∧
      True := by
    decide +kernel
  obtain ⟨bytes, hdocument, issues, hissues, -⟩ :
      ∃ bytes, loneTask.content ⟨.relative, ["orgi.org"]⟩ = .ok bytes ∧
        ∃ issues, readDocument (decode bytes) = .ok issues ∧ True := by
    decide +kernel
  obtain ⟨s₁, hfirst, hremoved⟩ :
      ∃ s₁, (syncAll.runOn loneTask).1 = .ok s₁ ∧ s₁.removed = 1 := by
    decide +kernel
  have hrun : syncAll.runOn loneTask =
      (.ok s₁, (syncAll.runOn loneTask).2) := by
    rw [← hfirst]
  obtain ⟨bytes₁, hdocument₁, issues₁, hissues₁, hissue⟩ :
      ∃ bytes, (syncAll.runOn loneTask).2.content
          ⟨.relative, ["orgi.org"]⟩ = .ok bytes ∧
        ∃ issues, readDocument (decode bytes) = .ok issues ∧
          ∀ i ∈ completed issues, ∃ p, fileOf loneTask.cwd i = .ok p ∧
            (∀ s ∈ p.segments, Tree.nameBytes s ≤ Tree.maxNameBytes) ∧
            ¬Target.IsPresent ⟨p, i.sourceLine?.getD 0⟩
              (syncAll.runOn loneTask).2 := by
    decide +kernel
  obtain ⟨-, hsecond⟩ := second_run_removes_nothing_iff .default ⟨.relative, ["orgi.org"]⟩
    loneTask _ b bytes issues s₁ hcwd hb hdocument hissues
    hrun
  obtain ⟨-, hreturns⟩ := (hsecond bytes₁ issues₁ hdocument₁ hissues₁).1 (by
    intro i hi t ht
    obtain ⟨p, hfile, -, habsent⟩ := hissue i hi
    obtain rfl : t = ⟨p, i.sourceLine?.getD 0⟩ := ht.unique (Target.IsOf.mk hfile rfl)
    exact habsent)
  obtain ⟨s₂, w₂, hagain, hnone⟩ := hreturns (by
    intro i hi
    obtain ⟨p, hfile, hshort, -⟩ := hissue i hi
    exact ⟨p, hfile, hshort⟩)
  exact ⟨s₁, _, s₂, w₂, hrun, hremoved, hagain, hnone⟩

/-- The line below a removed one moves up into its place and is removed by the second run. -/
theorem second_run_removes_next_line :
    ∃ s₁, (syncAll.runOn taskAboveLine).1 = .ok s₁ ∧
    ∃ s₂, (syncAll.runOn (syncAll.runOn taskAboveLine).2).1 = .ok s₂ ∧
      s₂.removed = 1 ∧
      (syncAll.runOn taskAboveLine).2.textAt
        ⟨.relative, ["a.py"]⟩ = "x = 1\n" ∧
      (syncAll.runOn (syncAll.runOn taskAboveLine).2).2.textAt
        ⟨.relative, ["a.py"]⟩ = "" := by
  decide +kernel

end Sync

end TodoLedger
