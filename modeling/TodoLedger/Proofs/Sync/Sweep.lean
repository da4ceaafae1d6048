import TodoLedger.Proofs.Sync.Run
import TodoLedger.Proofs.Text.Clean
/-!
# A sweep of removals

Removals that go from the bottom up take out of each file just the lines that are asked for. A line
that is removed stands below those that are still to go, so that their numbers hold until the end.
-/

namespace TodoLedger

open Work Workspace Utf8

/-! ## Lines at picked positions -/

/-- The lines that are left when those at picked positions are taken out. -/
def Text.without (picked : Nat → Bool) (ls : List Line) : List Line :=
  (ls.zipIdx.filter fun e => !picked e.2).map Prod.fst

section Without

variable {picked : Nat → Bool} {ls ms : List Line} {l : Line} {n : Nat}

theorem Text.without_cons (picked : Nat → Bool) (l : Line) (ls : List Line) :
    without picked (l :: ls) =
      (if picked 0 then [] else [l]) ++ without (fun k => picked (k + 1)) ls := by
  have hshift : ls.zipIdx 1 = ls.zipIdx.map fun e => (e.1, e.2 + 1) := by
    rw [List.zipIdx_succ]
  rw [without, without, List.zipIdx_cons, hshift, List.filter_cons, List.filter_map]
  cases picked 0 <;> simp [Function.comp_def]

theorem Text.without_of_not (h : ∀ k, picked k = false) : without picked ls = ls := by
  simp [without, h]

/-- The line at one more position is taken out, which stands behind all the others. -/
theorem Text.without_eraseIdx (h : ∀ k, picked k = true → k < n) :
    without picked (ls.eraseIdx n) = without (fun k => picked k || k = n) ls := by
  induction ls generalizing picked n with
  | nil => rfl
  | cons l ls ih =>
      cases n with
      | zero =>
          have hnone : ∀ k, picked k = false := fun k => by
            by_contra hk
            exact absurd (h k (by simpa using hk)) (Nat.not_lt_zero k)
          rw [List.eraseIdx_cons_zero, without_cons, without_of_not hnone]
          simp [hnone, without_of_not]
      | succ n =>
          have hrest := @ih (fun k => picked (k + 1)) n
            fun k hk => Nat.lt_of_succ_lt_succ (h (k + 1) hk)
          rw [List.eraseIdx_cons_succ, without_cons, without_cons, hrest]
          simp

/-- What is left depends on the lines that are not picked. -/
theorem Text.without_congr (hlength : ms.length = ls.length)
    (h : ∀ k : Nat, picked k = false → ms[k]? = ls[k]?) :
    without picked ms = without picked ls := by
  induction ls generalizing ms picked with
  | nil => rw [List.length_eq_zero_iff.mp hlength]
  | cons l ls ih =>
      cases ms with
      | nil => cases hlength
      | cons m ms =>
          have hrest := @ih (fun k => picked (k + 1)) ms (Nat.succ.inj hlength)
            fun k hk => h (k + 1) hk
          rw [without_cons, without_cons, hrest]
          cases hfirst : picked 0 with
          | true => rfl
          | false =>
              obtain rfl : m = l := by simpa using h 0 hfirst
              rfl

end Without

theorem Target.succ_eq_iff {t : Target} {k : Nat} (h : 1 ≤ t.line) :
    (⟨t.path, k + 1⟩ : Target) = t ↔ k = t.line - 1 := by
  obtain ⟨path, line⟩ := t
  simp only [Target.mk.injEq, true_and] at h ⊢
  omega

/-- The lines of the file at a path, or none. -/
def Workspace.linesAt (w : Workspace) (p : Path) : List Line :=
  match w.content p with
  | .ok bytes => Text.lines (decode bytes)
  | .error _ => []

theorem Workspace.linesAt_of_content {w : Workspace} {p : Path} {bytes : Bytes}
    (h : w.content p = .ok bytes) : w.linesAt p = Text.lines (decode bytes) := by
  rw [linesAt, h]

/-- What the removal of a line answers: the line is there, or its number is out of range. -/
def Target.answer (t : Target) (ls : List Line) : Patch :=
  match ls[t.line - 1]? with
  | some l => ⟨t.path, .applied, "Removed TODO line: " ++ Text.trim l.body⟩
  | none => Patch.failure t.path (.removeLine t.line) (.lineOutOfRange t.line t.path)

theorem Target.answer_congr {t : Target} {ls ms : List Line}
    (h : ms[t.line - 1]? = ls[t.line - 1]?) : t.answer ms = t.answer ls := by
  rw [answer, answer, h]

namespace Sync

variable {b : Backups} {P : Path → Prop} {t : Target} {ts : List Target} {v u : Workspace}
  {bytes : Bytes} {p : Path}

/-! ## One removal -/

/-- Where no operation on files fails a removal takes the line out of its file if it is there, and it
answers whether it was. -/
theorem remove_spec {r : Except Fault Patch} (ht : t.path.IsReal) (hpos : 1 ≤ t.line)
    (hcontent : v.content t.path = .ok bytes) (hrun : (remove b t).runOn v = (r, u))
    (hquiet : NoEditFailed v u) (hfault : ∀ f, r = .error f → ¬f.IsOfFiles) :
    r = .ok (t.answer (v.linesAt t.path)) ∧
      u.content t.path =
        .ok (bytesOf (Text.ofLines ((Text.lines (decode bytes)).eraseIdx (t.line - 1)))) ∧
      Frame (Patch.Reaches b t.path v.cwd) v u := by
  rw [linesAt_of_content hcontent, Target.answer]
  have hstep := remove_step (b := b) ht hcontent
  rw [hrun] at hstep
  have heffect := hstep.effect
  cases hline : (Text.lines (decode bytes))[t.line - 1]? with
  | none =>
      have hlength := List.getElem?_eq_none_iff.mp hline
      have hedit := @Edit.apply_removeLine_of_gt t.path (Text.lines (decode bytes)) t.line (by omega)
      cases hstep with
      | refused h =>
          obtain rfl := Except.error.inj (hedit.symm.trans h)
          refine ⟨rfl, ?_, .of_tree_eq rfl rfl (List.prefix_append _ _)⟩
          rw [List.eraseIdx_of_length_le hlength, Text.ofLines_lines, bytesOf_decode]
          exact hcontent
      | unchanged h => simp [hedit] at h
      | applied h _ _ => simp [hedit] at h
      | failed h _ _ _ => simp [hedit] at h
      | raised h _ _ _ => simp [hedit] at h
  | some l =>
      have hedit := Edit.apply_removeLine_of_getElem? (p := t.path) hpos hline
      cases hstep with
      | refused h => simp [hedit] at h
      | unchanged h => simp [hedit] at h
      | applied h _ _ =>
          obtain ⟨-, rfl⟩ := Edited.changed.inj (Except.ok.inj (hedit.symm.trans h))
          rcases heffect with ⟨-, hleft⟩ | ⟨patch, ls, -, -, hwrites⟩
          · cases hleft _ rfl
          · obtain ⟨m, hedited⟩ := hwrites.edited
            obtain ⟨-, -, rfl⟩ := Edit.eq_of_removeLine_changed hedited
            exact ⟨rfl, hwrites.after, hwrites.frame⟩
      | failed _ hframe hfiles _ => exact absurd hfiles (hquiet.not_isOfFiles hframe.events)
      | raised _ _ hfiles _ => exact absurd hfiles (hfault _ rfl)

/-! ## All removals -/

/-- The targets are lines of files without lone carriage returns, and none of these files is a backup
of one of them. -/
structure Sweepable (b : Backups) (ts : List Target) (v : Workspace) : Prop where
  isReal : ∀ t ∈ ts, t.path.IsReal
  pos : ∀ t ∈ ts, 1 ≤ t.line
  unheld : ∀ s ∈ ts, ∀ t ∈ ts, ¬b.Holds s.path.name v.cwd (t.path.resolve v.cwd)
  clean : ∀ t ∈ ts, ∃ bytes, v.content t.path = .ok bytes ∧ Clean (Text.lines (decode bytes))

/-- Of the files that are no backups of its own file, a target has taken its line out of that one and
left the others. -/
structure TakesOut (b : Backups) (t : Target) (v u : Workspace) : Prop where
  cwd : u.cwd = v.cwd
  files : ∀ p start, p.IsReal → ¬b.Holds t.path.name v.cwd (p.resolve v.cwd) →
    v.content p = .ok start → ∃ rest, u.content p = .ok rest ∧
      (rest = start ∨ Clean (Text.lines (decode rest))) ∧
      Text.lines (decode rest) = if t.path = p then
        (Text.lines (decode start)).eraseIdx (t.line - 1) else Text.lines (decode start)

namespace Sweepable

theorem unheld_of_mem {s : Target} (h : Sweepable b (t :: ts) v) (hs : s ∈ ts) :
    ¬b.Holds t.path.name v.cwd (s.path.resolve v.cwd) :=
  h.unheld t List.mem_cons_self s (List.mem_cons_of_mem t hs)

theorem takesOut (h : Sweepable b (t :: ts) v) (hcontent : v.content t.path = .ok bytes)
    (hafter : u.content t.path =
      .ok (bytesOf (Text.ofLines ((Text.lines (decode bytes)).eraseIdx (t.line - 1)))))
    (hframe : Frame (Patch.Reaches b t.path v.cwd) v u) : TakesOut b t v u := by
  refine ⟨hframe.cwd, fun p start hp hunheld hstart => ?_⟩
  by_cases hpath : t.path = p
  · subst hpath
    obtain rfl := Except.ok.inj (hcontent.symm.trans hstart)
    obtain ⟨bytes', hbytes', hclean⟩ := h.clean t (by simp)
    obtain rfl := Except.ok.inj (hcontent.symm.trans hbytes')
    have hleft := hclean.sublist (List.eraseIdx_sublist (Text.lines (decode bytes)) (t.line - 1))
    refine ⟨_, hafter, Or.inr ?_, ?_⟩
    · rwa [hleft.lines_decode]
    · rw [hleft.lines_decode, if_pos rfl]
  · refine ⟨start, hframe.content hstart ?_, Or.inl rfl, by rw [if_neg hpath]⟩
    rintro (hplace | hheld)
    · exact hpath (hp.eq_of_resolve (h.isReal t (by simp)) hplace).symm
    · exact hunheld hheld

/-- The other targets can be swept then. -/
theorem rest (h : Sweepable b (t :: ts) v) (htakes : TakesOut b t v u) : Sweepable b ts u where
  isReal := fun s hs => h.isReal s (List.mem_cons_of_mem t hs)
  pos := fun s hs => h.pos s (List.mem_cons_of_mem t hs)
  unheld := fun s hs s' hs' => by
    rw [htakes.cwd]
    exact h.unheld s (List.mem_cons_of_mem t hs) s' (List.mem_cons_of_mem t hs')
  clean := fun s hs => by
    obtain ⟨start, hstart, hclean⟩ := h.clean s (List.mem_cons_of_mem t hs)
    obtain ⟨rest, hrest, hsame | hclean', -⟩ := htakes.files s.path start
      (h.isReal s (List.mem_cons_of_mem t hs)) (h.unheld_of_mem hs) hstart
    · exact ⟨rest, hrest, hsame ▸ hclean⟩
    · exact ⟨rest, hrest, hclean'⟩

/-- They are answered as they would have been before: in its file they stand above the line that is
gone. -/
theorem answer_eq {s : Target} (h : Sweepable b (t :: ts) v) (htakes : TakesOut b t v u)
    (hs : s ∈ ts) (habove : t.path = s.path → s.line < t.line) :
    s.answer (u.linesAt s.path) = s.answer (v.linesAt s.path) := by
  obtain ⟨start, hstart, -⟩ := h.clean s (List.mem_cons_of_mem t hs)
  obtain ⟨rest, hrest, -, hlines⟩ := htakes.files s.path start
    (h.isReal s (List.mem_cons_of_mem t hs)) (h.unheld_of_mem hs) hstart
  apply Target.answer_congr
  rw [linesAt_of_content hrest, linesAt_of_content hstart, hlines]
  split_ifs with hpath
  · have hlt := habove hpath
    have hpos := h.pos s (List.mem_cons_of_mem t hs)
    exact List.getElem?_eraseIdx_of_lt (by omega)
  · rfl

end Sweepable

/-- The line of a target and then those of targets above it are taken out of a file, or all at once. -/
theorem without_targets {ls ms : List Line} (hpos : 1 ≤ t.line)
    (habove : ∀ s ∈ ts, t.path = s.path → s.line < t.line)
    (hlines : ms = if t.path = p then ls.eraseIdx (t.line - 1) else ls) :
    Text.without (fun k => ts.contains ⟨p, k + 1⟩) ms =
      Text.without (fun k => (t :: ts).contains ⟨p, k + 1⟩) ls := by
  subst hlines
  split_ifs with hpath
  · subst hpath
    have hlater : ∀ k, ts.contains (⟨t.path, k + 1⟩ : Target) = true → k < t.line - 1 := by
      intro k hk
      have hlt : k + 1 < t.line := habove _ (List.contains_iff_mem.mp hk) rfl
      omega
    rw [Text.without_eraseIdx hlater]
    congr
    funext k
    simp [Target.succ_eq_iff hpos, Bool.or_comm]
  · congr
    funext k
    have hne : (⟨p, k + 1⟩ : Target) ≠ t := fun h => hpath (by rw [← h])
    simp [hne]

/-- Removals from the bottom up take out of each file the lines of its targets and nothing else, and
they answer what each of them would have answered at the beginning. -/
theorem sweep {r : Except Fault (List Patch)} (h : Sweepable b ts v)
    (hsorted : ts.Pairwise fun s t => s.path = t.path → t.line < s.line)
    (hrun : (ts.mapM (Sync.remove b)).runOn v = (r, u)) (hquiet : NoEditFailed v u)
    (hfault : ∀ f, r = .error f → ¬f.IsOfFiles) :
    r = .ok (ts.map fun t => t.answer (v.linesAt t.path)) ∧ ∀ p bytes, p.IsReal →
      (∀ t ∈ ts, ¬b.Holds t.path.name v.cwd (p.resolve v.cwd)) → v.content p = .ok bytes →
      u.content p = .ok (bytesOf (Text.ofLines
        (Text.without (fun k => ts.contains ⟨p, k + 1⟩) (Text.lines (decode bytes))))) := by
  induction ts generalizing v r with
  | nil =>
      obtain ⟨rfl, rfl⟩ := Prod.mk.inj hrun
      refine ⟨rfl, fun p bytes _ _ hcontent => ?_⟩
      rw [Text.without_of_not (by simp), Text.ofLines_lines, bytesOf_decode]
      exact hcontent
  | cons t ts ih =>
      obtain ⟨habove, hrest⟩ := List.pairwise_cons.mp hsorted
      have hreal := h.isReal t List.mem_cons_self
      have hpos := h.pos t List.mem_cons_self
      obtain ⟨bytes, hcontent, -⟩ := h.clean t List.mem_cons_self
      have hframe₀ := frame_remove (b := b) hreal v
      rcases hone : (Sync.remove b t).runOn v with ⟨fault | patch, v₁⟩
      · rw [List.mapM_cons, runOn_bind_of_error hone] at hrun
        obtain ⟨rfl, rfl⟩ := Prod.mk.inj hrun
        obtain ⟨hpatch, -⟩ := remove_spec hreal hpos hcontent hone hquiet
          fun f hf => hfault f (by rw [Except.error.inj hf])
        cases hpatch
      · rw [hone] at hframe₀
        rcases hmany : (ts.mapM (Sync.remove b)).runOn v₁ with ⟨r₁, u₁⟩
        obtain ⟨rfl, rfl⟩ : r₁.map (patch :: ·) = r ∧ u₁ = u := by
          rw [runOn_mapM_cons_of_ok hone, hmany] at hrun
          exact Prod.mk.inj hrun
        have hframes := @frame_removals b v₁ (fun _ => True) ts fun s hs =>
          ⟨h.isReal s (List.mem_cons_of_mem t hs), fun _ _ => trivial⟩
        rw [hmany] at hframes
        obtain ⟨hquiet₁, hquiet₂⟩ := hquiet.split hframe₀.events hframes.events
        obtain ⟨hpatch, hafter, hframe⟩ :=
          remove_spec hreal hpos hcontent hone hquiet₁ (by simp)
        obtain rfl := Except.ok.inj hpatch
        have htakes := h.takesOut hcontent hafter hframe
        obtain ⟨hanswers, hfiles⟩ :=
          ih (h.rest htakes) hrest hmany hquiet₂ fun f hf => hfault f (by rw [hf]; rfl)
        constructor
        · rw [hanswers, List.map_cons]
          exact congrArg (fun l => Except.ok (_ :: l))
            (List.map_congr_left fun s hs => h.answer_eq htakes hs (habove s hs))
        · intro p start hp hnone hstart
          obtain ⟨hnot, hnots⟩ := List.forall_mem_cons.mp hnone
          obtain ⟨rest, hafter', -, hlines⟩ := htakes.files p start hp hnot hstart
          rw [hfiles p rest hp (by rwa [htakes.cwd]) hafter', without_targets hpos habove hlines]

/-! ## A run -/

/-- Every issue that is done and points at a source file asks for a line. -/
theorem pos_of_completed {issues : List Issue} {cwd : Place} {i : Issue}
    (hi : i ∈ completed issues) (ht : t.IsOf cwd i) : 1 ≤ t.line := by
  obtain ⟨-, hkept⟩ := List.mem_filter.mp hi
  simp only [Issue.isLinked, Bool.and_eq_true] at hkept
  obtain ⟨n, hn⟩ := Option.isSome_iff_exists.mp hkept.2.2
  rw [ht.line, hn, Option.getD_some]
  rw [Issue.sourceLine?] at hn
  obtain ⟨text, -, hpositive⟩ := Option.bind_eq_some_iff.mp hn
  rw [positive?] at hpositive
  split at hpositive
  · obtain rfl := Option.some.inj hpositive
    omega
  · cases hpositive

/-- Where no operation on files fails a run whose review comes to its end takes out of each file the
accepted lines, all at once. -/
theorem sweep_of_run {settings : Settings} {document : Path} {approver : Approver}
    {issues : List Issue} {review₀ : Review} {s : Except Fault Synced}
    (hb : settings.backups v.cwd = .ok b) (hdocument : v.content document = .ok bytes)
    (hissues : readDocument (decode bytes) = .ok issues)
    (hreview : review approver v issues = (review₀, none))
    (h : Sweepable b (removals review₀.accepted) v)
    (hrun : (run settings document approver).runOn v = (s, u)) (hquiet : NoEditFailed v u)
    (hfault : ∀ f, s = .error f → ¬f.IsOfFiles) :
    s = .ok ⟨issues.length, (completed issues).length, review₀.skipped, review₀.asked,
        (removals review₀.accepted).map fun t => t.answer (v.linesAt t.path)⟩ ∧
      Frame (fun _ => True) v u ∧ ∀ p bytes, p.IsReal →
        (∀ t ∈ removals review₀.accepted, ¬b.Holds t.path.name v.cwd (p.resolve v.cwd)) →
        v.content p = .ok bytes → u.content p = .ok (bytesOf (Text.ofLines
          (Text.without (fun k => (removals review₀.accepted).contains ⟨p, k + 1⟩)
            (Text.lines (decode bytes))))) := by
  obtain ⟨v₁, hv₁, hcourse⟩ :=
    @runOn_run settings document approver v b bytes issues hb hdocument hissues
  have hsound : Review.Sound v (completed issues) (review approver v issues).1 :=
    (Review.Sound.start v _ approver.isAuto _).run fun _ hi => hi
  rw [hreview] at hsound hcourse
  simp only at hcourse
  rw [hcourse, runOn_bind] at hrun
  rcases hmany : ((removals review₀.accepted).mapM (Sync.remove b)).runOn v₁ with ⟨r₁, u₁⟩
  rw [hmany] at hrun
  have hframes := @frame_removals b v₁ (fun _ => True) (removals review₀.accepted) fun t ht =>
    ⟨h.isReal t ht, fun _ _ => trivial⟩
  rw [hmany] at hframes
  have hframe : Frame (fun _ => True) v v₁ := hv₁.frame
  have hthere : Sweepable b (removals review₀.accepted) v₁ := by
    refine ⟨h.isReal, h.pos, ?_, fun t ht => ?_⟩
    · rw [hv₁.cwd]
      exact h.unheld
    · rw [hv₁.content]
      exact h.clean t ht
  have hlinesAt : v₁.linesAt = v.linesAt := by
    funext p
    rw [linesAt, linesAt, hv₁.content]
  cases r₁ with
  | error fault =>
      obtain ⟨rfl, rfl⟩ := Prod.mk.inj hrun
      obtain ⟨-, hquiet₁⟩ := hquiet.split hframe.events hframes.events
      obtain ⟨hok, -⟩ := sweep hthere (removals_pairwise hsound.nodup) hmany hquiet₁
        fun f hf => hfault f (by rw [Except.error.inj hf])
      cases hok
  | ok patches =>
      obtain ⟨rfl, rfl⟩ := Prod.mk.inj hrun
      have hend : Frame (fun _ => True) u₁ ((conclude issues review₀ patches).runOn u₁).2 :=
        .of_tree_eq rfl rfl (List.prefix_append _ _)
      obtain ⟨-, hquiet₁⟩ := hquiet.split hframe.events (hframes.trans hend).events
      obtain ⟨hquiet₂, -⟩ := hquiet₁.split hframes.events hend.events
      obtain ⟨hok, hfiles⟩ := sweep hthere (removals_pairwise hsound.nodup) hmany hquiet₂ (by simp)
      obtain rfl := Except.ok.inj hok
      refine ⟨by rw [hlinesAt], hframe.trans (hframes.trans hend), ?_⟩
      intro p bytes hp hnone hcontent
      refine hfiles p bytes hp ?_ (by rw [hv₁.content]; exact hcontent)
      rwa [hv₁.cwd]

/-- The files at some paths hold clean lines, and none of them is a backup of one of them. -/
structure Tidy (b : Backups) (P : Path → Prop) (v : Workspace) : Prop where
  isReal : ∀ p, P p → p.IsReal
  unheld : ∀ p q, P p → P q → ¬b.Holds q.name v.cwd (p.resolve v.cwd)
  clean : ∀ p, P p → ∃ bytes, v.content p = .ok bytes ∧ Clean (Text.lines (decode bytes))

/-- Where no operation on files fails, a run that asks no questions takes out of each file the lines
that the issues that are done point at, and nothing else. -/
theorem content_of_run {settings : Settings} {document : Path} {issues : List Issue}
    {picked : Path → Nat → Bool} {s : Except Fault Synced} (h : Tidy b P v)
    (hb : settings.backups v.cwd = .ok b) (hdocument : v.content document = .ok bytes)
    (hissues : readDocument (decode bytes) = .ok issues)
    (hpath : ∀ i ∈ completed issues, HasPath v.cwd i ∧ ∀ t : Target, t.IsOf v.cwd i → P t.path)
    (hpicked : ∀ p, P p → ∀ k,
      picked p k = true ↔ ∃ i ∈ completed issues, Target.IsOf v.cwd i ⟨p, k + 1⟩)
    (hrun : (run settings document .auto).runOn v = (s, u)) (hquiet : NoEditFailed v u)
    (hfault : ∀ f, s = .error f → ¬f.IsOfFiles) :
    (∃ y, s = .ok y) ∧ Frame (fun _ => True) v u ∧ ∀ p, P p → ∀ start,
      v.content p = .ok start → u.content p = .ok (bytesOf (Text.ofLines
        (Text.without (picked p) (Text.lines (decode start))))) := by
  rcases hreview : review .auto v issues with ⟨r, _ | fault⟩
  swap
  · have hdone := review_of_hasPath (Review.start true (Approver.auto.answers v.input))
      fun i hi => (hpath i hi).1
    rw [review, Approver.isAuto] at hreview
    rw [hreview] at hdone
    cases hdone
  -- What is accepted are the targets of the issues that are done.
  have hsound : Review.Sound v (completed issues) (review .auto v issues).1 :=
    (Review.Sound.start v _ true _).run fun _ hi => hi
  have hall := (Review.mem_accepted_of_run rfl hreview).2
  rw [hreview] at hsound
  have hmem : ∀ t, t ∈ removals r.accepted → ∃ i ∈ completed issues, t.IsOf v.cwd i :=
    fun t ht => (hsound.accepted t (mem_removals_iff.mp ht)).1
  have hP : ∀ t ∈ removals r.accepted, P t.path := by
    intro t ht
    obtain ⟨i, hi, hof⟩ := hmem t ht
    exact (hpath i hi).2 t hof
  have hsame : ∀ p, P p → (fun k => (removals r.accepted).contains ⟨p, k + 1⟩) = picked p := by
    intro p hp
    funext k
    rw [Bool.eq_iff_iff, List.contains_iff_mem, hpicked p hp]
    refine ⟨hmem _, fun hthere => mem_removals_iff.mpr ?_⟩
    obtain ⟨i, hi, ht⟩ := hthere
    obtain ⟨start, hstart, -⟩ := h.clean p hp
    exact hall i hi _ start ht hstart
  have hsweepable : Sweepable b (removals r.accepted) v := by
    refine ⟨fun t ht => h.isReal _ (hP t ht), fun t ht => ?_,
      fun s hs t ht => h.unheld _ _ (hP t ht) (hP s hs), fun t ht => h.clean _ (hP t ht)⟩
    obtain ⟨i, hi, hof⟩ := hmem t ht
    exact pos_of_completed hi hof
  obtain ⟨hreturned, hframe, hleft⟩ :=
    sweep_of_run hb hdocument hissues hreview hsweepable hrun hquiet hfault
  refine ⟨⟨_, hreturned⟩, hframe, fun p hp start hstart => ?_⟩
  rw [← hsame p hp]
  exact hleft p start (h.isReal p hp) (fun t ht => h.unheld p _ hp (hP t ht)) hstart

end Sync

end TodoLedger
