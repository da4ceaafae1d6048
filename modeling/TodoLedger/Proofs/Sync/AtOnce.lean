import TodoLedger.Proofs.Sync.Repeat
import TodoLedger.Proofs.Sync.Sweep
/-!
# All accepted lines at once

A run takes the accepted lines one by one and reads the file again before each of them. In the end
every file is as if its accepted lines had been taken out all at once. A number beyond the last line
changes nothing and is answered as a failure. Where no question is asked the order of the issues in
the document does not matter.
-/

namespace TodoLedger

open Work Workspace Utf8

theorem Target.isChange_answer {t : Target} {ls : List Line} (h : 1 ≤ t.line) :
    (t.answer ls).isChange = true ↔ t.line ≤ ls.length := by
  rw [answer]
  cases hline : ls[t.line - 1]? with
  | none =>
      have hlength := List.getElem?_eq_none_iff.mp hline
      simp only [Patch.isChange, Patch.failure, reduceCtorEq, decide_false, Bool.false_eq_true,
        false_iff]
      omega
  | some l =>
      have hlt := (List.getElem?_eq_some_iff.mp hline).1
      simp only [Patch.isChange, decide_true, true_iff]
      omega

namespace Sync

/-- The lines that the review of the issues accepts. -/
def acceptedBy (approver : Approver) (w : Workspace) (issues : List Issue) : List Target :=
  (review approver w issues).1.accepted

/-- The lines do not lie among the backups, and none of their files has a lone carriage return. -/
structure Removable (b : Backups) (accepted : List Target) (w : Workspace) : Prop where
  outside : ∀ t ∈ accepted, ¬b.Covers w.cwd (t.path.resolve w.cwd)
  noReturn : ∀ t ∈ accepted, ∀ l ∈ w.linesAt t.path, l.ending ≠ .cr

/-- The file is no backup of a file with an accepted line. -/
def IsKept (b : Backups) (accepted : List Target) (cwd : Place) (p : Path) : Prop :=
  p.IsReal ∧ ∀ t ∈ accepted, ¬b.Holds t.path.name cwd (p.resolve cwd)

section Accepted

variable {b : Backups} {w w' : Workspace} {approver : Approver} {issues issues' : List Issue}
  {accepted : List Target} {t : Target} {r : Review}

theorem sound_review (approver : Approver) (w : Workspace) (issues : List Issue) :
    Review.Sound w (completed issues) (review approver w issues).1 :=
  (Review.Sound.start w _ approver.isAuto _).run fun _ hi => hi

theorem perm_removals (h : accepted.Nodup) : (removals accepted).Perm accepted := by
  have hnodup : (removals accepted).Nodup := by
    refine (removals_pairwise h).imp fun {s t} hlt hsame => ?_
    subst hsame
    exact absurd (hlt rfl) (Nat.lt_irrefl _)
  exact (List.perm_ext_iff_of_nodup hnodup h).mpr fun _ => mem_removals_iff

theorem Removable.sweepable (h : Removable b (acceptedBy approver w issues) w)
    (hcwd : ∀ s ∈ w.cwd, Path.IsName s) :
    Sweepable b (removals (acceptedBy approver w issues)) w := by
  have hsound := sound_review approver w issues
  refine ⟨fun t ht => ?_, fun t ht => ?_, fun s hs t ht hheld => ?_, fun t ht => ?_⟩
  · exact (isReal_of_mem_accepted hcwd (mem_removals_iff.mp ht)).1
  · obtain ⟨⟨i, hi, hof⟩, -⟩ := hsound.accepted t (mem_removals_iff.mp ht)
    exact pos_of_completed hi hof
  · exact h.outside t (mem_removals_iff.mp ht) hheld.covers
  · obtain ⟨-, bytes, hcontent⟩ := hsound.accepted t (mem_removals_iff.mp ht)
    have hreturn := h.noReturn t (mem_removals_iff.mp ht)
    rw [linesAt_of_content hcontent] at hreturn
    exact ⟨bytes, hcontent, clean_lines (isStable_decode bytes) hreturn⟩

/-- Where no question is asked the targets of the issues are accepted whose files are there. -/
theorem mem_acceptedBy_auto (hdone : (review .auto w issues).2 = none) :
    t ∈ acceptedBy .auto w issues ↔
      (∃ i ∈ completed issues, t.IsOf w.cwd i) ∧ ∃ bytes, w.content t.path = .ok bytes := by
  refine ⟨fun ht => (sound_review .auto w issues).accepted t ht, ?_⟩
  rintro ⟨⟨i, hi, hof⟩, bytes, hcontent⟩
  have hrun : review .auto w issues = (⟨(review .auto w issues).1, none⟩ : _ × _) := by
    rw [← hdone]
  exact (Review.mem_accepted_of_run rfl hrun).2 i hi t bytes hof hcontent

/-- The same lines are accepted whatever the order of the issues, and whatever text the document
has. -/
theorem mem_acceptedBy_congr {document : Path} {old bytes : Bytes}
    (hdocument : w.content document = .ok old) (hw' : w.withContent document bytes = .ok w')
    (hissues : issues'.Perm issues) (hdone : (review .auto w issues).2 = none)
    (hdone' : (review .auto w' issues').2 = none) :
    t ∈ acceptedBy .auto w' issues' ↔ t ∈ acceptedBy .auto w issues := by
  have hcwd : w'.cwd = w.cwd := by
    obtain ⟨place, -, -, -, rfl⟩ := withContent_eq_ok_iff.mp hw'
    rfl
  have hcompleted : ∀ i, i ∈ completed issues' ↔ i ∈ completed issues := fun i =>
    (hissues.filter _).mem_iff
  rw [mem_acceptedBy_auto hdone, mem_acceptedBy_auto hdone', hcwd,
    exists_content_of_withContent hw' hdocument]
  simp only [hcompleted]

end Accepted

/-- The end of a run that takes out all accepted lines at once. -/
structure RemovesAtOnce (settings : Settings) (document : Path) (approver : Approver) (b : Backups)
    (issues : List Issue) (w : Workspace) (y : Synced) (u : Workspace) : Prop where
  /-- What is accepted are lines of issues that are done, each once, in files at resolved paths. -/
  accepted : (acceptedBy approver w issues).Nodup ∧ ∀ t ∈ acceptedBy approver w issues,
    t.path.IsReal ∧ 1 ≤ t.line ∧ ∃ i ∈ completed issues, t.IsOf w.cwd i
  files : ∀ p bytes, IsKept b (acceptedBy approver w issues) w.cwd p → w.content p = .ok bytes →
    u.content p = .ok (bytesOf (Text.ofLines (Text.without
      (fun k => (acceptedBy approver w issues).contains ⟨p, k + 1⟩) (Text.lines (decode bytes)))))
  /-- Each answer is that for the lines that the file had at the beginning. -/
  patches : y.patches = (removals (acceptedBy approver w issues)).map
    fun t => t.answer (w.linesAt t.path)
  removed : y.removed =
    (acceptedBy approver w issues).countP fun t => t.line ≤ (w.linesAt t.path).length
  skipped : y.skipped = (review approver w issues).1.skipped +
    (acceptedBy approver w issues).countP fun t => (w.linesAt t.path).length < t.line
  /-- In another run with the same issues in another order every file comes out the same. -/
  order : approver = .auto → ∀ bytes' w' issues' y' u', w.withContent document bytes' = .ok w' →
    readDocument (decode bytes') = .ok issues' → issues'.Perm issues →
    Removable b (acceptedBy .auto w' issues') w' →
    (run settings document .auto).runOn w' = (.ok y', u') → NoEditFailed w' u' →
    ∀ p bytes, IsKept b (acceptedBy approver w issues) w.cwd p → w.content p = .ok bytes →
      p.resolve w.cwd ≠ document.resolve w.cwd → u'.content p = u.content p

section Run

variable {settings : Settings} {document : Path} {approver : Approver} {b : Backups}
  {w u : Workspace} {bytes : Bytes} {issues : List Issue} {y : Synced}

/-- A run that returns has come to the end of its review. -/
theorem review_of_run (hb : settings.backups w.cwd = .ok b)
    (hdocument : w.content document = .ok bytes)
    (hissues : readDocument (decode bytes) = .ok issues)
    (hrun : (run settings document approver).runOn w = (.ok y, u)) :
    (review approver w issues).2 = none := by
  obtain ⟨v, -, hcourse⟩ :=
    @runOn_run settings document approver w b bytes issues hb hdocument hissues
  rw [hcourse] at hrun
  rcases hreview : review approver w issues with ⟨r, _ | fault⟩
  · rfl
  · rw [hreview] at hrun
    cases hrun

/-- The accepted lines are taken out, and the answers say which were there. -/
private theorem result_of_run (hcwd : ∀ s ∈ w.cwd, Path.IsName s)
    (hb : settings.backups w.cwd = .ok b) (hdocument : w.content document = .ok bytes)
    (hissues : readDocument (decode bytes) = .ok issues)
    (hremovable : Removable b (acceptedBy approver w issues) w)
    (hrun : (run settings document approver).runOn w = (.ok y, u)) (hquiet : NoEditFailed w u) :
    y.skippedInReview = (review approver w issues).1.skipped ∧
      y.patches = (removals (acceptedBy approver w issues)).map
        (fun t => t.answer (w.linesAt t.path)) ∧
      ∀ p bytes, IsKept b (acceptedBy approver w issues) w.cwd p → w.content p = .ok bytes →
        u.content p = .ok (bytesOf (Text.ofLines (Text.without
          (fun k => (acceptedBy approver w issues).contains ⟨p, k + 1⟩)
          (Text.lines (decode bytes))))) := by
  have hreview : review approver w issues = ⟨(review approver w issues).1, none⟩ := by
    rw [← review_of_run hb hdocument hissues hrun]
  obtain ⟨hy, -, hfiles⟩ := sweep_of_run hb hdocument hissues hreview (hremovable.sweepable hcwd) hrun
    hquiet (by simp)
  obtain rfl := Except.ok.inj hy
  refine ⟨rfl, rfl, fun p bytes hp hcontent => ?_⟩
  rw [hfiles p bytes hp.1 (fun t ht => hp.2 t (mem_removals_iff.mp ht)) hcontent]
  congr 4
  funext k
  rw [Bool.eq_iff_iff, List.contains_iff_mem, List.contains_iff_mem]
  exact mem_removals_iff

/-- A run that returns, and in which no operation on files fails, takes out of each file just the
accepted lines. Numbers beyond the last line are answered as failures and counted as skipped. Where
all is accepted the files do not depend on the order of the issues. -/
theorem run_removes_at_once (hcwd : ∀ s ∈ w.cwd, Path.IsName s)
    (hb : settings.backups w.cwd = .ok b) (hdocument : w.content document = .ok bytes)
    (hissues : readDocument (decode bytes) = .ok issues)
    (hremovable : Removable b (acceptedBy approver w issues) w)
    (hrun : (run settings document approver).runOn w = (.ok y, u)) (hquiet : NoEditFailed w u) :
    RemovesAtOnce settings document approver b issues w y u := by
  obtain ⟨hskipped, hpatches, hfiles⟩ :=
    result_of_run hcwd hb hdocument hissues hremovable hrun hquiet
  have hsound := sound_review approver w issues
  have haccepted : ∀ t ∈ acceptedBy approver w issues,
      t.path.IsReal ∧ 1 ≤ t.line ∧ ∃ i ∈ completed issues, t.IsOf w.cwd i := by
    intro t ht
    obtain ⟨hreal, ⟨i, hi, hof⟩, -⟩ := isReal_of_mem_accepted hcwd ht
    exact ⟨hreal, pos_of_completed hi hof, i, hi, hof⟩
  have hperm : (removals (acceptedBy approver w issues)).Perm (acceptedBy approver w issues) :=
    perm_removals hsound.nodup
  have hchange : ∀ t ∈ removals (acceptedBy approver w issues),
      ((t.answer (w.linesAt t.path)).isChange = true ↔ t.line ≤ (w.linesAt t.path).length) :=
    fun t ht => Target.isChange_answer (haccepted t (mem_removals_iff.mp ht)).2.1
  refine ⟨⟨hsound.nodup, haccepted⟩, hfiles, hpatches, ?_, ?_, ?_⟩
  · rw [Synced.removed, hpatches, ← List.countP_eq_length_filter, List.countP_map, ← hperm.countP_eq]
    exact List.countP_congr fun t ht => by simp [hchange t ht]
  · rw [Synced.skipped, hskipped, hpatches, ← List.countP_eq_length_filter, List.countP_map,
      ← hperm.countP_eq]
    refine congrArg _ (List.countP_congr fun t ht => ?_)
    simp only [Function.comp, Bool.not_eq_true', decide_eq_true_eq]
    rw [← Bool.not_eq_true, hchange t ht, Nat.not_le]
  · rintro rfl bytes' w' issues' y' u' hw' hissues' hsame hremovable' hrun' hquiet' p start hp hstart
      hother
    have hcwd' : w'.cwd = w.cwd := by
      obtain ⟨place, -, -, -, rfl⟩ := withContent_eq_ok_iff.mp hw'
      rfl
    have hdocument' := content_of_withContent hw'
    rw [← hcwd'] at hb
    have hmem : ∀ t, t ∈ acceptedBy .auto w' issues' ↔ t ∈ acceptedBy .auto w issues := fun t =>
      mem_acceptedBy_congr hdocument hw' hsame (review_of_run (hcwd' ▸ hb) hdocument hissues hrun)
        (review_of_run hb hdocument' hissues' hrun')
    obtain ⟨-, -, hfiles'⟩ := result_of_run (by rwa [hcwd']) hb hdocument' hissues' hremovable' hrun'
      hquiet'
    have hstart' := content_of_withContent_of_ne hw' hother hstart
    have hkept : IsKept b (acceptedBy .auto w' issues') w'.cwd p := by
      refine ⟨hp.1, fun t ht => ?_⟩
      rw [hcwd']
      exact hp.2 t ((hmem t).mp ht)
    rw [hfiles' p start hkept hstart', hfiles p start hp hstart]
    congr 4
    funext k
    rw [Bool.eq_iff_iff, List.contains_iff_mem, List.contains_iff_mem]
    exact hmem _

end Run

/-- An issue that is done and points at a line of a file. -/
def doneEntry (id file line : Text) : Text :=
  "* DONE b\n:PROPERTIES:\n:ID: " ++ id ++ "\n:CREATED: <2025-12-18 Thu 14:30>\n:SOURCE_FILE: " ++
    file ++ "\n:SOURCE_LINE: " ++ line ++ "\n:SOURCE_COLUMN: 1\n:SOURCE_UUID: 0\n:END:\n"

/-- Four lines of a file are asked for, which is spelled in three ways: one of them twice, and one
that is not there. -/
def fourDone : Workspace :=
  ofFiles ["w"] [("a.py", "# TODO: b\r\nx = 1\n# TODO: c\ny = 2"), ("b.py", "z"), ("orgi.org",
    doneEntry "1" "a.py" "1" ++ doneEntry "2" "./a.py" "7" ++ doneEntry "3" "../w/a.py" "3" ++
      doneEntry "4" "a.py" "1")]

/-- The entries of that document in the reverse order. -/
def fourReversed : Text :=
  doneEntry "4" "a.py" "1" ++ doneEntry "3" "../w/a.py" "3" ++ doneEntry "2" "./a.py" "7" ++
    doneEntry "1" "a.py" "1"

/-- The lines that are accepted can be removed, and a run comes to its end without a failed edit. -/
def RunsThrough (approver : Approver) (w : Workspace) (issues : List Issue) : Prop :=
  (∀ t ∈ acceptedBy approver w issues,
    ¬Backups.Covers ⟨Backups.defaultDirectory, 10⟩ w.cwd (t.path.resolve w.cwd) ∧
      ∀ l ∈ w.linesAt t.path, l.ending ≠ .cr) ∧
  w.events = [] ∧
  ∃ y, ((run .default ⟨.relative, ["orgi.org"]⟩ approver).runOn w).1 = .ok y ∧
    ∀ e ∈ ((run .default ⟨.relative, ["orgi.org"]⟩ approver).runOn w).2.events, ¬e.IsEditFailure

instance (approver : Approver) (w : Workspace) (issues : List Issue) :
    Decidable (RunsThrough approver w issues) :=
  inferInstanceAs (Decidable (_ ∧ _ ∧ _))

theorem RunsThrough.exists_run {approver : Approver} {w : Workspace} {issues : List Issue}
    (h : RunsThrough approver w issues) :
    Removable ⟨Backups.defaultDirectory, 10⟩ (acceptedBy approver w issues) w ∧
      ∃ y u, (run .default ⟨.relative, ["orgi.org"]⟩ approver).runOn w = (.ok y, u) ∧
        NoEditFailed w u := by
  obtain ⟨hlines, hstart, y, hy, hevents⟩ := h
  refine ⟨⟨fun t ht => (hlines t ht).1, fun t ht => (hlines t ht).2⟩, ?_⟩
  rcases hrun : (run .default ⟨.relative, ["orgi.org"]⟩ approver).runOn w with ⟨s, u⟩
  rw [hrun] at hy hevents
  obtain rfl : s = .ok y := hy
  exact ⟨y, u, rfl, u.events, by rw [hstart, List.nil_append], hevents⟩

/-- A run that asks and one that does not. The second comes out the same with the entries of the
document in the reverse order. -/
theorem run_removes_at_once_fourDone : ∃ b bytes issues,
    ((∀ s ∈ fourDone.cwd, Path.IsName s) ∧ Settings.default.backups fourDone.cwd = .ok b ∧
      fourDone.content ⟨.relative, ["orgi.org"]⟩ = .ok bytes ∧
      readDocument (decode bytes) = .ok issues) ∧
    (∃ y u, Removable b (acceptedBy (.scripted [.yes, .all]) fourDone issues) fourDone ∧
      (run .default ⟨.relative, ["orgi.org"]⟩ (.scripted [.yes, .all])).runOn fourDone = (.ok y, u) ∧
      NoEditFailed fourDone u ∧
      RemovesAtOnce .default ⟨.relative, ["orgi.org"]⟩ (.scripted [.yes, .all]) b issues fourDone y
        u) ∧
    ∃ y u, Removable b (acceptedBy .auto fourDone issues) fourDone ∧
      (run .default ⟨.relative, ["orgi.org"]⟩ .auto).runOn fourDone = (.ok y, u) ∧
      NoEditFailed fourDone u ∧
      RemovesAtOnce .default ⟨.relative, ["orgi.org"]⟩ .auto b issues fourDone y u ∧
      ∃ w' y' u', fourDone.withContent ⟨.relative, ["orgi.org"]⟩ (bytesOf fourReversed) = .ok w' ∧
        readDocument (decode (bytesOf fourReversed)) = .ok issues.reverse ∧
        issues.reverse ≠ issues ∧
        (run .default ⟨.relative, ["orgi.org"]⟩ .auto).runOn w' = (.ok y', u') ∧
        (∃ start, fourDone.content (.absolute ["w", "a.py"]) = .ok start ∧
          u.content (.absolute ["w", "a.py"]) ≠ .ok start) ∧
        u'.content (.absolute ["w", "a.py"]) = u.content (.absolute ["w", "a.py"]) := by
  have hname : ∀ s ∈ fourDone.cwd, Path.IsName s := by
    intro s hs
    obtain rfl : s = "w" := List.mem_singleton.mp hs
    exact ⟨⟨by decide, by decide, by decide⟩, by decide⟩
  have hb : Settings.default.backups fourDone.cwd = .ok ⟨Backups.defaultDirectory, 10⟩ := rfl
  obtain ⟨bytes, hdocument, issues, hissues, hscripted, hauto, ⟨hreversed, hother⟩, w', hw', hauto'⟩ :
      ∃ bytes, fourDone.content ⟨.relative, ["orgi.org"]⟩ = .ok bytes ∧
        ∃ issues, readDocument (decode bytes) = .ok issues ∧
          RunsThrough (.scripted [.yes, .all]) fourDone issues ∧ RunsThrough .auto fourDone issues ∧
          (readDocument (decode (bytesOf fourReversed)) = .ok issues.reverse ∧
            issues.reverse ≠ issues) ∧
          ∃ w', fourDone.withContent ⟨.relative, ["orgi.org"]⟩ (bytesOf fourReversed) = .ok w' ∧
            RunsThrough .auto w' issues.reverse := by
    decide +kernel
  obtain ⟨start, hstart, hchanged⟩ : ∃ start, fourDone.content (.absolute ["w", "a.py"]) = .ok start ∧
      ((run .default ⟨.relative, ["orgi.org"]⟩ .auto).runOn fourDone).2.content
        (.absolute ["w", "a.py"]) ≠ .ok start := by
    decide +kernel
  obtain ⟨hremovable, y, u, hrun, hquiet⟩ := hscripted.exists_run
  obtain ⟨hremovable₁, y₁, u₁, hrun₁, hquiet₁⟩ := hauto.exists_run
  obtain ⟨hremovable', y', u', hrun', hquiet'⟩ := hauto'.exists_run
  rw [hrun₁] at hchanged
  have hatOnce : RemovesAtOnce .default ⟨.relative, ["orgi.org"]⟩ .auto
      ⟨Backups.defaultDirectory, 10⟩ issues fourDone y₁ u₁ :=
    run_removes_at_once hname hb hdocument hissues hremovable₁ hrun₁ hquiet₁
  have hkept : IsKept ⟨Backups.defaultDirectory, 10⟩ (acceptedBy .auto fourDone issues) fourDone.cwd
      (.absolute ["w", "a.py"]) := by
    refine ⟨⟨_, rfl, ?_⟩, fun t _ hheld => absurd hheld.covers (by decide +kernel)⟩
    intro s hs
    rcases List.mem_cons.mp hs with rfl | hs
    · exact hname _ List.mem_cons_self
    · obtain rfl := List.mem_singleton.mp hs
      exact ⟨⟨by decide, by decide, by decide⟩, by decide⟩
  refine ⟨_, bytes, issues, ⟨hname, hb, hdocument, hissues⟩, ⟨y, u, hremovable, hrun, hquiet, ?_⟩,
    y₁, u₁, hremovable₁, hrun₁, hquiet₁, hatOnce, w', y', u', hw', hreversed, hother, hrun',
    ⟨start, hstart, hchanged⟩, ?_⟩
  · exact run_removes_at_once hname hb hdocument hissues hremovable hrun hquiet
  · exact hatOnce.order rfl _ w' issues.reverse y' u' hw' hreversed (List.reverse_perm issues)
      hremovable' hrun' hquiet' _ start hkept hstart (by decide +kernel)

example : ((run .default ⟨.relative, ["orgi.org"]⟩ (.scripted [.yes, .all])).runOn fourDone).2.textAt
    ⟨.relative, ["a.py"]⟩ = "x = 1\ny = 2" := by
  decide +kernel

end Sync

end TodoLedger
