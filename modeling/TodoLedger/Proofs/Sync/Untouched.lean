import TodoLedger.Proofs.Gather.Repeat
import TodoLedger.Proofs.Sync.AtOnce
/-!
# What a run leaves alone

A removal makes its file shorter or leaves it as it is. So a file that loses a line never comes back to
its content, and a file that no accepted target is a line of keeps it. The document is a file like any
other here: it stays as it is unless an issue that is done points into the document itself.
-/

namespace TodoLedger

open Work Workspace Utf8

/-- The target is one of the lines of the file at a path. -/
def Target.IsLineOf (t : Target) (cwd : Place) (p : Path) (bytes : Bytes) : Prop :=
  t.path.resolve cwd = p.resolve cwd ∧ t.line ≤ (Text.lines (decode bytes)).length

instance (t : Target) (cwd : Place) (p : Path) (bytes : Bytes) : Decidable (t.IsLineOf cwd p bytes) :=
  inferInstanceAs (Decidable (_ ∧ _))

theorem Utf8.encodeRune_ne_nil (c : Rune) : encodeRune c ≠ [] := by
  rcases encodeRune_cases c with ⟨-, hbytes⟩ | ⟨-, hne, -⟩
  · rw [hbytes]
    exact List.cons_ne_nil _ _
  · exact hne

theorem Text.WellCut.text_ne_nil {ls : List Line} (h : WellCut ls) : ∀ l ∈ ls, l.text ≠ [] := by
  intro l hl hnil
  obtain ⟨hbody, hending⟩ := List.append_eq_nil_iff.mp hnil
  have hopen : l.ending = .open := by
    cases hend : l.ending with
    | «open» => rfl
    | lf => simp [hend, Ending.text] at hending
    | cr => simp [hend, Ending.text] at hending
    | crlf => simp [hend, Ending.text] at hending
  exact h.opened l hl hopen hbody

/-- Without one of its lines a text has fewer bytes. -/
theorem Text.length_bytesOf_eraseIdx {bytes : Bytes} {n : Nat}
    (h : n < (lines (decode bytes)).length) :
    (bytesOf (ofLines ((lines (decode bytes)).eraseIdx n))).length < bytes.length := by
  have hwhole : bytes = bytesOf (ofLines (lines (decode bytes))) := by
    rw [ofLines_lines, bytesOf_decode]
  have hline : 0 < ((lines (decode bytes))[n]).bytes.length := by
    have hne := (wellCut_lines (decode bytes)).text_ne_nil _ (List.getElem_mem h)
    obtain ⟨c, r, hcons⟩ := List.exists_cons_of_ne_nil hne
    rw [Line.bytes, hcons, bytesOf_cons, List.length_append]
    have hrune := List.length_pos_iff.mpr (encodeRune_ne_nil c)
    omega
  conv_rhs => rw [hwhole, ← List.take_append_drop n (lines (decode bytes)), List.drop_eq_getElem_cons h]
  rw [List.eraseIdx_eq_take_drop_succ]
  simp only [bytesOf_ofLines, List.map_append, List.map_cons, List.flatten_append, List.flatten_cons,
    List.length_append]
  omega

/-- Two paths of one place have one content. -/
theorem Workspace.content_of_resolve_eq {w : Workspace} {p q : Path} {place : Place} {bytes : Bytes}
    (hp : w.content p = .ok bytes) (hq : w.locate q = .ok place)
    (h : q.resolve w.cwd = p.resolve w.cwd) : w.content q = .ok bytes := by
  obtain ⟨place', hlocate, hfile⟩ := content_eq_ok_iff.mp hp
  refine content_eq_ok_iff.mpr ⟨place, hq, ?_⟩
  rw [eq_resolve_of_locate hq, h, ← eq_resolve_of_locate hlocate]
  exact hfile

namespace Sync

variable {b : Backups} {t : Target} {ts : List Target} {v u : Workspace} {bytes : Bytes} {p : Path}

/-- A file that is no backup of the file of a target. The path of the target leads somewhere. -/
structure IsApart (b : Backups) (p : Path) (v : Workspace) (t : Target) : Prop where
  isReal : t.path.IsReal
  located : ∃ place, v.locate t.path = .ok place
  unheld : ¬b.Holds t.path.name v.cwd (p.resolve v.cwd)

theorem IsApart.frame {touched : Place → Prop} (h : IsApart b p v t) (hframe : Frame touched v u) :
    IsApart b p u t where
  isReal := h.isReal
  located := h.located.imp fun _ => hframe.locate
  unheld := by rw [hframe.cwd]; exact h.unheld

/-- A removal leaves a file as it is or takes a line out of it. -/
theorem content_of_remove_apart (ht : IsApart b p v t) (hp : v.content p = .ok bytes) :
    ∃ rest, ((remove b t).runOn v).2.content p = .ok rest ∧
      (rest = bytes ∨ rest.length < bytes.length ∧ t.IsLineOf v.cwd p bytes) := by
  have hframe := frame_remove (b := b) ht.isReal v
  by_cases hplace : t.path.resolve v.cwd = p.resolve v.cwd
  · obtain ⟨place, hlocate⟩ := ht.located
    have hcontent := content_of_resolve_eq hp hlocate hplace
    rcases (remove_step (b := b) ht.isReal hcontent).effect with
      ⟨hleft, -⟩ | ⟨patch, ls, -, -, hwrites⟩
    · exact ⟨bytes, hleft.content hp ht.unheld, Or.inl rfl⟩
    · obtain ⟨m, hedit⟩ := hwrites.edited
      obtain ⟨hpos, hle, rfl⟩ := Edit.eq_of_removeLine_changed hedit
      obtain ⟨place', hlocate', -⟩ := content_eq_ok_iff.mp hp
      refine ⟨_, content_of_resolve_eq hwrites.after (hframe.locate hlocate') ?_, Or.inr
        ⟨Text.length_bytesOf_eraseIdx (by omega), hplace, hle⟩⟩
      rw [hframe.cwd, hplace]
  · refine ⟨bytes, hframe.content hp ?_, Or.inl rfl⟩
    rintro (hsame | hheld)
    · exact hplace hsame.symm
    · exact ht.unheld hheld

/-- Removals leave a file as it is or take lines out of it. -/
theorem content_of_removals_apart (hts : ∀ t ∈ ts, IsApart b p v t) (hp : v.content p = .ok bytes) :
    ∃ rest, ((ts.mapM (remove b)).runOn v).2.content p = .ok rest ∧
      (rest = bytes ∨ rest.length < bytes.length ∧ ∃ t ∈ ts, t.IsLineOf v.cwd p bytes) := by
  induction ts generalizing v bytes with
  | nil => exact ⟨bytes, hp, Or.inl rfl⟩
  | cons t ts ih =>
      obtain ⟨ht, hothers⟩ := List.forall_mem_cons.mp hts
      have hframe := frame_remove (b := b) ht.isReal v
      obtain ⟨rest, hrest, hone⟩ := content_of_remove_apart ht hp
      rcases hrun : (remove b t).runOn v with ⟨fault | patch, v₁⟩
      · rw [List.mapM_cons, runOn_bind_of_error hrun]
        rw [hrun] at hrest
        exact ⟨rest, hrest, hone.imp_right fun h => ⟨h.1, t, by simp, h.2⟩⟩
      · rw [hrun] at hrest hframe
        rw [runOn_mapM_cons_of_ok hrun]
        obtain ⟨rest', hrest', hmany⟩ := ih (fun s hs => (hothers s hs).frame hframe) hrest
        refine ⟨rest', hrest', ?_⟩
        rw [hframe.cwd] at hmany
        rcases hone with rfl | ⟨hlt, hline⟩
        · exact hmany.imp_right fun ⟨hlt, s, hs, hline⟩ => ⟨hlt, s, by simp [hs], hline⟩
        · refine Or.inr ⟨?_, t, by simp, hline⟩
          rcases hmany with rfl | ⟨hlt', -⟩
          · exact hlt
          · exact hlt'.trans hlt

/-- Where all removals come to their end and no edit fails, a file with one of the lines loses it. -/
theorem length_lt_of_removals {patches : List Patch} (hts : ∀ t ∈ ts, IsApart b p v t)
    (hp : v.content p = .ok bytes) (hpos : ∀ t ∈ ts, 1 ≤ t.line)
    (hline : ∃ t ∈ ts, t.IsLineOf v.cwd p bytes)
    (hrun : (ts.mapM (remove b)).runOn v = (.ok patches, u)) (hquiet : NoEditFailed v u) :
    ∃ rest, u.content p = .ok rest ∧ rest.length < bytes.length := by
  induction ts generalizing v patches with
  | nil => simp at hline
  | cons t ts ih =>
      obtain ⟨ht, hothers⟩ := List.forall_mem_cons.mp hts
      obtain ⟨patch, v₁, others, hfirst, hsecond, rfl⟩ := runOn_mapM_cons_eq_ok hrun
      have hframe := frame_remove (b := b) ht.isReal v
      obtain ⟨rest, hrest, hone⟩ := content_of_remove_apart ht hp
      rw [hfirst] at hframe hrest
      have hthere : ∀ s ∈ ts, IsApart b p v₁ s := fun s hs => (hothers s hs).frame hframe
      have hframes := @frame_removals b v₁ (fun _ => True) ts fun s hs =>
        ⟨(hothers s hs).isReal, fun _ _ => trivial⟩
      rw [hsecond] at hframes
      obtain ⟨hquiet₁, hquiet₂⟩ := hquiet.split hframe.events hframes.events
      obtain ⟨rest', hrest', hmany⟩ := content_of_removals_apart hthere hrest
      rw [hsecond] at hrest'
      by_cases hlt : rest.length < bytes.length
      · refine ⟨rest', hrest', ?_⟩
        rcases hmany with rfl | ⟨hlt', -⟩
        · exact hlt
        · exact hlt'.trans hlt
      · obtain rfl : rest = bytes := hone.resolve_right fun h => hlt h.1
        obtain ⟨s, hs, hsline⟩ := hline
        rcases List.mem_cons.mp hs with rfl | hs
        · -- such a line would have been taken out
          obtain ⟨place, hlocate⟩ := ht.located
          have hcontent := content_of_resolve_eq hp hlocate hsline.1
          obtain ⟨-, hafter, -⟩ := remove_spec ht.isReal (hpos s (by simp)) hcontent hfirst hquiet₁
            (by simp)
          have hle := hsline.2
          have hpos' := hpos s (by simp)
          have hshort := @Text.length_bytesOf_eraseIdx rest (s.line - 1) (by omega)
          have hsame := content_of_resolve_eq hrest (hframe.locate hlocate) (by rw [hframe.cwd, hsline.1])
          rw [Except.ok.inj (hafter.symm.trans hsame)] at hshort
          exact absurd hshort (Nat.lt_irrefl _)
        · exact ih hthere hrest (fun t ht => hpos t (by simp [ht]))
            ⟨s, hs, by rwa [hframe.cwd]⟩ hsecond hquiet₂

/-! ## A run -/

section Run

variable {settings : Settings} {document : Path} {approver : Approver} {w : Workspace}
  {issues : List Issue} {start : Bytes}

theorem isApart_of_mem_accepted (hcwd : ∀ s ∈ w.cwd, Path.IsName s)
    (ht : t ∈ acceptedBy approver w issues)
    (hunheld : ¬b.Holds t.path.name w.cwd (p.resolve w.cwd)) : IsApart b p w t := by
  obtain ⟨hreal, -, bytes, hcontent⟩ := isReal_of_mem_accepted hcwd ht
  obtain ⟨place, hlocate, -⟩ := content_eq_ok_iff.mp hcontent
  exact ⟨hreal, ⟨place, hlocate⟩, hunheld⟩

/-- A run leaves a file as it is or takes accepted lines out of it. -/
theorem content_of_run_apart (hcwd : ∀ s ∈ w.cwd, Path.IsName s)
    (hb : settings.backups w.cwd = .ok b) (hdocument : w.content document = .ok bytes)
    (hissues : readDocument (decode bytes) = .ok issues)
    (hunheld : ∀ t ∈ acceptedBy approver w issues, ¬b.Holds t.path.name w.cwd (p.resolve w.cwd))
    (hp : w.content p = .ok start) :
    ∃ rest, ((run settings document approver).runOn w).2.content p = .ok rest ∧
      (rest = start ∨ ∃ t ∈ acceptedBy approver w issues, t.IsLineOf w.cwd p start) := by
  obtain ⟨v, hv, hrun⟩ := @runOn_run settings document approver w b bytes issues hb hdocument hissues
  have hpv := (hv.content p).trans hp
  rw [hrun]
  rcases hreview : review approver w issues with ⟨r, _ | fault⟩
  · have haccepted : ∀ t ∈ removals r.accepted, t ∈ acceptedBy approver w issues := by
      intro t ht
      rw [acceptedBy, hreview]
      exact mem_removals_iff.mp ht
    have hframe : Frame (fun _ => True) w v := hv.frame
    have hts : ∀ t ∈ removals r.accepted, IsApart b p v t := fun t ht =>
      (isApart_of_mem_accepted hcwd (haccepted t ht) (hunheld t (haccepted t ht))).frame hframe
    obtain ⟨rest, hrest, hmany⟩ := content_of_removals_apart hts hpv
    refine ⟨rest, ?_, hmany.imp_right fun ⟨_, t, ht, hline⟩ => ⟨t, haccepted t ht, hv.cwd ▸ hline⟩⟩
    simp only
    rw [runOn_bind]
    rcases hdone : ((removals r.accepted).mapM (remove b)).runOn v with ⟨fault | patches, u⟩
    · rwa [hdone] at hrest
    · rw [hdone] at hrest
      exact hrest
  · exact ⟨start, hpv, Or.inl rfl⟩

/-- A run that returns, and in which no edit fails, takes a line out of every file that has one of the
accepted lines. -/
theorem length_lt_of_run {y : Synced} (hcwd : ∀ s ∈ w.cwd, Path.IsName s)
    (hb : settings.backups w.cwd = .ok b) (hdocument : w.content document = .ok bytes)
    (hissues : readDocument (decode bytes) = .ok issues)
    (hunheld : ∀ t ∈ acceptedBy approver w issues, ¬b.Holds t.path.name w.cwd (p.resolve w.cwd))
    (hp : w.content p = .ok start)
    (hline : ∃ t ∈ acceptedBy approver w issues, t.IsLineOf w.cwd p start)
    (hrun : (run settings document approver).runOn w = (.ok y, u)) (hquiet : NoEditFailed w u) :
    ∃ rest, u.content p = .ok rest ∧ rest.length < start.length := by
  obtain ⟨v, hv, hcourse⟩ :=
    @runOn_run settings document approver w b bytes issues hb hdocument hissues
  have hframe : Frame (fun _ => True) w v := hv.frame
  rw [hcourse] at hrun
  rcases hreview : review approver w issues with ⟨r, _ | fault⟩
  · have hsame : acceptedBy approver w issues = r.accepted := by
      rw [acceptedBy, hreview]
    rw [hreview] at hrun
    obtain ⟨patches, u₁, hmany, hend⟩ := runOn_bind_eq_ok_iff.mp hrun
    obtain ⟨-, rfl⟩ := Prod.mk.inj hend
    have hts : ∀ t ∈ removals r.accepted, IsApart b p v t := by
      intro t ht
      have haccepted : t ∈ acceptedBy approver w issues := hsame ▸ mem_removals_iff.mp ht
      exact (isApart_of_mem_accepted hcwd haccepted (hunheld t haccepted)).frame hframe
    have hpos : ∀ t ∈ removals r.accepted, 1 ≤ t.line := by
      intro t ht
      obtain ⟨-, ⟨i, hi, hof⟩, -⟩ :=
        isReal_of_mem_accepted hcwd (hsame ▸ mem_removals_iff.mp ht : t ∈ acceptedBy approver w issues)
      exact pos_of_completed hi hof
    have hframes := @frame_removals b v (fun _ => True) (removals r.accepted) fun t ht =>
      ⟨(hts t ht).isReal, fun _ _ => trivial⟩
    rw [hmany] at hframes
    obtain ⟨-, hquiet₁⟩ := hquiet.split hframe.events (hframes.events.trans (List.prefix_append _ _))
    obtain ⟨hquiet₂, -⟩ := hquiet₁.split hframes.events (List.prefix_append _ _)
    have hthere : ∃ t ∈ removals r.accepted, t.IsLineOf v.cwd p start := by
      obtain ⟨t, ht, hof⟩ := hline
      exact ⟨t, mem_removals_iff.mpr (hsame ▸ ht), by rwa [hv.cwd]⟩
    obtain ⟨rest, hrest, hlt⟩ :=
      length_lt_of_removals hts ((hv.content p).trans hp) hpos hthere hmany hquiet₂
    exact ⟨rest, hrest, hlt⟩
  · rw [hreview] at hrun
    cases hrun

/-- However a run ends, it touches the files of accepted issues and the backups of these files alone.
A document that is no such backup keeps its content unless an accepted issue points at one of its own
lines; and then it does lose a line, where the run returns and no edit fails. -/
theorem run_spares_document {s : Except Fault Synced} (hcwd : ∀ s ∈ w.cwd, Path.IsName s)
    (hb : settings.backups w.cwd = .ok b) (hdocument : w.content document = .ok bytes)
    (hissues : readDocument (decode bytes) = .ok issues)
    (hrun : (run settings document approver).runOn w = (s, u)) :
    Frame (fun place => ∃ t ∈ acceptedBy approver w issues,
        (∃ i ∈ completed issues, t.IsOf w.cwd i) ∧
          (place = t.path.resolve w.cwd ∨ b.Holds t.path.name w.cwd place)) w u ∧
      ((∀ t ∈ acceptedBy approver w issues,
          ¬b.Holds t.path.name w.cwd (document.resolve w.cwd)) →
        ((∀ t ∈ acceptedBy approver w issues, ¬t.IsLineOf w.cwd document bytes) →
          u.content document = .ok bytes) ∧
        ((∃ t ∈ acceptedBy approver w issues, t.IsLineOf w.cwd document bytes) →
          (∃ y, s = .ok y) → NoEditFailed w u →
            ∃ rest, u.content document = .ok rest ∧ rest.length < bytes.length)) := by
  have hleft : ((run settings document approver).runOn w).2 = u := by rw [hrun]
  refine ⟨?_, fun hunheld => ⟨fun hnone => ?_, fun hline hreturned hquiet => ?_⟩⟩
  · have hframe := @frame_run_accepted settings document approver w b bytes issues hcwd hb hdocument
      hissues
    rw [hleft] at hframe
    refine hframe.mono fun place htouched => ?_
    obtain ⟨t, ht, hreaches⟩ := htouched
    exact ⟨t, ht, (isReal_of_mem_accepted hcwd ht).2.1, hreaches⟩
  · obtain ⟨rest, hrest, hsame | ⟨t, ht, hof⟩⟩ :=
      content_of_run_apart hcwd hb hdocument hissues hunheld hdocument
    · rw [hleft, hsame] at hrest
      exact hrest
    · exact absurd hof (hnone t ht)
  · obtain ⟨y, rfl⟩ := hreturned
    exact length_lt_of_run hcwd hb hdocument hissues hunheld hdocument hline hrun hquiet

end Run

/-- Two issues are done. One points at a line of a file, the other into the document, beyond its end. -/
def beyondEnd : Workspace :=
  ofFiles ["w"] [("a.py", "# TODO: b\nx = 1\n"),
    ("orgi.org", doneEntry "1" "a.py" "1" ++ doneEntry "2" "orgi.org" "99")]

theorem run_spares_document_beyondEnd : ∃ b bytes issues s u,
    (∀ s ∈ beyondEnd.cwd, Path.IsName s) ∧ Settings.default.backups beyondEnd.cwd = .ok b ∧
      beyondEnd.content ⟨.relative, ["orgi.org"]⟩ = .ok bytes ∧
      readDocument (decode bytes) = .ok issues ∧
      (run .default ⟨.relative, ["orgi.org"]⟩ .auto).runOn beyondEnd = (s, u) ∧
      (acceptedBy .auto beyondEnd issues).length = 2 ∧
      u.content ⟨.relative, ["orgi.org"]⟩ = .ok bytes ∧
      u.textAt ⟨.relative, ["a.py"]⟩ = "x = 1\n" := by
  have hcwd : ∀ s ∈ beyondEnd.cwd, Path.IsName s := by
    intro s hs
    obtain rfl : s = "w" := List.mem_singleton.mp hs
    exact ⟨⟨by decide, by decide, by decide⟩, by decide⟩
  have hb : Settings.default.backups beyondEnd.cwd = .ok ⟨Backups.defaultDirectory, 10⟩ := rfl
  obtain ⟨bytes, hdocument, issues, hissues, hlength, hcovers, hlines⟩ :
      ∃ bytes, beyondEnd.content ⟨.relative, ["orgi.org"]⟩ = .ok bytes ∧
        ∃ issues, readDocument (decode bytes) = .ok issues ∧
          (acceptedBy .auto beyondEnd issues).length = 2 ∧
          ¬Backups.Covers ⟨Backups.defaultDirectory, 10⟩ beyondEnd.cwd
            (Path.resolve beyondEnd.cwd ⟨.relative, ["orgi.org"]⟩) ∧
          ∀ t ∈ acceptedBy .auto beyondEnd issues,
            ¬t.IsLineOf beyondEnd.cwd ⟨.relative, ["orgi.org"]⟩ bytes := by
    decide +kernel
  have hsource : ((run .default ⟨.relative, ["orgi.org"]⟩ .auto).runOn beyondEnd).2.textAt
      ⟨.relative, ["a.py"]⟩ = "x = 1\n" := by decide +kernel
  rcases hrun : (run .default ⟨.relative, ["orgi.org"]⟩ .auto).runOn beyondEnd with ⟨s, u⟩
  rw [hrun] at hsource
  obtain ⟨-, hspared⟩ := run_spares_document hcwd hb hdocument hissues hrun
  exact ⟨_, bytes, issues, s, u, hcwd, hb, hdocument, hissues, rfl, hlength,
    (hspared fun t _ hheld => hcovers hheld.covers).1 hlines, hsource⟩

/-- A document loses its first line where an issue that is done points at it. A document that bears the
name of a backup is pruned with the backups of a file. -/
theorem run_changes_document :
    (∃ y, ((run .default ⟨.relative, ["orgi.org"]⟩ .auto).runOn
        (ofFiles ["w"] [("orgi.org", doneEntry "1" "orgi.org" "1")])).1 = .ok y ∧ y.removed = 1) ∧
      ((run .default ⟨.relative, ["orgi.org"]⟩ .auto).runOn
        (ofFiles ["w"] [("orgi.org", doneEntry "1" "orgi.org" "1")])).2.textAt
          ⟨.relative, ["orgi.org"]⟩ = (doneEntry "1" "orgi.org" "1").drop 9 ∧
      (∃ y, ((run Gather.backupsBeside ⟨.relative, ["a.py.backup-0"]⟩ .auto).runOn
        (ofFiles ["w"] [("a.py", "x\n"), ("a.py.backup-0", doneEntry "1" "a.py" "1")])).1 = .ok y ∧
          y.removed = 1) ∧
      ((run Gather.backupsBeside ⟨.relative, ["a.py.backup-0"]⟩ .auto).runOn
        (ofFiles ["w"] [("a.py", "x\n"), ("a.py.backup-0", doneEntry "1" "a.py" "1")])).2.tree.find?
          ["w", "a.py.backup-0"] = none := by
  decide +kernel

end Sync

end TodoLedger
