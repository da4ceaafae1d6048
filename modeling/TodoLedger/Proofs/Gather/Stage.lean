import TodoLedger.Proofs.Gather.Effect
import TodoLedger.Proofs.Gather.Script
/-!
# Marking step by step

Once the entries of the new issues are in the document their tasks are marked one by one. All the while
every file is what it was with markers of these issues put in, or is empty because it is about to be
written anew, and the entries stay in the document.
-/

namespace TodoLedger

open Work Workspace Utf8 Document

/-- What becomes of the bytes of a file where markers of some ids are put in, one after the other. -/
inductive Marked (ids : List Text) (old : Bytes) : Bytes → Prop
  | refl : Marked ids old old
  | insert {bytes : Bytes} {p : Path} {task : Task} {id : Text} {ls : List Line} {m : Text} :
      Marked ids old bytes → id ∈ ids →
      (Edit.insertMarker task id).apply p (Text.lines (decode bytes)) = .ok (.changed ls m) →
      Marked ids old (bytesOf (Text.ofLines ls))

namespace Gather

/-! ## Entries at the end of a file -/

/-- The bytes of a file end with those of some entries, and so many lines stand before them. -/
def EndsIn (entries : Bytes) (n : Nat) (bytes : Bytes) : Prop :=
  ∃ front : List Line, front.length = n ∧
    Text.lines (decode bytes) = front ++ Text.lines (decode entries)

section EndsIn

variable {entries bytes old : Bytes} {n k : Nat} {p : Path} {task : Task} {id m : Text}
  {ls : List Line}

theorem EndsIn.suffix (h : EndsIn entries n bytes) : entries <:+ bytes := by
  obtain ⟨front, -, hlines⟩ := h
  refine ⟨bytesOf (Text.ofLines front), ?_⟩
  rw [← bytesOf_decode entries, ← Text.ofLines_lines (decode entries), ← bytesOf_append,
    ← Text.ofLines_append, ← hlines, Text.ofLines_lines, bytesOf_decode]

/-- A marker before the entries leaves them where they are. -/
theorem EndsIn.mark (h : EndsIn entries n bytes) (hline : task.line = (k + 1 : Nat)) (hk : k < n)
    (hid : ∀ c ∈ id, c.IsBasic)
    (hedit : (Edit.insertMarker task id).apply p (Text.lines (decode bytes)) = .ok (.changed ls m)) :
    EndsIn entries n (bytesOf (Text.ofLines ls)) := by
  obtain ⟨front, hlength, hlines⟩ := h
  obtain ⟨hstable, hread, i, l, hi, -, -, hadvances⟩ :=
    advances_of_insertMarker hedit (isStable_decode bytes) hid
  obtain rfl : k = i := by omega
  have hsame : ls.length = (Text.lines (decode bytes)).length := by
    simpa using congrArg List.length hadvances.endings
  rw [hlines, List.length_append] at hsame
  refine ⟨ls.take n, by rw [List.length_take]; omega, ?_⟩
  have hdrop : ls.drop n = Text.lines (decode entries) := by
    refine List.ext_getElem? fun j => ?_
    rcases hadvances.lines (n + j) with hkept | ⟨htouched, -⟩
    · rw [List.getElem?_drop, hkept, hlines, ← hlength, List.getElem?_append_right (by omega),
        Nat.add_sub_cancel_left]
    · omega
  rw [hstable.decode_bytesOf, hread, ← hdrop, List.take_append_drop]

/-- Entries that were appended stand behind the lines of the document. -/
theorem endsIn_of_append {issues : List Issue} (hne : issues ≠ []) (old : Bytes) :
    EndsIn (bytesOf (issues.flatMap Issue.render)) (Text.lines (decode old)).length
      (old ++ bytesOf (Text.gap (decode old) ++ issues.flatMap Issue.render)) := by
  obtain ⟨hread, hhead⟩ := Issue.decode_append_render hne old
  have hlf : (decode (bytesOf (issues.flatMap Issue.render))).head? ≠ some (Rune.ofChar '\n') := by
    rw [hhead]
    decide
  obtain ⟨closed, hclosed, hbodies⟩ := Text.exists_lines_append hlf (decode old)
  exact ⟨closed, by simpa [Text.bodies] using congrArg List.length hbodies, by rw [hread, hclosed]⟩

end EndsIn

/-! ## The stage -/

/-- What is known while tasks are marked: the files, the document, the issues' ids and entries, the
number of lines before the entries and the workspace in which the entries were just written. The
document bears the name of no backup. -/
structure Stage where
  backups : Backups
  files : List Path
  document : Path
  ids : List Text
  entries : Bytes
  lines : Nat
  start : Workspace
  isNamed : ∀ p ∈ files, p.IsNamed
  isBasic : ∀ id ∈ ids, ∀ c ∈ id, c.IsBasic
  unheld : ∀ q ∈ files, ¬backups.Holds q.name start.cwd (document.resolve start.cwd)

namespace Stage

/-- A task that is marked with an id: it is a task of one of the files, and the id is one of the ids.
If the file is the document, the task stands before the entries. -/
structure Admits (s : Stage) (task : Task) (id : Text) : Prop where
  file : task.path ∈ s.files
  id : id ∈ s.ids
  line : task.path.resolve s.start.cwd = s.document.resolve s.start.cwd →
    ∃ k < s.lines, task.line = (k + 1 : Nat)

/-- The bytes are those of a file at the start, marked: of the file at that place, or of one that is
backed up there. -/
def Accounted (s : Stage) (place : Place) (bytes : Bytes) : Prop :=
  ∃ source old, s.start.tree.find? source = some (.file old) ∧
    (source = place ∨ ∃ q ∈ s.files, s.backups.Holds q.name s.start.cwd place) ∧
    Marked s.ids old bytes

/-- Every file is accounted for, and the entries are in the document. -/
structure Progress (s : Stage) (v : Workspace) : Prop where
  cwd : v.cwd = s.start.cwd
  files : ∀ place bytes, v.tree.find? place = some (.file bytes) → s.Accounted place bytes
  document : ∃ bytes, v.content s.document = .ok bytes ∧ EndsIn s.entries s.lines bytes

/-- Every file is accounted for, or the one that is about to be written was emptied. -/
def Emptying (s : Stage) (v : Workspace) : Prop :=
  s.Progress v ∨ ∃ p ∈ s.files, ∃ v₀ old, s.Progress v₀ ∧ v₀.content p = .ok old ∧
    v₀.withContent p [] = .ok v

variable {s : Stage} {v v' : Workspace} {p : Path} {bytes : Bytes} {task : Task} {id m : Text}
  {ls : List Line}

namespace Progress

theorem step (h : s.Progress v) (hcwd : v'.cwd = v.cwd)
    (hfiles : ∀ place bytes, v'.tree.find? place = some (.file bytes) →
      v.tree.find? place = some (.file bytes) ∨ s.Accounted place bytes)
    (hdocument : ∃ bytes, v'.content s.document = .ok bytes ∧ EndsIn s.entries s.lines bytes) :
    s.Progress v' :=
  ⟨hcwd.trans h.cwd, fun place bytes hfile =>
    (hfiles place bytes hfile).elim (h.files place bytes) id, hdocument⟩

theorem content_document {touched : Place → Prop} (h : s.Progress v) (hframe : Frame touched v v')
    (hplace : ¬touched (s.document.resolve s.start.cwd)) :
    ∃ bytes, v'.content s.document = .ok bytes ∧ EndsIn s.entries s.lines bytes := by
  obtain ⟨bytes, hcontent, hends⟩ := h.document
  exact ⟨bytes, hframe.content hcontent (h.cwd.symm ▸ hplace), hends⟩

/-- Where no file changes every file is accounted for as before. -/
theorem quiet (h : s.Progress v) (hframe : Frame (fun _ => False) v v') : s.Progress v' :=
  h.step hframe.cwd (fun place bytes hfile => Or.inl ((hframe.files place bytes id).mp hfile))
    (h.content_document hframe id)

/-- What is deleted among the backups is not missed. -/
theorem deleteFile {q : Path} (h : s.Progress v) (hp : p ∈ s.files)
    (hheld : s.backups.Holds p.name s.start.cwd (q.resolve s.start.cwd)) :
    s.Progress ((Work.deleteFile q).runOn v).2 := by
  have hframe : Frame (s.backups.Holds p.name s.start.cwd) v ((Work.deleteFile q).runOn v).2 :=
    frame_deleteFile (h.cwd.symm ▸ hheld)
  refine h.step hframe.cwd (fun place bytes hfile => Or.inl ?_)
    (h.content_document hframe (s.unheld p hp))
  rw [Work.deleteFile, runOn_change] at hfile
  cases hwithout : v.withoutFile q with
  | error fault =>
      rw [hwithout] at hfile
      exact hfile
  | ok u =>
      rw [hwithout] at hfile
      obtain ⟨target, old, -, hthere, rfl⟩ := withoutFile_eq_ok_iff.mp hwithout
      have hne : target ≠ [] := by
        rintro rfl
        cases hthere
      simp only [Tree.find?_remove hne] at hfile
      split_ifs at hfile
      exact hfile

/-- The backup of a file is what the file is. -/
theorem copy {moment : DateTime} (h : s.Progress v) (hp : p ∈ s.files) :
    s.Progress ((Backups.copy p (s.backups.backupPath p.name moment)).runOn v).2 := by
  have hstem : Backups.stem p.name <+: Backups.stem p.name ++ Backups.stampOf moment :=
    List.prefix_append _ _
  have hdots := (s.isNamed p hp).isName.ne_dotDot
  have hframe := @Backups.frame_copy v (s.backups.Holds p.name v.cwd) p
    (s.backups.backupPath p.name moment) (Backups.holds_child hstem)
    (Backups.holds_child_child hstem hdots)
  rw [h.cwd] at hframe
  refine h.step hframe.cwd (fun q other hfile => ?_)
    (h.content_document hframe fun hheld => s.unheld p hp hheld.1)
  rcases Backups.copy_cases p (s.backups.backupPath p.name moment) v with
    ⟨fault, hrun⟩ | ⟨bytes, place, hcontent, hlocate, hnot, -, hrun⟩
  · rw [hrun] at hfile
    exact Or.inl hfile
  have hne := Tree.ne_nil_of_not_directory hnot
  simp only [hrun, Tree.find?_put hne] at hfile
  split_ifs at hfile with hplace
  · right
    obtain rfl := Node.file.inj (Option.some.inj hfile)
    obtain ⟨own, -, hown⟩ := content_eq_ok_iff.mp hcontent
    obtain ⟨source, old, hthere, -, hmarked⟩ := h.files own bytes hown
    refine ⟨source, old, hthere, Or.inr ⟨p, hp, ?_⟩, hmarked⟩
    rw [hplace, eq_resolve_of_locate hlocate, h.cwd]
    split_ifs
    · exact Backups.holds_child_child hstem hdots
    · exact Backups.holds_child hstem
  · exact Or.inl hfile

theorem through_deleteAll {paths : List Path} (h : s.Progress v) (hp : p ∈ s.files)
    (hpaths : ∀ q ∈ paths, s.backups.Holds p.name s.start.cwd (q.resolve s.start.cwd)) :
    Script.Through s.Progress s.Progress (Script.deleteAll paths) v := by
  induction paths generalizing v with
  | nil => exact Script.through_pure h
  | cons q paths ih =>
      obtain ⟨hq, hrest⟩ := List.forall_mem_cons.mp hpaths
      rw [Script.deleteAll]
      refine Script.through_bind ?_ fun _ v₁ _ h₁ => ih h₁ hrest
      refine Script.through_tryCatch (Script.through_lift (h.deleteFile hp hq)) fun fault v₁ _ h₁ => ?_
      split
      · exact Script.through_lift (h₁.quiet (frame_report _))
      · exact Script.through_throw h₁

/-- Files are accounted for at every point of a backup. -/
theorem through_create (h : s.Progress v) (hp : p ∈ s.files) :
    Script.Through s.Progress s.Progress (Script.create s.backups p) v := by
  have hslash := (s.isNamed p hp).isName.noSlash
  rw [Script.create]
  refine Script.through_bind (Script.through_ensureDirectories
    (fun q u hu => hu.quiet (frame_ensureDirectory q u)) _ h) fun _ v₁ _ h₁ => ?_
  refine Script.through_bind (Script.through_lift (h₁.quiet frame_now)) fun moment v₂ _ h₂ => ?_
  refine Script.through_bind (Script.through_lift (h₂.copy hp)) fun _ v₃ _ h₃ => ?_
  refine Script.through_bind (Script.through_lift (h₃.quiet (frame_report _))) fun _ v₄ _ h₄ => ?_
  refine Script.through_bind ?_ fun _ v₅ _ h₅ => Script.through_pure h₅
  obtain ⟨hquiet, hold⟩ := @Backups.old_spec s.backups p.name v₄ (fun _ => False) hslash
  refine Script.through_bind (Script.through_lift (h₄.quiet hquiet)) fun paths v₅ hpaths h₅ => ?_
  rw [Script.work_lift] at hpaths
  rw [hpaths] at hold
  refine h₅.through_deleteAll hp fun q hq => ?_
  obtain ⟨r, rfl, hr⟩ := hold paths rfl q hq
  exact Backups.holds_child hr

/-- A marker in a file is one more of the issues' markers there. -/
theorem mark (h : s.Progress v) (htask : s.Admits task id)
    (hcontent : v.content task.path = .ok bytes)
    (hedit : (Edit.insertMarker task id).apply task.path (Text.lines (decode bytes)) =
      .ok (.changed ls m))
    (hwrite : v.withContent task.path (bytesOf (Text.ofLines ls)) = .ok v') : s.Progress v' := by
  obtain ⟨place, hlocate, hnot, -, rfl⟩ := withContent_eq_ok_iff.mp hwrite
  have hne := Tree.ne_nil_of_not_directory hnot
  obtain ⟨own, hlocate', hown⟩ := content_eq_ok_iff.mp hcontent
  obtain rfl := Except.ok.inj (hlocate.symm.trans hlocate')
  refine h.step rfl (fun q other hfile => ?_) ?_
  · simp only [Tree.find?_put hne] at hfile
    split_ifs at hfile with hq
    · obtain rfl := Node.file.inj (Option.some.inj hfile)
      obtain ⟨source, old, hthere, hplace, hmarked⟩ := h.files place bytes hown
      exact Or.inr ⟨source, old, hthere, hq ▸ hplace, hmarked.insert htask.id hedit⟩
    · exact Or.inl hfile
  · obtain ⟨old, hold, hends⟩ := h.document
    by_cases hsame : task.path.resolve s.start.cwd = s.document.resolve s.start.cwd
    · -- The document is marked itself, on a line before the entries.
      obtain ⟨k, hk, hline⟩ := htask.line hsame
      obtain ⟨q, hq, hfile⟩ := content_eq_ok_iff.mp hold
      have hplace : q = place := by
        rw [eq_resolve_of_locate hq, eq_resolve_of_locate hlocate, h.cwd, hsame]
      rw [hplace] at hq hfile
      obtain rfl := Node.file.inj (Option.some.inj (hown.symm.trans hfile))
      refine ⟨_, content_eq_ok_iff.mpr ⟨place, (locate_of_withContent hwrite).mpr hq, ?_⟩,
        hends.mark hline hk (s.isBasic id htask.id) hedit⟩
      rw [Tree.find?_put hne, if_pos rfl]
    · refine ⟨old, content_of_withContent_of_ne hwrite ?_ hold, hends⟩
      rw [h.cwd]
      exact Ne.symm hsame

/-- The text with a marker is written by way of the empty file. -/
theorem through_writeText (h : s.Progress v) (htask : s.Admits task id)
    (hcontent : v.content task.path = .ok bytes)
    (hedit : (Edit.insertMarker task id).apply task.path (Text.lines (decode bytes)) =
      .ok (.changed ls m)) :
    Script.Through s.Emptying s.Progress (Script.writeText task.path (Text.ofLines ls)) v := by
  have hencode :=
    (advances_of_insertMarker hedit (isStable_decode bytes) (s.isBasic id htask.id)).1.encode
  have hnamed := s.isNamed task.path htask.file
  obtain ⟨e, hempty⟩ := exists_withContent_of_content hnamed hcontent []
  obtain ⟨f, hfull⟩ := exists_withContent_of_content hnamed hcontent (bytesOf (Text.ofLines ls))
  have hfirst : (writeBytes task.path []).runOn v = (.ok (), e) := by
    rw [runOn_writeBytes, hempty]
  have hsecond : (writeBytes task.path (bytesOf (Text.ofLines ls))).runOn e = (.ok (), f) := by
    rw [runOn_writeBytes, withContent_withContent hempty, hfull]
  have hafter := h.mark htask hcontent hedit hfull
  constructor
  · rw [Script.writeText, hencode]
    intro u hu
    rcases Script.mem_points_bind_iff.mp hu with hu | ⟨_, v₁, hrun, hu⟩
    · rw [Script.mem_points_lift_iff.mp hu, hfirst]
      exact Or.inr ⟨task.path, htask.file, v, bytes, h, hcontent, hempty⟩
    · obtain rfl : e = v₁ := (Prod.mk.inj (hfirst.symm.trans hrun)).2
      rw [Script.mem_points_lift_iff.mp hu, hsecond]
      exact Or.inl hafter
  · rw [Script.work_writeText, runOn_writeText hencode, runOn_writeBytes, hfull]
    exact hafter

theorem through {α : Type} {x : Script α} (h : Script.Through s.Progress s.Progress x v) :
    Script.Through s.Emptying s.Progress x v := h.mono (fun _ => Or.inl) fun _ => id

theorem lift {α : Type} {x : Work α} (h : s.Progress (x.runOn v).2) :
    Script.Through s.Emptying s.Progress (liftM x : Script α) v := through (Script.through_lift h)

theorem through_report {α : Type} (h : s.Progress v) (e : Event) (a : α) :
    Script.Through s.Emptying s.Progress (do report e; pure a : Script α) v :=
  Script.through_bind (lift (h.quiet (frame_report e))) fun _ _ _ h₁ => through (Script.through_pure h₁)

/-- Files are accounted for at every point of an edit that marks a task, or one of them was emptied. -/
theorem through_attempt (h : s.Progress v) (htask : s.Admits task id) : Script.Through s.Emptying
    s.Progress (Script.attempt s.backups task.path (.insertMarker task id)) v := by
  rw [Script.attempt]
  refine Script.through_bind (lift (by rw [runOn_readText]; exact h)) fun text v₁ hread h₁ => ?_
  rw [Script.work_lift, runOn_readText] at hread
  obtain ⟨htext, rfl⟩ := Prod.mk.inj hread
  cases hcontent : v.content task.path with
  | error fault => simp [hcontent, Except.map] at htext
  | ok bytes =>
      obtain rfl : decode bytes = text := by simpa [hcontent, Except.map] using htext
      refine Script.through_bind (lift (by rw [runOn_ask]; exact h)) fun edited v₂ hask h₂ => ?_
      rw [Script.work_lift, runOn_ask] at hask
      obtain ⟨hedit, rfl⟩ := Prod.mk.inj hask
      cases edited with
      | unchanged message => exact h₂.through_report _ _
      | changed ls message =>
          refine Script.through_bind (through (h₂.through_create htask.file))
            fun _ v₃ hcreate h₃ => ?_
          have hkept := Backups.content_of_create (b := s.backups) (s.isNamed _ htask.file) hcontent
          rw [← Script.work_create, hcreate] at hkept
          exact Script.through_bind (h₃.through_writeText htask hkept hedit)
            fun _ v₄ _ h₄ => through (Script.through_pure h₄)

theorem through_edit (h : s.Progress v) (htask : s.Admits task id) : Script.Through s.Emptying
    s.Progress (Script.edit s.backups task.path (.insertMarker task id)) v := by
  rw [Script.edit]
  refine Script.through_bind (lift (by rw [runOn_isFile]; exact h)) fun there v₁ _ h₁ => ?_
  cases there with
  | false =>
      exact Script.through_bind (through (Script.through_throw h₁)) fun _ v₂ hrun _ => by cases hrun
  | true =>
      simp only [Bool.not_true, Bool.false_eq_true, if_false]
      refine Script.through_tryCatch
        (Script.through_bind (h₁.through_attempt htask) fun patch v₂ _ h₂ => ?_) fun fault v₂ _ h₂ => ?_
      · split_ifs
        · exact h₂.through_report _ _
        · exact through (Script.through_pure h₂)
      · split_ifs
        · exact h₂.through_report _ _
        · exact through (Script.through_throw h₂)

theorem through_mark {issue : Issue} (h : s.Progress v) (htask : s.Admits task issue.id) :
    Script.Through s.Emptying s.Progress (Script.mark s.backups task issue) v := by
  rw [Script.mark]
  refine Script.through_tryCatch (h.through_edit htask) fun fault v₁ _ h₁ => ?_
  split
  · exact h₁.through_report _ _
  · exact through (Script.through_throw h₁)

theorem through_markAll {pairs : List (Task × Issue)} (h : s.Progress v)
    (hpairs : ∀ e ∈ pairs, s.Admits e.1 e.2.id) :
    Script.Through s.Emptying s.Progress (Script.markAll s.backups pairs) v := by
  induction pairs generalizing v with
  | nil => exact through (Script.through_pure h)
  | cons e pairs ih =>
      obtain ⟨htask, hrest⟩ := List.forall_mem_cons.mp hpairs
      rw [Script.markAll]
      exact Script.through_bind (h.through_mark htask) fun patch v₁ _ h₁ =>
        Script.through_bind (ih h₁ hrest) fun patches v₂ _ h₂ => through (Script.through_pure h₂)

end Progress

/-- Where the entries were just written every file is accounted for. -/
theorem progress_start {issues : List Issue} {n : Nat} (hne : issues ≠ [])
    (happend : (Document.append s.document issues).runOn v = (.ok n, s.start))
    (hentries : s.entries = bytesOf (issues.flatMap Issue.render))
    (hlines : s.lines = (Text.lines (decode (bytesAt s.document v))).length) :
    s.Progress s.start := by
  refine ⟨rfl, fun place bytes hfile => ⟨place, bytes, hfile, Or.inl rfl, .refl⟩, ?_⟩
  obtain ⟨-, bytes, hencode, hcontent⟩ := content_of_append hne happend
  obtain ⟨-, rfl⟩ := encode_eq_ok_iff.mp hencode
  rw [hentries, hlines]
  exact ⟨_, hcontent, endsIn_of_append hne _⟩

end Stage

/-! ## What marking may leave -/

/-- Since the entries of some issues were written: whatever marker is new is one of theirs, and their
entries are in the document. A file that is about to be written anew is empty, which may be the
document itself, if it is one of the files. -/
structure NoneDangling (b : Backups) (files : List Path) (document : Path) (issues : List Issue)
    (u v : Workspace) : Prop where
  marked : ∀ place bytes, v.tree.find? place = some (.file bytes) → ∃ source old,
    u.tree.find? source = some (.file old) ∧
      (source = place ∨ ∃ q ∈ files, b.Holds q.name u.cwd place) ∧
      (bytes = [] ∨ Marked (issues.map Issue.id) old bytes)
  entered : ∃ bytes, v.content document = .ok bytes ∧
    ((∀ i ∈ issues, bytesOf i.render <:+: bytes) ∨
      bytes = [] ∧ ∃ p ∈ files, p.resolve u.cwd = document.resolve u.cwd)

/-- Only the files count. -/
theorem NoneDangling.congr {b : Backups} {files : List Path} {document : Path} {issues : List Issue}
    {u v v' : Workspace} (h : NoneDangling b files document issues u v) (htree : v'.tree = v.tree)
    (hcwd : v'.cwd = v.cwd) : NoneDangling b files document issues u v' := by
  refine ⟨fun place bytes hfile => h.marked place bytes (htree ▸ hfile), ?_⟩
  rw [content_congr htree hcwd]
  exact h.entered

theorem Stage.Progress.infix_document {s : Stage} {v : Workspace} {issues : List Issue}
    (h : s.Progress v) (hentries : s.entries = bytesOf (issues.flatMap Issue.render)) :
    ∃ bytes, v.content s.document = .ok bytes ∧ ∀ i ∈ issues, bytesOf i.render <:+: bytes := by
  obtain ⟨bytes, hcontent, hends⟩ := h.document
  refine ⟨bytes, hcontent, fun i hi => ?_⟩
  obtain ⟨front, back, rfl⟩ := List.append_of_mem hi
  have hinfix : bytesOf i.render <:+: s.entries := by
    rw [hentries, List.flatMap_append, List.flatMap_cons, bytesOf_append, bytesOf_append]
    exact ⟨_, _, List.append_assoc _ _ _⟩
  exact hinfix.trans hends.suffix.isInfix

theorem Stage.Emptying.marked {s : Stage} {v : Workspace} {place : Place} {bytes : Bytes}
    (h : s.Emptying v) (hfile : v.tree.find? place = some (.file bytes)) : ∃ source old,
      s.start.tree.find? source = some (.file old) ∧
        (source = place ∨ ∃ q ∈ s.files, s.backups.Holds q.name s.start.cwd place) ∧
        (bytes = [] ∨ Marked s.ids old bytes) := by
  rcases h with h | ⟨p, -, v₀, old, h, hcontent, hempty⟩
  · obtain ⟨source, old, hthere, hplace, hids⟩ := h.files place bytes hfile
    exact ⟨source, old, hthere, hplace, Or.inr hids⟩
  · obtain ⟨own, hlocate, hnot, -, rfl⟩ := withContent_eq_ok_iff.mp hempty
    simp only [Tree.find?_put (Tree.ne_nil_of_not_directory hnot)] at hfile
    split_ifs at hfile with hown
    · obtain ⟨q, hlocate', hbefore⟩ := content_eq_ok_iff.mp hcontent
      obtain rfl := Except.ok.inj (hlocate.symm.trans hlocate')
      obtain ⟨source, first, hthere, hplace, -⟩ := h.files place old (hown ▸ hbefore)
      exact ⟨source, first, hthere, hplace, Or.inl (Node.file.inj (Option.some.inj hfile)).symm⟩
    · obtain ⟨source, first, hthere, hplace, hids⟩ := h.files place bytes hfile
      exact ⟨source, first, hthere, hplace, Or.inr hids⟩

theorem Stage.Emptying.entered {s : Stage} {v : Workspace} {issues : List Issue}
    (h : s.Emptying v) (hentries : s.entries = bytesOf (issues.flatMap Issue.render)) :
    ∃ bytes, v.content s.document = .ok bytes ∧ ((∀ i ∈ issues, bytesOf i.render <:+: bytes) ∨
      bytes = [] ∧ ∃ p ∈ s.files, p.resolve s.start.cwd = s.document.resolve s.start.cwd) := by
  rcases h with h | ⟨p, hp, v₀, old, h, -, hempty⟩
  · obtain ⟨bytes, hcontent, hinfix⟩ := h.infix_document hentries
    exact ⟨bytes, hcontent, Or.inl hinfix⟩
  obtain ⟨bytes, hdocument, hinfix⟩ := h.infix_document hentries
  by_cases hsame : p.resolve v₀.cwd = s.document.resolve v₀.cwd
  · refine ⟨[], ?_, Or.inr ⟨rfl, p, hp, by rw [← h.cwd, hsame]⟩⟩
    obtain ⟨place, hlocate, -⟩ := content_eq_ok_iff.mp hdocument
    obtain ⟨own, hown, hfile⟩ := content_eq_ok_iff.mp (content_of_withContent hempty)
    have hplace : own = place := by
      rw [eq_resolve_of_locate ((locate_of_withContent hempty).mp hown), hsame,
        eq_resolve_of_locate hlocate]
    exact content_eq_ok_iff.mpr
      ⟨place, (locate_of_withContent hempty).mpr hlocate, hplace ▸ hfile⟩
  · exact ⟨bytes, content_of_withContent_of_ne hempty (Ne.symm hsame) hdocument, Or.inl hinfix⟩

theorem Stage.Emptying.noneDangling {s : Stage} {v : Workspace} {issues : List Issue}
    (h : s.Emptying v) (hids : s.ids = issues.map Issue.id)
    (hentries : s.entries = bytesOf (issues.flatMap Issue.render)) :
    NoneDangling s.backups s.files s.document issues s.start v :=
  ⟨fun _ _ hfile => hids ▸ h.marked hfile, h.entered hentries⟩

end Gather

end TodoLedger
