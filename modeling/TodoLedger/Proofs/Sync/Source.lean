import TodoLedger.Proofs.Document.Storage
import TodoLedger.Proofs.Gather.Course
import TodoLedger.Proofs.Gather.Survival
import TodoLedger.Proofs.Gather.Token
import TodoLedger.Proofs.Sync.Run
import TodoLedger.Proofs.Workspace.Sample
import TodoLedger.Proofs.Workspace.WellFormed
/-!
# The file of a gathered issue

What is gathered tells the file of its task as it is seen from the working directory. A document holds
that on one line and without blank ends, and a sync run takes it for a path again. It comes to the same
file just if the text is kept as it is: a text that lost something has as many slashes as before, and so
it cannot spell the same names.
-/

namespace TodoLedger

open Work Workspace Utf8 Document

/-- The issue is made of a task that was found in a file, under whatever name a system can give. -/
structure Gather.IsMade (cwd : Place) (now : DateTime) (limit : Int) (task : Task) (i : Issue) : Prop
    where
  names : ∀ s ∈ task.path.resolve cwd, Path.IsFileName s
  found : ∃ bytes, task ∈ tasksOf task.path false (decode bytes) ∧
    (decode bytes).length < 10 ^ Text.maxDigits
  made : ∃ token, IsToken token ∧ Issue.ofTask cwd task token now limit = .ok i

theorem Gather.IsMade.isWritable {cwd : Place} {now : DateTime} {limit : Int} {task : Task} {i : Issue}
    (h : IsMade cwd now limit task i) : task.IsWritable Text.FitsLine cwd := by
  obtain ⟨bytes, hfound, hlength⟩ := h.found
  exact isWritable_of_isStable (isStable_decode bytes) hfound hlength (Path.isStable_relativeTo h.names)

namespace Sync

section Place

variable {cwd start segments : List Text} {p : Path} {i : Issue} {task : Task}

theorem checkNames_eq_ok (h : ∀ s ∈ start ++ segments, Path.IsFileName s) :
    checkNames start segments = .ok () := by
  induction segments generalizing start with
  | nil => rfl
  | cons s rest ih =>
      have hs := h s (by simp)
      have hplace : ∀ a ∈ (Path.absolute (start ++ [s])).segments, Path.IsFileName a := by
        intro a ha
        apply h a
        rw [← List.singleton_append, ← List.append_assoc]
        exact List.mem_append_left _ ha
      rw [checkNames, if_neg hs.ne_dotDot]
      simp only [(Path.isStable_text hplace).encode]
      rw [if_neg (by simpa using Path.noNull_text hplace)]
      exact ih (by simpa using h)

/-- An issue whose source is a file seen from the working directory points at that file. -/
theorem fileOf_eq (hfile : i.sourceFile? = some (p.relativeTo cwd))
    (hnames : ∀ s ∈ p.resolve cwd, Path.IsFileName s) :
    fileOf cwd i = .ok (Path.absolute (p.resolve cwd)) := by
  have hseen := @Path.isName_of_mem_seenFrom cwd _ fun s hs => (hnames s hs).toIsName
  have hplace := @Path.resolve_seenFrom cwd _ fun s hs => (hnames s hs).ne_dotDot
  have hchecked : checkNames (if (Path.seenFrom cwd (p.resolve cwd)).anchor = .relative
      then cwd else []) (Path.seenFrom cwd (p.resolve cwd)).segments = .ok () := by
    apply checkNames_eq_ok
    rw [← Path.resolveFrom_of_ne_dotDot fun s hs => (hseen s hs).ne_dotDot]
    rw [Path.resolve] at hplace
    rwa [hplace]
  rw [fileOf, hfile, Option.getD_some, Path.relativeTo,
    Path.ofText_text fun s hs => (hseen s hs).toIsSegment, hchecked, hplace]
  rfl

/-- A file that is told on one line is pointed at just if its text is on one line. -/
theorem fileOf_eq_iff (hnames : ∀ s ∈ task.path.resolve cwd, Path.IsFileName s)
    (hfile : i.sourceFile? = some (Text.singleLine (task.file cwd))) :
    fileOf cwd i = .ok (Path.absolute (task.path.resolve cwd)) ↔
      Text.BreakFree (task.file cwd) ∧ Text.IsTrimmed (task.file cwd) := by
  constructor
  · intro hpoints
    have hplace : (Path.ofText (Text.singleLine (task.file cwd))).resolve cwd =
        task.path.resolve cwd := by
      have habsolute := eq_of_fileOf hpoints
      rw [hfile, Option.getD_some] at habsolute
      exact (congrArg Path.segments habsolute).symm
    have hsame : Text.singleLine (task.file cwd) = task.file cwd := by
      by_cases hnone : (Path.seenFrom cwd (task.path.resolve cwd)).segments = []
      · rw [Task.file, Path.relativeTo]
        rcases Path.text_seenFrom_of_nil hnone with htext | htext
        · rw [htext]
          exact Text.singleLine_of_visible (by decide)
        · rw [htext]
          exact Text.singleLine_of_visible (by decide)
      · refine Path.eq_text_of_resolve (fun s hs => (hnames s hs).toIsName) hnone
          (Text.count_singleLine (by decide) _) (fun hhead => ?_) hplace
        obtain ⟨r, hr⟩ := List.head?_eq_some_iff.mp hhead
        rw [Task.file, Path.relativeTo, hr]
        exact Text.head?_singleLine (by decide)
    exact Text.singleLine_eq_self_iff.mp hsame
  · intro hkept
    exact fileOf_eq (hfile.trans (congrArg some (Text.singleLine_eq_self_iff.mpr hkept))) hnames

end Place

variable {document : Path} {w w' : Workspace} {is : List Issue} {pairs : List (Task × Issue)} {n : Nat}
  {now : DateTime} {limit : Int}

/-- Issues that tell the files of tasks on one line are read behind a document. -/
private theorem exists_files_of_append (hyear : 1000 ≤ now.year) (hne : pairs ≠ [])
    (hmade : ∀ e ∈ pairs, Gather.IsMade w.cwd now limit e.1 e.2)
    (hread : readDocument (decode (bytesAt document w)) = .ok is)
    (hrun : (append document (pairs.map Prod.snd)).runOn w = (.ok n, w')) :
    ∃ bytes js, w'.content document = .ok bytes ∧ readDocument (decode bytes) = .ok (is ++ js) ∧
      List.Forall₂ (fun e j => Gather.IsMade w.cwd now limit e.1 e.2 ∧
        j.sourceFile? = some (Text.singleLine (e.1.file w.cwd))) pairs js := by
  have hissues : ∀ i ∈ pairs.map Prod.snd, i.IsWritable Text.FitsLine := by
    intro i hi
    obtain ⟨e, he, rfl⟩ := List.mem_map.mp hi
    obtain ⟨token, htoken, hissue⟩ := (hmade e he).made
    exact isWritable_ofTask (hmade e he).isWritable hissue Text.lineClass_fitsLine
      htoken.isVisible hyear
  obtain ⟨bytes, js, hcontent, hreads, hyields⟩ :=
    exists_read_of_append hread (by simpa using hne) hissues hrun
  refine ⟨bytes, js, hcontent, hreads, ?_⟩
  rw [List.forall₂_map_left_iff] at hyields
  refine forall₂_imp_of_mem hyields fun e he j hj => ⟨hmade e he, ?_⟩
  obtain ⟨token, htoken, hissue⟩ := (hmade e he).made
  exact (place_of_yields (hmade e he).isWritable hissue Text.lineClass_fitsLine
    htoken.isVisible hyear hj).1

/-- An issue of a task that is put into a document points, as it is read back, at the file of the task
just if the text of the file is kept on one line. Where all are kept a sync run touches beside the
backups no file but those of the tasks and those of other issues. -/
theorem gathered_points_at_source_iff (hyear : 1000 ≤ now.year) (hne : pairs ≠ [])
    (hmade : ∀ e ∈ pairs, Gather.IsMade w.cwd now limit e.1 e.2)
    (hread : readDocument (decode (bytesAt document w)) = .ok is)
    (hrun : (append document (pairs.map Prod.snd)).runOn w = (.ok n, w')) :
    ∃ bytes js, w'.content document = .ok bytes ∧ readDocument (decode bytes) = .ok (is ++ js) ∧
      List.Forall₂ (fun e j => fileOf w.cwd j = .ok (Path.absolute (e.1.path.resolve w.cwd)) ↔
        Text.BreakFree (e.1.file w.cwd) ∧ Text.IsTrimmed (e.1.file w.cwd)) pairs js ∧
      ((∀ e ∈ pairs, Text.BreakFree (e.1.file w.cwd) ∧ Text.IsTrimmed (e.1.file w.cwd)) →
        (∀ s ∈ w.cwd, Path.IsName s) → ∀ v settings b document approver bytes before js',
          v.cwd = w.cwd → settings.backups v.cwd = .ok b → v.content document = .ok bytes →
          readDocument (decode bytes) = .ok (before ++ js') →
          List.Forall₂ (fun j j' => j'.sourceFile? = j.sourceFile?) js js' →
          Frame (fun place => Touches b w.cwd before place ∨
            ∃ e ∈ pairs, place = e.1.path.resolve w.cwd) v
            ((run settings document approver).runOn v).2) := by
  obtain ⟨bytes, js, hcontent, hreads, hfiles⟩ := exists_files_of_append hyear hne hmade hread hrun
  refine ⟨bytes, js, hcontent, hreads, hfiles.imp fun e j hj => ?_, ?_⟩
  · exact fileOf_eq_iff hj.1.names hj.2
  · intro hplaced hcwd v settings b document approver bytes before js' hv hb hdocument hissues hsame
    refine (@frame_run settings document approver v b bytes _ (hv ▸ hcwd) hb hdocument hissues).mono
      fun place htouches => ?_
    rw [hv] at htouches
    rcases htouches with hcovers | ⟨i, hi, p, hpoints, hplace⟩
    · exact Or.inl (Or.inl hcovers)
    rw [completed, List.filter_append, List.mem_append] at hi
    rcases hi with hi | hi
    · exact Or.inl (Or.inr ⟨i, hi, p, hpoints, hplace⟩)
    -- The issue points where the one points that was read for a task.
    obtain ⟨j, hj, hfile⟩ := exists_of_mem_right hsame i (List.mem_filter.mp hi).1
    obtain ⟨e, he, hmadeFor, hone⟩ := exists_of_mem_right hfiles j hj
    have hsource := (fileOf_eq_iff hmadeFor.names (hfile.trans hone)).mpr (hplaced e he)
    obtain rfl := Except.ok.inj (hsource.symm.trans hpoints)
    refine Or.inr ⟨e, he, ?_⟩
    rwa [Path.resolve_absolute fun s hs => (hmadeFor.names s hs).ne_dotDot] at hplace

/-- A task in a file whose name starts with a blank, and one outside of the working directory. -/
def oddTasks : List Task :=
  [⟨⟨.relative, [" a.py"]⟩, 1, 1, "# TODO: b", "TODO", "b", "PY", none⟩,
    ⟨⟨.root, ["v", "a: \\b.py"]⟩, 1, 1, "# TODO: b", "TODO", "b", "PY", none⟩]

/-- The tasks with the issues that are made of them. -/
def oddPairs : List (Task × Issue) :=
  oddTasks.filterMap fun task =>
    (Issue.ofTask ["w"] task "0123abcd" (ofFiles ["w"] []).clock 100).toOption.map (Prod.mk task)

theorem gathered_points_at_source_iff_oddPairs :
    ∃ n w', 1000 ≤ (ofFiles ["w"] []).clock.year ∧ oddPairs ≠ [] ∧
      (∀ e ∈ oddPairs, Gather.IsMade ["w"] (ofFiles ["w"] []).clock 100 e.1 e.2) ∧
      readDocument (decode (bytesAt ⟨.relative, ["orgi.org"]⟩ (ofFiles ["w"] []))) = .ok [] ∧
      (append ⟨.relative, ["orgi.org"]⟩ (oddPairs.map Prod.snd)).runOn (ofFiles ["w"] []) =
        (.ok n, w') ∧
      ∃ bytes js, w'.content ⟨.relative, ["orgi.org"]⟩ = .ok bytes ∧
        readDocument (decode bytes) = .ok js ∧
        List.Forall₂ (fun e j => fileOf ["w"] j = .ok (Path.absolute (e.1.path.resolve ["w"])) ↔
          Text.BreakFree (e.1.file ["w"]) ∧ Text.IsTrimmed (e.1.file ["w"])) oddPairs js := by
  have hne : oddPairs ≠ [] := by decide +kernel
  have hmade : ∀ e ∈ oddPairs, Gather.IsMade ["w"] (ofFiles ["w"] []).clock 100 e.1 e.2 := by
    have hpairs : ∀ e ∈ oddPairs, (∀ s ∈ e.1.path.resolve ["w"], Path.IsPlainName s) ∧
        e.1 ∈ tasksOf e.1.path false (decode (bytesOf "# TODO: b")) ∧
        Issue.ofTask ["w"] e.1 "0123abcd" (ofFiles ["w"] []).clock 100 = .ok e.2 := by
      decide +kernel
    intro e he
    obtain ⟨hnames, hfound, hissue⟩ := hpairs e he
    exact ⟨fun s hs => (hnames s hs).isFileName, ⟨_, hfound, by decide +kernel⟩, "0123abcd",
      ⟨by decide, by decide⟩, hissue⟩
  have hread : readDocument (decode (bytesAt ⟨.relative, ["orgi.org"]⟩ (ofFiles ["w"] []))) =
      .ok [] := by
    decide +kernel
  obtain ⟨n, hn, -⟩ : ∃ n, ((append ⟨.relative, ["orgi.org"]⟩ (oddPairs.map Prod.snd)).runOn
      (ofFiles ["w"] [])).1 = .ok n ∧ n = 2 := by
    decide +kernel
  rcases hrun : (append ⟨.relative, ["orgi.org"]⟩ (oddPairs.map Prod.snd)).runOn
    (ofFiles ["w"] []) with ⟨r, w'⟩
  rw [hrun] at hn
  obtain rfl : r = .ok n := hn
  obtain ⟨bytes, js, hcontent, hreads, hpoints, -⟩ :=
    gathered_points_at_source_iff (w := ofFiles ["w"] []) (by decide) hne hmade hread hrun
  exact ⟨n, w', by decide, hne, hmade, hread, rfl, bytes, js, hcontent, hreads, hpoints⟩

/-- Two files whose names are the same but for a blank, a task in one of them. -/
def spacedTwin : Workspace :=
  (Gather.run .default ⟨.relative, []⟩ ⟨.relative, ["orgi.org"]⟩ false none).runOn
    (ofFiles ["w"] [(" a.py", "# TODO: b\n"), ("a.py", "x = 1\n")]) |>.2

/-- The same after the issue was done. -/
def spacedTwinDone : Workspace :=
  ofFiles ["w"] [(" a.py", spacedTwin.textAt ⟨.relative, [" a.py"]⟩), ("a.py", "x = 1\n"),
    ("orgi.org", "* DONE" ++ (spacedTwin.textAt ⟨.relative, ["orgi.org"]⟩).drop 6)]

/-- The issue points at the other file, and a sync run removes the line of that. -/
theorem run_removes_line_of_twin :
    ∃ bytes, spacedTwinDone.content ⟨.relative, ["orgi.org"]⟩ = .ok bytes ∧
    (∃ issues, readDocument (decode bytes) = .ok issues ∧
      issues.map (fileOf ["w"]) = [.ok (.absolute ["w", "a.py"])]) ∧
    spacedTwinDone.textAt ⟨.relative, [" a.py"]⟩ =
      "# TODO: [orgi:gather-20251218-143045-00000000] b\n" ∧
    ((run .default ⟨.relative, ["orgi.org"]⟩ .auto).runOn spacedTwinDone).2.textAt
      ⟨.relative, [" a.py"]⟩ = "# TODO: [orgi:gather-20251218-143045-00000000] b\n" ∧
    ((run .default ⟨.relative, ["orgi.org"]⟩ .auto).runOn spacedTwinDone).2.content
      ⟨.relative, ["a.py"]⟩ = .ok [] := by
  decide +kernel

end Sync

end TodoLedger
