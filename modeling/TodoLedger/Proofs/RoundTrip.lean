import TodoLedger.Proofs.Gather.Fresh
import TodoLedger.Proofs.Gather.Repeat
import TodoLedger.Proofs.Sync.Source
import TodoLedger.Proofs.Sync.Sweep
import TodoLedger.Proofs.Workspace.Sample
/-!
# From tasks to issues and back

A directory is gathered from for the first time, all its issues are done, and sync is run without
questions. What is left of each file are its lines without those on which a task was found.
-/

namespace TodoLedger

open Work Workspace Utf8 Gather Sync

/-- The lines of a text on which no task is found. -/
def Text.untasked (p : Path) (t : Text) : List Line :=
  without (fun k => (tasksOf p false t).any fun task => task.line = (k + 1 : Nat)) (lines t)

/-- Nothing but the document is another one, and there nothing but the state of the issues: they are
done. -/
structure Completes (document : Path) (w v : Workspace) : Prop where
  frame : Frame (· = document.resolve w.cwd) w v
  issues : ∃ old new js, w.content document = .ok old ∧ readDocument (decode old) = .ok js ∧
    v.content document = .ok new ∧
    readDocument (decode new) = .ok (js.map fun j => { j with state := .done })

variable {settings : Settings} {directory document p : Path} {b : Backups} {place : Place}
  {w w' v u : Workspace} {bytes : Bytes} {js : List Issue} {task : Task}

/-- A file is found under its absolute path as under its own. -/
theorem Workspace.Frame.content_absolute_iff {touched : Place → Prop} {bytes' : Bytes}
    (h : Frame touched w v) (hw : w.tree.WellFormed) (hcontent : w.content p = .ok bytes) :
    v.content (Path.absolute (p.resolve w.cwd)) = .ok bytes' ↔ v.content p = .ok bytes' := by
  obtain ⟨place, hlocate, hfile⟩ := content_eq_ok_iff.mp hcontent
  have hplace := eq_resolve_of_locate hlocate
  have habsolute := h.locate (locate_absolute hw hfile)
  rw [← hplace, content_eq_ok_iff, content_eq_ok_iff, habsolute, h.locate hlocate]

/-! ## Completing the issues -/

theorem Gather.IsGathered.exists_completes {files : List Path} {tasks : List Task}
    (h : IsGathered b document files tasks w w' js) : ∃ v, Completes document w' v := by
  obtain ⟨old, hold, hread⟩ := h.listed
  obtain ⟨new, hdone⟩ := h.restated .done
  obtain ⟨place, hlocate, hfile⟩ := content_eq_ok_iff.mp hold
  have hplace := eq_resolve_of_locate hlocate
  have hne : place ≠ [] := by
    rintro rfl
    cases hfile
  have hframe : Frame (· = document.resolve w'.cwd) w'
      { w' with tree := w'.tree.put place (.file new) } :=
    .put_file hplace (by rw [hfile]; simp) rfl rfl (List.prefix_refl _)
  refine ⟨_, hframe, old, new, js, hold, hread, content_eq_ok_iff.mpr ⟨place, hframe.locate hlocate, ?_⟩,
    hdone⟩
  rw [Tree.find?_put hne, if_pos rfl]

/-! ## The lines that are removed -/

/-- The files that could be read, under their absolute paths. -/
def IsSource (settings : Settings) (directory : Path) (place : Place) (w : Workspace) (q : Path) :
    Prop :=
  ∃ p ∈ w.tree.wanted directory place settings.selection,
    q = Path.absolute (p.resolve w.cwd) ∧ ∃ bytes, w.content p = .ok bytes

/-- A task was found on the line behind so many lines of a file under its absolute path. -/
def isTaskLine (tasks : List Task) (cwd : Place) (q : Path) (k : Nat) : Bool :=
  tasks.any fun task => Path.absolute (task.path.resolve cwd) = q ∧ task.line = (k + 1 : Nat)

section Removed

variable (h : IsFresh settings directory document b place w)

include h

/-- The files have the names that they stand under, and a task is found in one of them. -/
theorem Gather.IsFresh.names (hp : p ∈ w.tree.wanted directory place settings.selection) :
    (∀ s ∈ p.resolve w.cwd, Path.IsFileName s) ∧
      (Path.absolute (p.resolve w.cwd)).name = p.name ∧
      (∀ cwd, (Path.absolute (p.resolve w.cwd)).resolve cwd = p.resolve w.cwd) := by
  obtain ⟨name, -, rfl, -, hplace, -, hnames⟩ := h.exists_name h.wellFormed hp
  refine ⟨hnames, ?_, fun cwd => Path.resolve_absolute fun s hs => (hnames s hs).ne_dotDot⟩
  rw [hplace]
  simp [Path.name, Path.absolute, Path.child]

variable (hgathered : IsGathered b document (w.tree.wanted directory place settings.selection)
    (tasksIn w directory place settings.selection) w w' js)
  (hframe : Frame (· = document.resolve w'.cwd) w' v)

include hgathered hframe

theorem lines_of_source (hp : p ∈ w.tree.wanted directory place settings.selection)
    (hcontent : w.content p = .ok bytes) :
    ∃ bytes', v.content (Path.absolute (p.resolve w.cwd)) = .ok bytes' ∧
      Advances (HasTask (tasksIn w directory place settings.selection) p)
        (Text.lines (decode bytes)) (Text.lines (decode bytes')) := by
  obtain ⟨bytes', hafter, hlines⟩ := hgathered.files p hp bytes hcontent
  have hall : Frame (fun _ => True) w v :=
    (hgathered.frame.mono fun _ _ => trivial).trans (hframe.mono fun _ _ => trivial)
  refine ⟨bytes', (hall.content_absolute_iff h.wellFormed hcontent).mpr ?_, hlines⟩
  refine hframe.content hafter ?_
  rw [hgathered.frame.cwd]
  exact (h.clear p hp).1

theorem tidy_of_gathered (hreturn : ∀ p ∈ w.tree.wanted directory place settings.selection,
    ∀ bytes, w.content p = .ok bytes → ∀ l ∈ Text.lines (decode bytes), l.ending ≠ .cr) :
    Tidy b (IsSource settings directory place w) v where
  isReal := by
    rintro q ⟨p, hp, rfl, -⟩
    exact ⟨_, rfl, fun s hs => ((h.names hp).1 s hs).toIsName⟩
  unheld := by
    rintro q q' ⟨p, hp, rfl, -⟩ ⟨p', hp', rfl, -⟩
    obtain ⟨-, -, hresolve⟩ := h.names hp
    obtain ⟨-, hname, -⟩ := h.names hp'
    rw [hresolve, hname, hframe.cwd, hgathered.frame.cwd]
    exact (h.clear p hp).2 p' hp'
  clean := by
    rintro q ⟨p, hp, rfl, bytes, hcontent⟩
    obtain ⟨bytes', hafter, hlines⟩ := lines_of_source h hgathered hframe hp hcontent
    refine ⟨bytes', hafter, clean_lines (isStable_decode bytes') fun l hl => ?_⟩
    have hending : l.ending ∈ (Text.lines (decode bytes)).map Line.ending :=
      hlines.endings ▸ List.mem_map_of_mem hl
    obtain ⟨l', hl', hsame⟩ := List.mem_map.mp hending
    rw [← hsame]
    exact hreturn p hp bytes hcontent l' hl'

omit hgathered hframe

/-- The target of an issue is the line of its task. -/
theorem isOf_of_links {j : Issue} (htask : task ∈ tasksIn w directory place settings.selection)
    (hlinks : Links w.cwd task j) :
    HasPath w.cwd j ∧ ∃ n : Nat, task.line = n ∧
      ∀ t : Target, t.IsOf w.cwd j ↔ t = ⟨Path.absolute (task.path.resolve w.cwd), n⟩ := by
  obtain ⟨hpath, -⟩ := mem_tasksIn_iff.mp htask
  obtain ⟨hnames, -⟩ := h.names hpath
  have hfile := fileOf_eq hlinks.file hnames
  obtain ⟨n, hline, hsource⟩ := hlinks.line
  refine ⟨⟨_, hfile, fun s hs => (hnames s hs).short⟩, n, hline, fun t => ?_⟩
  constructor
  · rintro ⟨hof, hn⟩
    obtain ⟨path, m⟩ := t
    obtain rfl := Except.ok.inj (hfile.symm.trans hof)
    rw [hsource, Option.getD_some] at hn
    exact congrArg (Target.mk _) hn
  · rintro rfl
    exact ⟨hfile, by rw [hsource, Option.getD_some]⟩

theorem isTaskLine_eq (hp : p ∈ w.tree.wanted directory place settings.selection)
    (hcontent : w.content p = .ok bytes) (k : Nat) :
    isTaskLine (tasksIn w directory place settings.selection) w.cwd
        (Path.absolute (p.resolve w.cwd)) k =
      (tasksOf p false (decode bytes)).any fun task => task.line = (k + 1 : Nat) := by
  have hat : w.tasksAt p = tasksOf p false (decode bytes) := by
    rw [Workspace.tasksAt, hcontent]
  rw [isTaskLine, Bool.eq_iff_iff, List.any_eq_true, List.any_eq_true]
  constructor
  · rintro ⟨task, htask, hsame⟩
    obtain ⟨hplace, hline⟩ := of_decide_eq_true hsame
    obtain ⟨hpath, hfound⟩ := mem_tasksIn_iff.mp htask
    have hseparate := h.separate h.wellFormed fun p hp => (h.clear p hp).2
    obtain rfl := hseparate.injective _ hpath p hp (congrArg Path.segments hplace)
    rw [hat] at hfound
    exact ⟨task, hfound, decide_eq_true hline⟩
  · rintro ⟨task, htask, hline⟩
    obtain rfl := (isFound_of_mem_tasksOf htask).path
    rw [← hat] at htask
    exact ⟨task, mem_tasksIn_iff.mpr ⟨hp, htask⟩, decide_eq_true ⟨rfl, of_decide_eq_true hline⟩⟩

/-- The issues of the tasks point at the lines on which tasks were found. -/
theorem isTaskLine_iff {is : List Issue}
    (hall : List.Forall₂ (Links w.cwd) (tasksIn w directory place settings.selection) is) (q : Path)
    (k : Nat) : isTaskLine (tasksIn w directory place settings.selection) w.cwd q k = true ↔
      ∃ i ∈ is, Target.IsOf w.cwd i ⟨q, k + 1⟩ := by
  rw [isTaskLine, List.any_eq_true]
  constructor
  · rintro ⟨task, htask, hsame⟩
    obtain ⟨rfl, hline⟩ := of_decide_eq_true hsame
    obtain ⟨i, hi, hlinks⟩ := exists_of_mem_right hall.flip task htask
    obtain ⟨-, n, hn, hof⟩ := isOf_of_links h htask hlinks
    obtain rfl : n = k + 1 := by omega
    exact ⟨i, hi, (hof _).mpr rfl⟩
  · rintro ⟨i, hi, ht⟩
    obtain ⟨task, htask, hlinks⟩ := exists_of_mem_right hall i hi
    obtain ⟨-, n, hn, hof⟩ := isOf_of_links h htask hlinks
    obtain ⟨rfl, rfl⟩ := Target.mk.inj ((hof _).mp ht)
    exact ⟨task, htask, by simpa using hn⟩

/-- Where no task was found the line is still the one that was there. -/
theorem without_isTaskLine (hp : p ∈ w.tree.wanted directory place settings.selection)
    (hcontent : w.content p = .ok bytes) {bytes' : Bytes}
    (hlines : Advances (HasTask (tasksIn w directory place settings.selection) p)
      (Text.lines (decode bytes)) (Text.lines (decode bytes'))) :
    Text.without (isTaskLine (tasksIn w directory place settings.selection) w.cwd
        (Path.absolute (p.resolve w.cwd))) (Text.lines (decode bytes')) =
      Text.untasked p (decode bytes) := by
  rw [funext (isTaskLine_eq h hp hcontent), Text.untasked]
  refine Text.without_congr (by simpa using congrArg List.length hlines.endings) fun k hk => ?_
  rcases hlines.lines k with hsame | ⟨⟨task, hmem, rfl, hline⟩, -⟩
  · exact hsame
  · rw [← isTaskLine_eq h hp hcontent, isTaskLine, List.any_eq_false] at hk
    exact absurd (by simp [hline]) (hk task hmem)

/-- The issues of the tasks ask for lines of the files. -/
theorem isSource_of_links {i : Issue} (htask : task ∈ tasksIn w directory place settings.selection)
    (hlinks : Links w.cwd task i) : HasPath w.cwd i ∧ ∀ t : Target, t.IsOf w.cwd i →
      IsSource settings directory place w t.path := by
  obtain ⟨hpath, n, -, hof⟩ := isOf_of_links h htask hlinks
  refine ⟨hpath, fun t ht => ?_⟩
  obtain rfl := (hof t).mp ht
  obtain ⟨hwanted, hfound⟩ := mem_tasksIn_iff.mp htask
  obtain ⟨bytes, hcontent, -⟩ := exists_content_of_mem_tasksAt hfound
  exact ⟨_, hwanted, rfl, bytes, hcontent⟩

include hgathered

/-- When all issues are done sync leaves of each file the lines on which no task was found. -/
theorem content_of_completes {s : Except Fault Synced}
    (hreturn : ∀ p ∈ w.tree.wanted directory place settings.selection, ∀ bytes,
      w.content p = .ok bytes → ∀ l ∈ Text.lines (decode bytes), l.ending ≠ .cr)
    (hcompletes : Completes document w' v)
    (hsync : (Sync.run settings document .auto).runOn v = (s, u)) (hquiet : NoEditFailed v u)
    (hfault : ∀ f, s = .error f → ¬f.IsOfFiles) :
    (∃ y, s = .ok y) ∧ ∀ p ∈ w.tree.wanted directory place settings.selection, ∀ bytes,
      w.content p = .ok bytes →
        u.content p = .ok (bytesOf (Text.ofLines (Text.untasked p (decode bytes)))) := by
  obtain ⟨hframe, old, new, js', hold, hread, hnew, hdone⟩ := hcompletes
  obtain ⟨old', hold', hread'⟩ := hgathered.listed
  obtain rfl := Except.ok.inj (hold.symm.trans hold')
  obtain rfl := Except.ok.inj (hread.symm.trans hread')
  have hcwd : v.cwd = w.cwd := hframe.cwd.trans hgathered.frame.cwd
  have hall : List.Forall₂ (Links w.cwd) (tasksIn w directory place settings.selection)
      (js'.map fun j => { j with state := .done }) :=
    List.forall₂_map_right_iff.mpr (hgathered.linked.imp fun _ _ hlinks => hlinks.restate .done)
  have htask := exists_of_mem_right hall
  have hcompleted : completed (js'.map fun j => { j with state := .done }) =
      js'.map fun j => { j with state := .done } := by
    rw [completed, List.filter_eq_self]
    intro i hi
    obtain ⟨task, -, hlinks⟩ := htask i hi
    obtain ⟨j, -, rfl⟩ := List.mem_map.mp hi
    simpa using hlinks.isLinked
  have hpath : ∀ i ∈ completed (js'.map fun j => { j with state := .done }), HasPath v.cwd i ∧
      ∀ t : Target, t.IsOf v.cwd i → IsSource settings directory place w t.path := by
    intro i hi
    rw [hcompleted] at hi
    obtain ⟨task, hmem, hlinks⟩ := htask i hi
    rw [hcwd]
    exact isSource_of_links h hmem hlinks
  obtain ⟨hreturns, hrest, hleft⟩ := content_of_run
    (tidy_of_gathered h hgathered hframe hreturn) (by rw [hcwd]; exact h.backups) hnew hdone hpath
    (fun q _ k => by rw [hcompleted, hcwd]; exact isTaskLine_iff h hall q k) hsync hquiet hfault
  refine ⟨hreturns, fun p hp bytes hcontent => ?_⟩
  obtain ⟨bytes', hafter, hlines⟩ := lines_of_source h hgathered hframe hp hcontent
  have hends : Frame (fun _ => True) w u :=
    (hgathered.frame.mono fun _ _ => trivial).trans ((hframe.mono fun _ _ => trivial).trans hrest)
  rw [← hends.content_absolute_iff h.wellFormed hcontent,
    hleft _ ⟨p, hp, rfl, bytes, hcontent⟩ bytes' hafter,
    without_isTaskLine h hp hcontent hlines]

end Removed

/-- A run without a document changes no file. -/
theorem Sync.tree_of_missing {approver : Approver} (h : ∀ bytes, w.content document ≠ .ok bytes) :
    ((run settings document approver).runOn w).2.tree = w.tree := by
  rw [run, runOn_bind, runOn_ask]
  cases settings.backups w.cwd with
  | error fault => rfl
  | ok b =>
      simp only
      rcases hthere : (isFile document).runOn w with ⟨fault | there, v⟩
      · have hsame := isFile_unchanged document w
        rw [hthere] at hsame
        rw [runOn_bind_of_error hthere, hsame]
      · obtain ⟨rfl, rfl⟩ := Document.runOn_isFile_of_missing h hthere
        rw [runOn_bind_of_ok hthere]
        rfl

/-- A first run into a new document returns unless an operation on files fails, and when all its
issues are done a sync run returns likewise and leaves of each file just the lines on which no task
was found. -/
theorem round_trip_leaves_untasked_lines (h : IsFresh settings directory document b place w)
    (hreturn : ∀ p ∈ w.tree.wanted directory place settings.selection, ∀ bytes,
      w.content p = .ok bytes → ∀ l ∈ Text.lines (decode bytes), l.ending ≠ .cr)
    {r : Except Fault Gathered}
    (hgather : (Gather.run settings directory document false none).runOn w = (r, w'))
    (hfault : ∀ f, r = .error f → ¬f.IsOfFiles) :
    (∃ g, r = .ok g) ∧
      ((tasksIn w directory place settings.selection = [] ∧ w'.tree = w.tree ∧
          ((Sync.run settings document .auto).runOn w').2.tree = w.tree) ∨
        (∃ v, Completes document w' v) ∧
        ∀ v s u, Completes document w' v → (Sync.run settings document .auto).runOn v = (s, u) →
          NoEditFailed v u → (∀ f, s = .error f → ¬f.IsOfFiles) →
          (∃ y, s = .ok y) ∧ ∀ p ∈ w.tree.wanted directory place settings.selection, ∀ bytes,
            w.content p = .ok bytes →
              u.content p = .ok (bytesOf (Text.ofLines (Text.untasked p (decode bytes))))) := by
  obtain ⟨g, rfl⟩ : ∃ g, r = .ok g := by
    cases r with
    | error f => exact absurd (h.failsIn_run f w' hgather) (hfault f rfl)
    | ok g => exact ⟨g, rfl⟩
  refine ⟨⟨g, rfl⟩, ?_⟩
  rcases h.gathers_of_run hgather with ⟨hnone, hquiet⟩ | ⟨js, hgathered⟩
  · refine Or.inl ⟨hnone, hquiet.tree, ?_⟩
    rw [Sync.tree_of_missing (h.isNew.of_onlyEvents hquiet).content, hquiet.tree]
  · refine Or.inr ⟨hgathered.exists_completes, fun v s u hcompletes hsync hquiet hfiles => ?_⟩
    exact content_of_completes h hgathered hreturn hcompletes hsync hquiet hfiles

/-! ## Two tasks on one line -/

/-- A file that cannot be decoded, with three kinds of line ends and two tasks on one line. -/
def mixedTasks : Workspace :=
  .ofFiles ["w"] [("a.py", Rune.ofNat 0xDCFF :: " = 1\r\n# TODO: b # FIXME: c\n#todo: d")]

theorem round_trip_leaves_untasked_lines_mixedTasks :
    ∃ b r w', IsFresh .default ⟨.relative, []⟩ ⟨.relative, ["orgi.org"]⟩ b ["w"] mixedTasks ∧
      (∀ p ∈ mixedTasks.tree.wanted ⟨.relative, []⟩ ["w"] Settings.default.selection, ∀ bytes,
        mixedTasks.content p = .ok bytes → ∀ l ∈ Text.lines (decode bytes), l.ending ≠ .cr) ∧
      (Gather.run .default ⟨.relative, []⟩ ⟨.relative, ["orgi.org"]⟩ false none).runOn mixedTasks =
        (r, w') ∧
      (∀ f, r = .error f → ¬f.IsOfFiles) ∧ (∃ g, r = .ok g) ∧
      ((tasksIn mixedTasks ⟨.relative, []⟩ ["w"] Settings.default.selection = [] ∧
          w'.tree = mixedTasks.tree ∧
          ((Sync.run .default ⟨.relative, ["orgi.org"]⟩ .auto).runOn w').2.tree = mixedTasks.tree) ∨
        (∃ v, Completes ⟨.relative, ["orgi.org"]⟩ w' v) ∧
        ∀ v s u, Completes ⟨.relative, ["orgi.org"]⟩ w' v →
          (Sync.run .default ⟨.relative, ["orgi.org"]⟩ .auto).runOn v = (s, u) →
          NoEditFailed v u → (∀ f, s = .error f → ¬f.IsOfFiles) →
          (∃ y, s = .ok y) ∧
            ∀ p ∈ mixedTasks.tree.wanted ⟨.relative, []⟩ ["w"] Settings.default.selection, ∀ bytes,
              mixedTasks.content p = .ok bytes →
                u.content p = .ok (bytesOf (Text.ofLines (Text.untasked p (decode bytes))))) := by
  obtain ⟨b, hb, hdirectory⟩ : ∃ b, Settings.default.backups ["w"] = .ok b ∧
      b.directory = ⟨.relative, [".orgi", "backups"]⟩ := by
    decide +kernel
  have hfound : mixedTasks.tree.wanted ⟨.relative, []⟩ ["w"] Settings.default.selection =
      [⟨.relative, ["a.py"]⟩] := by
    decide +kernel
  obtain ⟨bytes, hbytes, hshort, hreturn⟩ : ∃ bytes,
      mixedTasks.content ⟨.relative, ["a.py"]⟩ = .ok bytes ∧
        ((decode bytes).length < 10 ^ Text.maxDigits ∧
          ∀ l ∈ Text.lines (decode bytes), l.ending ≠ .cr) := by
    decide +kernel
  have hunheld : ∀ name place, ¬[("w" : Text), ".orgi", "backups"] <+: place →
      ¬b.Holds name ["w"] place := by
    intro name place hplace hheld
    have hcovers := hheld.covers
    rw [Backups.Covers, hdirectory] at hcovers
    exact hplace hcovers
  have hfresh : IsFresh .default ⟨.relative, []⟩ ⟨.relative, ["orgi.org"]⟩ b ["w"] mixedTasks := by
    refine ⟨⟨hb, by decide +kernel, by decide +kernel⟩, Tree.wellFormed_of_plain (by decide +kernel),
      by decide +kernel, ?_, ?_, ?_, ?_, ?_⟩
    · rw [hfound, List.forall_mem_singleton]
      intro bytes' hbytes'
      obtain rfl := Except.ok.inj (hbytes.symm.trans hbytes')
      exact hshort
    · rw [hfound, List.forall_mem_singleton]
      refine ⟨?_, ?_, ?_⟩
      · show ∀ c ∈ Path.relativeTo mixedTasks.cwd ⟨.relative, ["a.py"]⟩, c.isBreak = false
        decide +kernel
      · decide +kernel
      · decide +kernel
    · have hnone : mixedTasks.tree.find? (Path.resolve mixedTasks.cwd ⟨.relative, ["orgi.org"]⟩) =
          none := by
        decide +kernel
      intro bytes'
      rw [hnone]
      simp
    · rw [hfound]
      intro p hp
      obtain rfl := List.mem_singleton.mp hp
      exact ⟨by decide +kernel, fun q _ => hunheld _ _ (by decide +kernel)⟩
    · exact fun q _ => hunheld _ _ (by decide +kernel)
  have hreturns : ∀ p ∈ mixedTasks.tree.wanted ⟨.relative, []⟩ ["w"] Settings.default.selection,
      ∀ bytes, mixedTasks.content p = .ok bytes →
        ∀ l ∈ Text.lines (decode bytes), l.ending ≠ .cr := by
    rw [hfound, List.forall_mem_singleton]
    intro bytes' hbytes'
    obtain rfl := Except.ok.inj (hbytes.symm.trans hbytes')
    exact hreturn
  obtain ⟨g, hg, -⟩ : ∃ g, ((Gather.run .default ⟨.relative, []⟩ ⟨.relative, ["orgi.org"]⟩ false
      none).runOn mixedTasks).1 = .ok g ∧ True := by
    decide +kernel
  rcases hgather : (Gather.run .default ⟨.relative, []⟩ ⟨.relative, ["orgi.org"]⟩ false none).runOn
    mixedTasks with ⟨r, w'⟩
  rw [hgather] at hg
  obtain rfl : r = .ok g := hg
  exact ⟨b, _, w', hfresh, hreturns, rfl, by simp,
    round_trip_leaves_untasked_lines hfresh hreturns hgather (by simp)⟩

/-- The workspace with every headline of the document that is to do marked as done. -/
def allDone (document : Path) (w : Workspace) : Workspace :=
  { w with tree := w.tree.put (document.resolve w.cwd) (.file (bytesOf (Text.ofLines
      ((Text.lines (w.textAt document)).map fun l =>
        if Text.startsWith l.body "* TODO " then { l with body := "* DONE " ++ l.body.drop 7 }
        else l)))) }

example : ((Sync.run .default ⟨.relative, ["orgi.org"]⟩ .auto).runOn (allDone ⟨.relative, ["orgi.org"]⟩
      ((Gather.run .default ⟨.relative, []⟩ ⟨.relative, ["orgi.org"]⟩ false none).runOn
        mixedTasks).2)).2.textAt ⟨.relative, ["a.py"]⟩ = Rune.ofNat 0xDCFF :: " = 1\r\n" := by
  decide +kernel

/-! ## A file that is taken for a backup -/

/-- A file with a task, and one without a task that bears the name of a backup of the first. -/
def namedLikeBackup : Workspace :=
  .ofFiles ["w"] [("a.py", "# TODO: b\n"), ("a.py.backup-0.py", "x = 1\n")]

/-- What a first run leaves of the two files when one backup is kept beside them. -/
def gatheredBeside : Workspace :=
  ((Gather.run backupsBeside ⟨.relative, []⟩ ⟨.relative, ["orgi.org"]⟩ false none).runOn
    namedLikeBackup).2

/-- The line of the task is removed as it should be. The other file is pruned, and all its lines are
lost. -/
theorem round_trip_loses_file :
    namedLikeBackup.tree.wanted ⟨.relative, []⟩ ["w"] backupsBeside.selection =
        [⟨.relative, ["a.py"]⟩, ⟨.relative, ["a.py.backup-0.py"]⟩] ∧
      namedLikeBackup.tree.find? ["w", "orgi.org"] = none ∧ 1000 ≤ namedLikeBackup.clock.year ∧
      (∃ g, ((Gather.run backupsBeside ⟨.relative, []⟩ ⟨.relative, ["orgi.org"]⟩ false none).runOn
        namedLikeBackup).1 = .ok g ∧ g.failures = []) ∧
      (∃ js, readDocument (gatheredBeside.textAt ⟨.relative, ["orgi.org"]⟩) = .ok js ∧
        readDocument ((allDone ⟨.relative, ["orgi.org"]⟩ gatheredBeside).textAt
          ⟨.relative, ["orgi.org"]⟩) = .ok (js.map fun j => { j with state := .done })) ∧
      (∃ y, ((Sync.run backupsBeside ⟨.relative, ["orgi.org"]⟩ .auto).runOn
        (allDone ⟨.relative, ["orgi.org"]⟩ gatheredBeside)).1 = .ok y ∧ y.removed = 1) ∧
      tasksOf ⟨.relative, ["a.py.backup-0.py"]⟩ false
        (namedLikeBackup.textAt ⟨.relative, ["a.py.backup-0.py"]⟩) = [] ∧
      namedLikeBackup.textAt ⟨.relative, ["a.py.backup-0.py"]⟩ = "x = 1\n" ∧
      ((Sync.run backupsBeside ⟨.relative, ["orgi.org"]⟩ .auto).runOn
        (allDone ⟨.relative, ["orgi.org"]⟩ gatheredBeside)).2.tree.find?
          ["w", "a.py.backup-0.py"] = none := by
  decide +kernel

end TodoLedger
