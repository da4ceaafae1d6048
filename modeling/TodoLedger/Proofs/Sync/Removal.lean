import TodoLedger.Proofs.Patch
import TodoLedger.Proofs.Sync.Review
/-!
# Removing a line

A removal either leaves every file outside the backups alone or takes exactly one line out of one
file. Lines above a removed line keep their bodies, so that a run from the bottom up finds each of
its lines as it was at the start.
-/

namespace TodoLedger

open Work Workspace Utf8

/-- The path is that of a place whose names are real. -/
def Path.IsReal (p : Path) : Prop :=
  ∃ place, p = Path.absolute place ∧ ∀ s ∈ place, Path.IsName s

namespace Path.IsReal

variable {p q : Path} {cwd : Place} {w : Workspace} {bytes : Bytes}

theorem eq_absolute (h : p.IsReal) (cwd : Place) : p = Path.absolute (p.resolve cwd) := by
  obtain ⟨place, rfl, hnames⟩ := h
  rw [Path.resolve_absolute fun s hs => (hnames s hs).ne_dotDot]

theorem eq_of_resolve (hp : p.IsReal) (hq : q.IsReal) (h : p.resolve cwd = q.resolve cwd) :
    p = q := by
  rw [hp.eq_absolute cwd, hq.eq_absolute cwd, h]

theorem isNamed (h : p.IsReal) (hcontent : w.content p = .ok bytes) : p.IsNamed := by
  obtain ⟨place, rfl, hnames⟩ := h
  refine Path.isNamed_absolute ?_ hnames
  rintro rfl
  obtain ⟨q, hlocate, hfile⟩ := content_eq_ok_iff.mp hcontent
  obtain rfl : q = [] := eq_resolve_of_locate hlocate
  cases hfile

end Path.IsReal

theorem Sync.eq_of_fileOf {cwd : Place} {i : Issue} {p : Path} (h : Sync.fileOf cwd i = .ok p) :
    p = Path.absolute ((Path.ofText (i.sourceFile?.getD [])).resolve cwd) := by
  rw [Sync.fileOf] at h
  cases hnames : Sync.checkNames (if (Path.ofText (i.sourceFile?.getD [])).anchor = .relative
      then cwd else []) (Path.ofText (i.sourceFile?.getD [])).segments with
  | error fault => simp [hnames, bind, Except.bind] at h
  | ok _ =>
      simp only [hnames, bind, Except.bind] at h
      exact (Except.ok.inj h).symm

/-- Wherever an issue points, the path is that of a real place. -/
theorem Sync.isReal_of_fileOf {cwd : Place} {i : Issue} {p : Path}
    (hcwd : ∀ s ∈ cwd, Path.IsName s) (h : Sync.fileOf cwd i = .ok p) : p.IsReal := by
  refine ⟨_, Sync.eq_of_fileOf h,
    Path.isName_of_mem_resolveFrom ?_ fun s => Path.isSegment_of_mem_ofText⟩
  split_ifs
  · exact hcwd
  · simp

namespace Edit

variable {p : Path} {ls : List Line} {n : Nat}

private theorem index?_of_le (h : 1 ≤ n) (hn : n ≤ ls.length) :
    index? ls.length (n : Int) = some (n - 1) := by
  rw [index?, if_pos (by omega)]
  congr 1
  omega

theorem apply_removeLine_of_getElem? {l : Line} (h : 1 ≤ n) (hl : ls[n - 1]? = some l) :
    (removeLine n).apply p ls =
      .ok (.changed (ls.eraseIdx (n - 1)) ("Removed TODO line: " ++ Text.trim l.body)) := by
  have hlt := (List.getElem?_eq_some_iff.mp hl).1
  rw [apply, target, index?_of_le h (by omega)]
  simp only [Option.bind_some, hl, Option.map_some, applyLine, List.append_nil,
    List.eraseIdx_eq_take_drop_succ]

theorem apply_removeLine_of_le (h : 1 ≤ n) (hn : n ≤ ls.length) :
    ∃ m, (removeLine n).apply p ls = .ok (.changed (ls.eraseIdx (n - 1)) m) :=
  ⟨_, apply_removeLine_of_getElem? h (List.getElem?_eq_getElem (by omega))⟩

theorem apply_removeLine_of_gt (h : n = 0 ∨ ls.length < n) :
    (removeLine n).apply p ls = .error (.lineOutOfRange n p) := by
  have hindex : index? ls.length (n : Int) = none := by
    rw [index?, if_neg (by omega)]
  rw [apply, target, hindex]
  rfl

theorem eq_of_removeLine_changed {ms : List Line} {m : Text}
    (h : (removeLine n).apply p ls = .ok (.changed ms m)) :
    1 ≤ n ∧ n ≤ ls.length ∧ ms = ls.eraseIdx (n - 1) := by
  by_cases hn : n = 0 ∨ ls.length < n
  · rw [apply_removeLine_of_gt hn] at h
    cases h
  · have hone : 1 ≤ n := by omega
    have hlen : n ≤ ls.length := by omega
    obtain ⟨m', hm⟩ := apply_removeLine_of_le (p := p) hone hlen
    rw [hm] at h
    simp only [Except.ok.injEq, Edited.changed.injEq] at h
    exact ⟨hone, hlen, h.1.symm⟩

theorem removeLine_ne_unchanged {m : Text} : (removeLine n).apply p ls ≠ .ok (.unchanged m) := by
  intro h
  by_cases hn : n = 0 ∨ ls.length < n
  · rw [apply_removeLine_of_gt hn] at h
    cases h
  · obtain ⟨m', hm⟩ := @apply_removeLine_of_le p ls n (by omega) (by omega)
    rw [hm] at h
    cases h

end Edit

namespace Sync

/-- The line of the target is taken out of a file with some content, and no other file is touched
but those of the backups. -/
structure Deletes (b : Backups) (t : Target) (bytes : Bytes) (v v' : Workspace) : Prop where
  before : v.content t.path = .ok bytes
  pos : 1 ≤ t.line
  le : t.line ≤ (Text.lines (decode bytes)).length
  after : v'.content t.path =
    .ok (bytesOf (Text.ofLines ((Text.lines (decode bytes)).eraseIdx (t.line - 1))))
  frame : Frame (Patch.Touches b t.path v.cwd) v v'

variable {b : Backups} {t : Target} {v : Workspace} {bytes : Bytes}

theorem remove_step (ht : t.path.IsReal) (hcontent : v.content t.path = .ok bytes) :
    Patch.Step b t.path (.removeLine t.line) v bytes ((remove b t).runOn v) := by
  refine Patch.apply_step (ht.isNamed hcontent) hcontent fun ls m h => ?_
  obtain ⟨-, -, rfl⟩ := Edit.eq_of_removeLine_changed h
  exact Text.isStable_ofLines_of_sublist (isStable_decode bytes) (List.eraseIdx_sublist _ _)

/-- A removal leaves the files outside the backups alone or deletes the line of its target. -/
theorem remove_cases (ht : t.path.IsReal) (v : Workspace) :
    (Frame (b.Covers v.cwd) v ((remove b t).runOn v).2 ∧
      ∀ patch, ((remove b t).runOn v).1 = .ok patch → patch.isChange = false) ∨
    ∃ patch bytes, ((remove b t).runOn v).1 = .ok patch ∧ patch.isChange = true ∧
      Deletes b t bytes v ((remove b t).runOn v).2 := by
  by_cases hfile : ∃ bytes, v.content t.path = .ok bytes
  · obtain ⟨bytes, hcontent⟩ := hfile
    have hstep := remove_step (b := b) ht hcontent
    rcases hstep.effect with ⟨hframe, hleft⟩ | ⟨patch, ls, hrun, hpatch, ⟨m, hedit⟩, hafter, hframe⟩
    · exact Or.inl ⟨hframe.mono fun _ => Backups.Holds.covers, hleft⟩
    · obtain ⟨hpos, hle, rfl⟩ := Edit.eq_of_removeLine_changed hedit
      exact Or.inr ⟨patch, bytes, hrun, hpatch, hcontent, hpos, hle, hafter,
        hframe.mono fun _ => Patch.Reaches.touches⟩
  · obtain ⟨fault, hrun⟩ := Patch.apply_missing (b := b) (e := .removeLine t.line)
      (not_exists.mp hfile)
    rw [remove, hrun]
    exact Or.inl ⟨.refl v, by simp⟩

/-- However a removal ends, it touches no file but that of its target and the backups of it. -/
theorem frame_remove (ht : t.path.IsReal) (v : Workspace) :
    Frame (Patch.Reaches b t.path v.cwd) v ((remove b t).runOn v).2 := by
  by_cases hfile : ∃ bytes, v.content t.path = .ok bytes
  · obtain ⟨bytes, hcontent⟩ := hfile
    exact Patch.frame_apply (ht.isNamed hcontent)
  · obtain ⟨fault, hrun⟩ := Patch.apply_missing (b := b) (e := .removeLine t.line)
      (not_exists.mp hfile)
    rw [remove, hrun]
    exact .refl v

/-- Removals one after the other touch what each of them touches. -/
theorem frame_removals {touched : Place → Prop} {ts : List Target} (hts : ∀ t ∈ ts, t.path.IsReal ∧
      ∀ place, Patch.Reaches b t.path v.cwd place → touched place) :
    Frame touched v ((ts.mapM (remove b)).runOn v).2 := by
  induction ts generalizing v with
  | nil => exact .refl v
  | cons t ts ih =>
      obtain ⟨⟨ht, htouched⟩, hothers⟩ := List.forall_mem_cons.mp hts
      rw [List.mapM_cons]
      refine moves_bind ((frame_remove ht v).mono htouched) fun patch v₁ _ hframe => ?_
      refine moves_bind (ih fun s hs => ?_) fun patches v₂ _ _ => .refl v₂
      rw [hframe.cwd]
      exact hothers s hs

end Sync

end TodoLedger
