import TodoLedger.Proofs.Backup.Retention
import TodoLedger.Proofs.Patch.Failure
/-!
# Whether a backup outlives its own pruning

The copy that was just made is deleted at once if as many names as are kept come after its own: when
the clock was set back, backups from before that are the later ones by name. Otherwise it stands in
the directory when the edit is applied.
-/

namespace TodoLedger

open Work Workspace Utf8

namespace Backups

variable {b : Backups} {source : Path} {w w₀ w₁ v : Workspace} {bytes : Bytes} {dir place : Place}

/-- The number of names taken for backups of a file that come after a name. -/
def countLater (t : Tree) (dir : Place) (name s : Text) : Nat :=
  (Candidates t dir name).countP fun m => !Text.le m s

namespace Stored

variable (h : Stored b source w bytes w₀ w₁ dir place v)

include h

theorem place_ne_nil : place ≠ [] := Tree.ne_nil_of_not_directory h.notDirectory

theorem find?_copied (q : Place) : w₁.tree.find? q =
    if q = place then some (.file bytes) else w₀.tree.find? q := by
  rw [h.copied, Tree.find?_put h.place_ne_nil]

theorem keepsDirectories : Tree.KeepsDirectories w₀.tree w₁.tree := by
  rw [h.copied]
  exact Tree.keepsDirectories_put_file h.notDirectory

/-- Unless the path goes through the directory it leads to, the directory holds what it held before. -/
theorem listing_before (hdirect : b.directory.IsDirect w.cwd ∨
    ∃ q, w.locate b.directory = .ok q ∧ w.tree.find? q = some .directory) :
    w₀.tree.names dir = w.tree.names dir ∧
      ∀ s, w₀.tree.find? (dir ++ [s]) = w.tree.find? (dir ++ [s]) := by
  have hbuilds := builds_ensureDirectories b.directory w
  rw [h.made] at hbuilds
  rcases hdirect with hdirect | ⟨q, hlocate, hq⟩
  · have hfree : ∀ q, b.directory.Passes w.cwd q → ∀ s, q ≠ dir ++ [s] := by
      intro q hpasses s
      rw [eq_resolve_of_locate h.located, hbuilds.cwd]
      exact hdirect q hpasses s
    exact ⟨hbuilds.names dir hfree, fun s => hbuilds.nodes _ fun hpasses => hfree _ hpasses s rfl⟩
  · have hmade := h.made
    rw [runOn_ensureDirectories_of_directory hlocate hq] at hmade
    cases hmade
    exact ⟨rfl, fun _ => rfl⟩

/-- A path to a backup that leads to the place of the copy has the name of the copy. -/
theorem eq_of_leadsTo {n : Text} (hn : n ∈ b.Dropped w₁.tree dir source.name)
    (hlead : LeadsTo w₁ (b.directory.child n) place) : place = dir ++ [n] := by
  have hstem : stem source.name <+: n := by
    have hcandidate := (perm_descending _).mem_iff.mp (List.mem_of_mem_drop hn)
    exact Text.startsWith_iff.mp (List.mem_filter.mp hcandidate).2
  rw [eq_resolve_of_locate hlead.1, Path.resolve_child (ne_dotDot_of_stem hstem), h.cwd,
    ← eq_resolve_of_locate h.located]

/-- A copy in a directory of the backup's own name is not deleted. -/
theorem find?_of_directory
    (hthere : w₀.tree.find? (dir ++ [fileName source.name w.clock]) = some .directory) :
    v.tree.find? (dir ++ [fileName source.name w.clock] ++ [source.name]) = some (.file bytes) := by
  have hplace := h.place_eq
  rw [if_pos hthere] at hplace
  rw [← hplace, h.kept, h.find?_copied, if_pos rfl]
  intro n hn hlead
  have hshort := congrArg List.length (hplace.symm.trans (h.eq_of_leadsTo hn hlead))
  simp at hshort

section Own

variable (hthere : w₀.tree.find? (dir ++ [fileName source.name w.clock]) ≠ some .directory)

include hthere

theorem place_own : place = dir ++ [fileName source.name w.clock] := by
  rw [h.place_eq, if_neg hthere]

/-- The name of the copy is dropped if so many names come after it. -/
theorem mem_dropped_iff (hkeyed : w.tree.IsKeyed) :
    fileName source.name w.clock ∈ b.Dropped w₁.tree dir source.name ↔
      b.kept ≤ countLater w₀.tree dir source.name (fileName source.name w.clock) := by
  have hbuilds := builds_ensureDirectories b.directory w
  rw [h.made] at hbuilds
  have hkeyed₁ : w₁.tree.IsKeyed := by
    rw [h.copied]
    exact (hbuilds.keyed hkeyed).put _ _
  have hown : Text.startsWith (fileName source.name w.clock) (stem source.name) = true :=
    Text.startsWith_iff.mpr (stem_isPrefix_fileName _ _)
  have hlisted : fileName source.name w.clock ∈ Candidates w₁.tree dir source.name := by
    rw [Candidates, List.mem_filter, Tree.mem_names_iff, h.find?_copied, if_pos (h.place_own hthere).symm]
    exact ⟨by simp, hown⟩
  have hcount : (Candidates w₁.tree dir source.name).countP
      (fun m => !Text.le m (fileName source.name w.clock)) =
        countLater w₀.tree dir source.name (fileName source.name w.clock) := by
    rw [countLater, Candidates, Candidates, h.copied, h.place_own hthere, Tree.names_put_child]
    split_ifs
    · rfl
    · simp [List.filter_append, hown]
  rw [Dropped, mem_drop_descending_iff (nodup_candidates hkeyed₁), hcount]
  exact and_iff_right hlisted

/-- The copy is gone or there, as the names in the directory decide. -/
theorem find?_own (hkeyed : w.tree.IsKeyed) :
    v.tree.find? (dir ++ [fileName source.name w.clock]) =
      if b.kept ≤ countLater w₀.tree dir source.name (fileName source.name w.clock) then none
      else some (.file bytes) := by
  have hplace := h.place_own hthere
  have hfile : w₁.tree.find? place = some (.file bytes) := by rw [h.find?_copied, if_pos rfl]
  rw [← hplace]
  split_ifs with hdropped
  · refine h.gone _ ((h.mem_dropped_iff hthere hkeyed).mpr hdropped) _ ⟨?_, bytes, hfile⟩
    exact locate_of_keepsDirectories h.cwd h.keepsDirectories (h.reached hthere)
  · rw [h.kept, hfile]
    intro n hn hlead
    have hsame : n = fileName source.name w.clock := by
      simpa [hplace] using (h.eq_of_leadsTo hn hlead).symm
    rw [hsame] at hn
    exact hdropped ((h.mem_dropped_iff hthere hkeyed).mp hn)

end Own

end Stored

end Backups

namespace Patch

variable {b : Backups} {p : Path} {e : Edit} {w v : Workspace} {patch : Patch}

/-- An edit that is applied has stored a backup, and then touched nothing but its file. -/
theorem stored_of_applied (hp : p.IsNamed) (hrun : (apply b p e).runOn w = (.ok patch, v))
    (happlied : patch.outcome = .applied) :
    ∃ bytes w₀ w₁ dir place u, w.content p = .ok bytes ∧
      Backups.Stored b p w bytes w₀ w₁ dir place u ∧
      ∀ q, q ≠ p.resolve w.cwd → v.tree.find? q = u.tree.find? q := by
  obtain ⟨bytes, hcontent⟩ := exists_content_of_ok hrun
  have hends := @apply_ends b p e w bytes hp hcontent
  rw [hrun] at hends
  cases hends with
  | refused _ => cases happlied
  | unchanged _ => cases happlied
  | unsaved _ _ _ => cases happlied
  | spoiled _ _ _ _ => cases happlied
  | applied _ hcreate _ hwrite =>
      obtain ⟨-, w₀, w₁, dir, place, hstored⟩ := Backups.create_spec hp hcontent hcreate
      refine ⟨bytes, w₀, w₁, dir, place, _, hcontent, hstored, fun q hq => ?_⟩
      obtain ⟨own, hlocate, hnot, -, rfl⟩ := withContent_eq_ok_iff.mp hwrite
      have hne := Tree.ne_nil_of_not_directory hnot
      have hcwd := (frame_of_create hp hcreate).cwd
      rw [eq_resolve_of_locate hlocate, hcwd] at hne ⊢
      exact (Tree.find?_put hne q).trans (if_neg hq)

/-- The backup of an edit that is applied holds what the file held, and it is still there exactly if
fewer names come after its own than are kept. The names are those that the directory lists once it
is made, which for nearly all paths are those that it listed before. -/
theorem backup_survives_iff (b : Backups) (t : Text) (e : Edit) (w v : Workspace) (patch : Patch)
    (hw : w.tree.WellFormed) (hkeyed : w.tree.IsKeyed)
    (hcwd : w.tree.find? w.cwd = some .directory)
    (hrun : (apply b (Path.ofText t) e).runOn w = (.ok patch, v))
    (happlied : patch.outcome = .applied) :
    ∃ bytes w₀ dir s, s = Backups.fileName (Path.ofText t).name w.clock ∧
      w.content (Path.ofText t) = .ok bytes ∧
      (ensureDirectories b.directory).runOn w = (.ok (), w₀) ∧ w₀.locate b.directory = .ok dir ∧
      ((b.directory.IsDirect w.cwd ∨
          ∃ q, w.locate b.directory = .ok q ∧ w.tree.find? q = some .directory) →
        w₀.tree.names dir = w.tree.names dir) ∧
      (w₀.tree.find? (dir ++ [s]) = some .directory →
        v.tree.find? (dir ++ [s] ++ [(Path.ofText t).name]) = some (.file bytes)) ∧
      (w₀.tree.find? (dir ++ [s]) ≠ some .directory → v.tree.find? (dir ++ [s]) =
        if b.kept ≤ Backups.countLater w₀.tree dir (Path.ofText t).name s then none
        else some (.file bytes)) := by
  obtain ⟨bytes, hthere⟩ := exists_content_of_ok hrun
  have hp := isNamed_of_content hw hcwd hthere
  obtain ⟨bytes, w₀, w₁, dir, place, u, hcontent, hstored, hrest⟩ :=
    stored_of_applied hp hrun happlied
  refine ⟨bytes, w₀, dir, _, rfl, hcontent, hstored.made, hstored.located,
    fun hdirect => (hstored.listing_before hdirect).1,
    fun hthere => ?_, fun hthere => ?_⟩
  · have hplace := hstored.place_eq
    rw [if_pos hthere] at hplace
    rw [hrest _ (hplace ▸ hstored.notSource)]
    exact hstored.find?_of_directory hthere
  · rw [hrest _ (hstored.place_own hthere ▸ hstored.notSource)]
    exact hstored.find?_own hthere hkeyed

/-! ## A clock that is set back -/

/-- One backup is kept in a directory of its own. -/
def keepOne : Backups := ⟨⟨.relative, ["kept"]⟩, 1⟩

/-- A line was removed from a file, and then the clock was set back by half an hour. -/
def setBack : Workspace :=
  let w := Workspace.ofFiles ["w"] [("a.py", "one\ntwo\n")]
  { ((apply keepOne (Path.ofText "a.py") (.removeLine 1)).runOn w).2 with
    clock := { w.clock with minute := 0, isTime := by decide } }

theorem backup_survives_iff_setBack : ∃ patch v,
    setBack.tree.WellFormed ∧ setBack.tree.IsKeyed ∧
    setBack.tree.find? setBack.cwd = some .directory ∧
    (apply keepOne (Path.ofText "a.py") (.removeLine 1)).runOn setBack = (.ok patch, v) ∧
    patch.outcome = .applied ∧
    ∃ bytes w₀ dir s, s = Backups.fileName (Path.ofText "a.py").name setBack.clock ∧
      setBack.content (Path.ofText "a.py") = .ok bytes ∧
      (ensureDirectories keepOne.directory).runOn setBack = (.ok (), w₀) ∧
      w₀.locate keepOne.directory = .ok dir ∧
      ((keepOne.directory.IsDirect setBack.cwd ∨ ∃ q, setBack.locate keepOne.directory = .ok q ∧
          setBack.tree.find? q = some .directory) →
        w₀.tree.names dir = setBack.tree.names dir) ∧
      (w₀.tree.find? (dir ++ [s]) = some .directory →
        v.tree.find? (dir ++ [s] ++ [(Path.ofText "a.py").name]) = some (.file bytes)) ∧
      (w₀.tree.find? (dir ++ [s]) ≠ some .directory → v.tree.find? (dir ++ [s]) =
        if keepOne.kept ≤ Backups.countLater w₀.tree dir (Path.ofText "a.py").name s then none
        else some (.file bytes)) := by
  have hw : setBack.tree.WellFormed := Tree.wellFormed_of_plain (by decide +kernel)
  have hkeyed : setBack.tree.IsKeyed := by decide +kernel
  have hcwd : setBack.tree.find? setBack.cwd = some .directory := by decide +kernel
  have happlied : ∃ patch, ((apply keepOne (Path.ofText "a.py") (.removeLine 1)).runOn
      setBack).1 = .ok patch ∧ patch.outcome = .applied := by
    decide +kernel
  rcases hrun : (apply keepOne (Path.ofText "a.py") (.removeLine 1)).runOn setBack with ⟨r, v⟩
  rw [hrun] at happlied
  obtain ⟨patch, rfl, happlied⟩ := happlied
  exact ⟨patch, v, hw, hkeyed, hcwd, rfl, happlied,
    backup_survives_iff _ _ _ _ _ _ hw hkeyed hcwd hrun happlied⟩

/-- The edit is applied, and what the file held before is nowhere in the directory of backups. -/
theorem apply_prunes_own_backup :
    ∃ patch, ((apply keepOne (Path.ofText "a.py") (.removeLine 1)).runOn setBack).1 = .ok patch ∧
      patch.outcome = .applied ∧ setBack.textAt (Path.ofText "a.py") = "two\n" ∧
      ((apply keepOne (Path.ofText "a.py") (.removeLine 1)).runOn setBack).2.tree.children
          ["w", "kept"] =
        [(("a.py.backup-20251218-143045-000000" : Text), Node.file (bytesOf "one\ntwo\n"))] := by
  decide +kernel

end Patch

end TodoLedger
