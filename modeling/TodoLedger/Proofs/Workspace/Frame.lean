import TodoLedger.Backup
import TodoLedger.Proofs.Path
import TodoLedger.Proofs.Workspace.Run
import TodoLedger.Proofs.Workspace.Tree
/-!
# What operations leave alone

`Frame touched` relates two states of a workspace: files differ at touched places only, every
directory is still there, and events were only added. Each operation has its frame, whether it fails
or not; a backup touches nothing outside its directory.
-/

namespace TodoLedger

/-- Files have changed at touched places only, no directory is gone, and events were only added. -/
structure Workspace.Frame (touched : Place → Prop) (w w' : Workspace) : Prop where
  cwd : w'.cwd = w.cwd
  files : ∀ place bytes, ¬touched place →
    (w'.tree.find? place = some (.file bytes) ↔ w.tree.find? place = some (.file bytes))
  directories : Tree.KeepsDirectories w.tree w'.tree
  events : w.events <+: w'.events

namespace Workspace.Frame

variable {touched touched' : Place → Prop} {w w' w₁ w₂ : Workspace} {p : Path} {place : Place}
  {bytes : Bytes}

theorem refl (w : Workspace) : Frame touched w w :=
  ⟨rfl, fun _ _ _ => Iff.rfl, fun _ h => h, List.prefix_refl _⟩

theorem trans (h₁ : Frame touched w w₁) (h₂ : Frame touched w₁ w₂) : Frame touched w w₂ where
  cwd := h₂.cwd.trans h₁.cwd
  files := fun place bytes h => (h₂.files place bytes h).trans (h₁.files place bytes h)
  directories := fun place h => h₂.directories place (h₁.directories place h)
  events := h₁.events.trans h₂.events

instance : IsPreorder Workspace (Frame touched) where
  refl := refl
  trans := fun _ _ _ => trans

theorem mono (h : Frame touched w w') (hsub : ∀ place, touched place → touched' place) :
    Frame touched' w w' :=
  { h with files := fun place bytes hplace => h.files place bytes fun ht => hplace (hsub place ht) }

/-- Where the tree is the same and events are added nothing is touched. -/
theorem of_tree_eq (hcwd : w'.cwd = w.cwd) (htree : w'.tree = w.tree)
    (hevents : w.events <+: w'.events) : Frame touched w w' :=
  ⟨hcwd, fun _ _ _ => by rw [htree], fun _ h => by rw [htree]; exact h, hevents⟩

theorem put_file (hplace : touched place) (hnot : w.tree.find? place ≠ some .directory)
    (htree : w'.tree = w.tree.put place (.file bytes)) (hcwd : w'.cwd = w.cwd)
    (hevents : w.events <+: w'.events) : Frame touched w w' := by
  have hne := Tree.ne_nil_of_not_directory hnot
  refine ⟨hcwd, fun q content hq => ?_, fun q hq => ?_, hevents⟩
  · have hqp : q ≠ place := by
      rintro rfl
      exact hq hplace
    rw [htree, Tree.find?_put hne, if_neg hqp]
  · have hqp : q ≠ place := by
      rintro rfl
      exact hnot hq
    rw [htree, Tree.find?_put hne, if_neg hqp]
    exact hq

theorem put_directory (hnone : w.tree.find? place = none)
    (htree : w'.tree = w.tree.put place .directory) (hcwd : w'.cwd = w.cwd)
    (hevents : w.events <+: w'.events) : Frame touched w w' := by
  have hne : place ≠ [] := by
    rintro rfl
    cases hnone
  refine ⟨hcwd, fun q content _ => ?_, fun q hq => ?_, hevents⟩
  · rw [htree, Tree.find?_put hne]
    by_cases hqp : q = place
    · simp [hqp, hnone]
    · rw [if_neg hqp]
  · rw [htree, Tree.find?_put hne]
    split_ifs
    · rfl
    · exact hq

theorem remove_file (hplace : touched place) (hfile : w.tree.find? place = some (.file bytes))
    (htree : w'.tree = w.tree.remove place) (hcwd : w'.cwd = w.cwd)
    (hevents : w.events <+: w'.events) : Frame touched w w' := by
  have hne : place ≠ [] := by
    rintro rfl
    cases hfile
  refine ⟨hcwd, fun q content hq => ?_, fun q hq => ?_, hevents⟩
  · have hqp : q ≠ place := by
      rintro rfl
      exact hq hplace
    rw [htree, Tree.find?_remove hne, if_neg hqp]
  · have hqp : q ≠ place := by
      rintro rfl
      rw [hfile] at hq
      cases hq
    rw [htree, Tree.find?_remove hne, if_neg hqp]
    exact hq

/-! ## Paths along a frame -/

theorem locate (h : Frame touched w w') (hp : w.locate p = .ok place) :
    w'.locate p = .ok place := locate_of_keepsDirectories h.cwd h.directories hp

theorem content (h : Frame touched w w') (hp : w.content p = .ok bytes)
    (hplace : ¬touched (p.resolve w.cwd)) : w'.content p = .ok bytes := by
  obtain ⟨place, hlocate, hfile⟩ := content_eq_ok_iff.mp hp
  refine content_eq_ok_iff.mpr ⟨place, h.locate hlocate, ?_⟩
  rw [eq_resolve_of_locate hlocate] at hfile ⊢
  exact (h.files _ _ hplace).mpr hfile

end Workspace.Frame

namespace Work

open Workspace

variable {touched : Place → Prop} {w : Workspace} {p : Path} {bytes : Bytes} {t : Text}

theorem frame_report (e : Event) : Frame touched w ((report e).runOn w).2 :=
  .of_tree_eq rfl rfl (List.prefix_append _ _)

theorem frame_now : Frame touched w (now.runOn w).2 :=
  .of_tree_eq rfl rfl (List.prefix_refl _)

theorem frame_change {f : Workspace → Except Fault Workspace}
    (h : ∀ w', f w = .ok w' → Frame touched w w') : Frame touched w ((change f).runOn w).2 := by
  rw [runOn_change]
  cases hf : f w with
  | error fault => exact .refl w
  | ok w' => exact h w' hf

theorem frame_writeBytes (h : touched (p.resolve w.cwd)) :
    Frame touched w ((writeBytes p bytes).runOn w).2 := by
  refine frame_change fun w' hw' => ?_
  obtain ⟨place, hlocate, hnot, -, rfl⟩ := withContent_eq_ok_iff.mp hw'
  rw [eq_resolve_of_locate hlocate] at hnot ⊢
  exact .put_file h hnot rfl rfl (List.prefix_refl _)

theorem frame_writeText (h : touched (p.resolve w.cwd)) :
    Frame touched w ((writeText p t).runOn w).2 := by
  refine moves_bind (frame_writeBytes h) fun _ w₁ _ hfirst => ?_
  split
  · exact frame_writeBytes (by rw [hfirst.cwd]; exact h)
  · exact .refl w₁

theorem frame_deleteFile (h : touched (p.resolve w.cwd)) :
    Frame touched w ((deleteFile p).runOn w).2 := by
  refine frame_change fun w' hw' => ?_
  obtain ⟨place, content, hlocate, hfile, rfl⟩ := withoutFile_eq_ok_iff.mp hw'
  rw [eq_resolve_of_locate hlocate] at hfile ⊢
  exact .remove_file h hfile rfl rfl (List.prefix_refl _)

theorem isDirectory_unchanged (p : Path) (w : Workspace) : ((isDirectory p).runOn w).2 = w := by
  rw [runOn_isDirectory]

theorem isFile_unchanged (p : Path) (w : Workspace) : ((isFile p).runOn w).2 = w := by
  rw [runOn_isFile]

theorem frame_ensureDirectory (p : Path) (w : Workspace) :
    Frame touched w ((ensureDirectory p).runOn w).2 := by
  refine moves_tryCatch (frame_change fun w' hw' => ?_) fun fault w₁ _ _ => ?_
  · obtain ⟨place, -, hnone, rfl⟩ := withDirectory_eq_ok_iff.mp hw'
    exact .put_directory hnone rfl rfl (List.prefix_refl _)
  · split
    · exact .refl w₁
    · refine moves_bind (moves_of_unchanged (isDirectory_unchanged p w₁)) fun there w₂ _ _ => ?_
      split
      · exact .refl w₂
      · exact .refl w₂
    · exact .refl w₁

theorem frame_ensureDirectories (p : Path) (w : Workspace) :
    Frame touched w ((ensureDirectories p).runOn w).2 := by
  induction hn : p.segments.length generalizing p w with
  | zero =>
      have hnil : p.segments = [] := List.length_eq_zero_iff.mp hn
      rw [ensureDirectories]
      refine moves_tryCatch (frame_ensureDirectory p w) fun fault w₁ _ _ => ?_
      split
      · rw [dif_pos hnil]
        exact .refl w₁
      · exact .refl w₁
  | succ n ih =>
      rw [ensureDirectories]
      refine moves_tryCatch (frame_ensureDirectory p w) fun fault w₁ _ _ => ?_
      split
      · split_ifs
        · exact .refl w₁
        · have hparent : p.parent.segments.length = n := by simp [Path.parent, hn]
          exact moves_bind (ih p.parent w₁ hparent) fun _ w₂ _ _ => frame_ensureDirectory p w₂
      · exact .refl w₁

end Work

end TodoLedger
