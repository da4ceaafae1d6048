import TodoLedger.Proofs.Workspace.Frame
import TodoLedger.Proofs.Workspace.WellFormed
/-!
# Making directories

Where no file stands in the way, the directories above a file can be made as far as they are missing.
Nothing stands anywhere then that was not there before, but for the directories that were made.
-/

namespace TodoLedger

/-- The directory that the segments of a path start from. -/
def Path.origin (cwd : Place) (p : Path) : Place := if p.anchor = .relative then cwd else []

namespace Tree

variable {t : Tree} {place segments : Place}

/-- The way from a place through the segments starts in a directory and meets no file, and the system
can give all names on it. -/
structure IsClear (t : Tree) (place segments : Place) : Prop where
  start : t.find? place = some .directory
  names : ∀ s ∈ segments, Path.IsFileName s
  noFile : ∀ s, s <+: segments → ∀ bytes, t.find? (place ++ s) ≠ some (.file bytes)

theorem IsClear.init {name : Text} (h : t.IsClear place (segments ++ [name])) :
    t.IsClear place segments where
  start := h.start
  names := fun s hs => h.names s (List.mem_append_left _ hs)
  noFile := fun s hs => h.noFile s (hs.trans (List.prefix_append _ _))

/-- A clear way can be walked, or something is missing on it. -/
theorem IsClear.walk_cases (h : t.IsClear place segments) :
    t.walk place segments = .ok (place ++ segments) ∨ t.walk place segments = .error .notFound := by
  induction segments using List.reverseRecOn with
  | nil => exact Or.inl (by rw [walk, List.append_nil])
  | append_singleton segments name ih =>
      have hname := h.names name (by simp)
      rcases ih h.init with hwalk | hwalk
      · rw [walk_append, hwalk]
        simp only [Except.bind, walk]
        cases hfind : t.find? (place ++ segments) with
        | none => exact Or.inr rfl
        | some node =>
            left
            cases node with
            | file bytes => exact absurd hfind (h.noFile _ (List.prefix_append _ _) bytes)
            | directory =>
                simp only [hname.ne_dotDot, if_false, Nat.not_lt.mpr hname.short,
                  List.append_assoc]
      · rw [walk_append, hwalk]
        exact Or.inr rfl

end Tree

namespace Workspace

variable {w w' : Workspace} {p : Path} {place : Place}

theorem locate_of_names (hnames : ∀ s ∈ p.segments, Path.IsFileName s) : w.locate p =
    match w.tree.walk (p.origin w.cwd) p.segments with
    | .ok place => .ok place
    | .error cause => .error (.file ⟨cause, p⟩) := by
  have hnull : p.text.contains (Rune.ofNat 0) = false := by
    rw [List.contains_eq_mem, decide_eq_false_iff_not]
    exact Path.noNull_text hnames
  rw [locate, (Path.isStable_text hnames).encode, hnull]
  rfl

/-- The path leads to a directory. -/
structure HasDirectory (w : Workspace) (p : Path) : Prop where
  locate : w.locate p = .ok (p.origin w.cwd ++ p.segments)
  directory : w.tree.find? (p.origin w.cwd ++ p.segments) = some .directory

/-- A name in a directory is found. -/
theorem HasDirectory.locate_child {name : Text} (h : w.HasDirectory p)
    (hnames : ∀ s ∈ (p.child name).segments, Path.IsFileName s) :
    w.locate (p.child name) = .ok (p.origin w.cwd ++ (p.child name).segments) := by
  have hname := hnames name (by simp [Path.child])
  have hwalk : w.tree.walk (p.origin w.cwd) (p.child name).segments =
      .ok (p.origin w.cwd ++ p.segments ++ [name]) :=
    Tree.walk_append_name (locate_eq_ok_iff.mp h.locate).2.2 h.directory hname.ne_dotDot hname.short
  have horigin : (p.child name).origin w.cwd = p.origin w.cwd := rfl
  rw [locate_of_names hnames, horigin, hwalk, List.append_assoc]
  rfl

/-- What is clear stays clear when no file is touched. -/
theorem isClear_of_frame {segments : Place} (h : w.tree.IsClear place segments)
    (hframe : Frame (fun _ => False) w w') : w'.tree.IsClear place segments where
  start := hframe.directories _ h.start
  names := h.names
  noFile := fun s hs bytes hfile =>
    h.noFile s hs bytes ((hframe.files _ _ fun hnone => hnone).mp hfile)

end Workspace

namespace Work

open Workspace

variable {w w' : Workspace} {p : Path} {place : Place}

/-- A directory is made in a directory, unless it is there. -/
theorem runOn_ensureDirectory_of_locate (hlocate : w.locate p = .ok place)
    (hfile : ∀ bytes, w.tree.find? place ≠ some (.file bytes)) :
    ∃ w', (ensureDirectory p).runOn w = (.ok (), w') ∧ w'.tree.find? place = some .directory ∧
      ∀ q, q ≠ place → w'.tree.find? q = w.tree.find? q := by
  rw [ensureDirectory, runOn_tryCatch, runOn_change]
  cases hfind : w.tree.find? place with
  | none =>
      have hne : place ≠ [] := by
        rintro rfl
        cases hfind
      rw [withDirectory_eq_ok_iff.mpr ⟨place, hlocate, hfind, rfl⟩]
      refine ⟨_, rfl, ?_, fun q hq => ?_⟩
      · rw [Tree.find?_put hne, if_pos rfl]
      · rw [Tree.find?_put hne, if_neg hq]
  | some node =>
      cases node with
      | file bytes => exact absurd hfind (hfile bytes)
      | directory =>
          have hthere : w.withDirectory p = .error (.file ⟨.alreadyExists, p⟩) := by
            simp [withDirectory, hlocate, hfind, bind, Except.bind]
          have hnode : (isDirectory p).runOn w = (.ok true, w) := by
            simp [runOn_isDirectory, Workspace.node?, hlocate, hfind, Except.map]
          rw [hthere]
          simp only
          rw [runOn_bind_of_ok hnode]
          exact ⟨w, rfl, hfind, fun _ _ => rfl⟩

theorem runOn_ensureDirectory_of_notFound
    (h : w.locate p = .error (.file ⟨.notFound, p⟩)) :
    (ensureDirectory p).runOn w = (.error (.file ⟨.notFound, p⟩), w) := by
  have hwith : w.withDirectory p = .error (.file ⟨.notFound, p⟩) := by
    rw [withDirectory, h]
    rfl
  rw [ensureDirectory, runOn_tryCatch, runOn_change, hwith]
  rfl

private theorem opens_of_locate (hlocate : w.locate p = .ok (p.origin w.cwd ++ p.segments))
    (hclear : w.tree.IsClear (p.origin w.cwd) p.segments) :
    ∃ w', (ensureDirectory p).runOn w = (.ok (), w') ∧ w'.HasDirectory p ∧
      ∀ q, ¬q <+: p.origin w.cwd ++ p.segments → w'.tree.find? q = w.tree.find? q := by
  obtain ⟨w', hrun, hdirectory, hkept⟩ :=
    runOn_ensureDirectory_of_locate hlocate (hclear.noFile _ (List.prefix_refl _))
  have hframe := @frame_ensureDirectory (fun _ => False) p w
  rw [hrun] at hframe
  refine ⟨w', hrun, ⟨?_, ?_⟩, fun q hq => hkept q ?_⟩
  · rw [hframe.cwd]
    exact hframe.locate hlocate
  · rw [hframe.cwd]
    exact hdirectory
  · rintro rfl
    exact hq (List.prefix_refl _)

/-- On a clear way all directories that are missing are made. The induction is on the segments: the
directories of the parent are made when the way ends before it. -/
theorem runOn_ensureDirectories (h : w.tree.IsClear (p.origin w.cwd) p.segments) :
    ∃ w', (ensureDirectories p).runOn w = (.ok (), w') ∧ w'.HasDirectory p ∧
      ∀ q, ¬q <+: p.origin w.cwd ++ p.segments → w'.tree.find? q = w.tree.find? q := by
  obtain ⟨anchor, segments⟩ := p
  induction segments using List.reverseRecOn generalizing w with
  | nil =>
      have hlocate : w.locate ⟨anchor, []⟩ = .ok (Path.origin w.cwd ⟨anchor, []⟩ ++ []) := by
        rw [locate_of_names h.names, List.append_nil]
        rfl
      obtain ⟨w', hrun, hopens⟩ := opens_of_locate hlocate h
      refine ⟨w', ?_, hopens⟩
      rw [ensureDirectories, runOn_tryCatch, hrun]
  | append_singleton segments name ih =>
      rw [ensureDirectories, runOn_tryCatch]
      rcases h.walk_cases with hwalk | hwalk
      · have hlocate : w.locate ⟨anchor, segments ++ [name]⟩ =
            .ok (Path.origin w.cwd ⟨anchor, segments ++ [name]⟩ ++ (segments ++ [name])) := by
          rw [locate_of_names h.names, hwalk]
        obtain ⟨w', hrun, hopens⟩ := opens_of_locate hlocate h
        refine ⟨w', ?_, hopens⟩
        rw [hrun]
      · have hmissing : w.locate ⟨anchor, segments ++ [name]⟩ =
            .error (.file ⟨.notFound, ⟨anchor, segments ++ [name]⟩⟩) := by
          rw [locate_of_names h.names, hwalk]
        obtain ⟨w₁, hparent, hthere, hkept₁⟩ := @ih w h.init
        have hframe := @frame_ensureDirectories (fun _ => False) ⟨anchor, segments⟩ w
        rw [hparent] at hframe
        have horigin : Path.origin w₁.cwd ⟨anchor, segments ++ [name]⟩ =
            Path.origin w.cwd ⟨anchor, segments ++ [name]⟩ := by
          rw [hframe.cwd]
        have hclear := isClear_of_frame h hframe
        rw [← horigin] at hclear ⊢
        obtain ⟨w', hrun, hopens, hkept⟩ := opens_of_locate (hthere.locate_child h.names) hclear
        have hup : Path.parent ⟨anchor, segments ++ [name]⟩ = ⟨anchor, segments⟩ := by
          simp [Path.parent]
        refine ⟨w', ?_, hopens, fun q hq => ?_⟩
        · rw [runOn_ensureDirectory_of_notFound hmissing]
          simp only
          rw [dif_neg (by simp), hup, runOn_bind_of_ok hparent]
          exact hrun
        · rw [hkept q hq, hkept₁ q fun hprefix => hq ?_]
          rw [horigin]
          exact hprefix.trans (List.prefix_append_right_inj _ |>.mpr (List.prefix_append _ _))

end Work

end TodoLedger
