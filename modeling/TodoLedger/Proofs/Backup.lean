import TodoLedger.Proofs.Text.Search
import TodoLedger.Proofs.Sorted
import TodoLedger.Proofs.Workspace.Faults
import TodoLedger.Proofs.Workspace.Write
/-!
# What a backup touches

Taking a backup of a file writes and deletes files below the directory of backups only. Their names
start with the stem of the file's name, so that none of them leads out of the directory.
-/

namespace TodoLedger.Backups

open Work Workspace

/-- The place is that of the backups or lies below it. -/
def Covers (b : Backups) (cwd place : Place) : Prop := b.directory.resolve cwd <+: place

instance (b : Backups) (cwd place : Place) : Decidable (b.Covers cwd place) :=
  inferInstanceAs (Decidable (_ <+: _))

/-- The place is that of a backup of the name or lies below it. -/
def Holds (b : Backups) (name : Text) (cwd place : Place) : Prop :=
  ∃ s, stem name <+: s ∧ b.directory.resolve cwd ++ [s] <+: place

variable {b : Backups} {name : Text} {w : Workspace}

theorem Holds.covers {cwd place : Place} (h : b.Holds name cwd place) : b.Covers cwd place := by
  obtain ⟨s, -, hplace⟩ := h
  exact (List.prefix_append _ _).trans hplace

theorem stem_length (name : Text) : name.length + 8 = (stem name).length := by
  rw [stem, List.length_append]
  rfl

theorem isSegment_stem (h : Rune.ofChar '/' ∉ name) : Path.IsSegment (stem name) where
  ne_nil := by
    intro hnil
    have hlength := stem_length name
    rw [hnil] at hlength
    simp at hlength
  ne_dot := by
    intro hdot
    have hlength := stem_length name
    rw [hdot] at hlength
    have : dot.length = 1 := rfl
    omega
  noSlash := by
    rw [stem, List.mem_append, not_or]
    exact ⟨h, by decide⟩

theorem ne_dotDot_of_stem {s : Text} (h : stem name <+: s) : s ≠ dotDot := by
  rintro rfl
  have hlength := h.length_le
  rw [← stem_length] at hlength
  have : dotDot.length = 2 := rfl
  omega

theorem holds_child {cwd : Place} {s : Text} (h : stem name <+: s) :
    b.Holds name cwd ((b.directory.child s).resolve cwd) := by
  rw [Path.resolve_child (ne_dotDot_of_stem h)]
  exact ⟨s, h, List.prefix_refl _⟩

theorem holds_child_child {cwd : Place} {s r : Text} (hs : stem name <+: s) (hr : r ≠ dotDot) :
    b.Holds name cwd (((b.directory.child s).child r).resolve cwd) := by
  rw [Path.resolve_child hr, Path.resolve_child (ne_dotDot_of_stem hs)]
  exact ⟨s, hs, List.prefix_append _ _⟩

/-- The backups of a name are looked up without a change. -/
theorem existing_spec (hname : Rune.ofChar '/' ∉ name) :
    ((b.existing name).runOn w).2 = w ∧
      ∀ paths, ((b.existing name).runOn w).1 = .ok paths →
        ∀ p ∈ paths, ∃ s, p = b.directory.child s ∧ stem name <+: s := by
  have hpattern := Path.ofText_segment (isSegment_stem hname)
  have hdirectory : b.directory.join (Path.parent ⟨.relative, [stem name]⟩) = b.directory := by
    simp [Path.parent, Path.join]
  rw [existing, hpattern]
  simp only [ne_eq, not_true_eq_false, if_false, hdirectory]
  rw [runOn_bind, runOn_isDirectory]
  rcases hnode : w.node? b.directory with fault | node
  · exact ⟨rfl, by simp [Except.map]⟩
  · simp only [Except.map]
    split_ifs
    · rw [runOn_bind_of_ok runOn_get, runOn_bind, runOn_ask]
      cases hplace : w.locate b.directory with
      | error fault => exact ⟨rfl, by simp⟩
      | ok place =>
          refine ⟨rfl, fun paths hpaths p hp => ?_⟩
          simp only [runOn_pure, Except.ok.injEq] at hpaths
          subst hpaths
          obtain ⟨s, hs, rfl⟩ := List.mem_map.mp hp
          rw [descending, mem_sorted, List.mem_filter] at hs
          exact ⟨s, rfl, Text.startsWith_iff.mp hs.2⟩
    · exact ⟨rfl, by simp⟩

theorem frame_deleteAll {touched : Place → Prop} {paths : List Path}
    (h : ∀ p ∈ paths, touched (p.resolve w.cwd)) :
    Frame touched w ((deleteAll paths).runOn w).2 := by
  induction paths generalizing w with
  | nil => exact .refl w
  | cons p ps ih =>
      obtain ⟨hp, hps⟩ := List.forall_mem_cons.mp h
      refine moves_bind ?_ fun _ w₁ _ hfirst => ih (by rw [hfirst.cwd]; exact hps)
      refine moves_tryCatch (frame_deleteFile hp) fun fault w₁ _ _ => ?_
      split
      · exact frame_report _
      · exact .refl w₁

/-- The backups of a name that are not kept. -/
def old (b : Backups) (name : Text) : Work (List Path) := do
  try (do return (← b.existing name).drop b.kept)
  catch fault => match fault with
    | .file _ =>
      report (.pruneFailed name fault.message)
      pure []
    | _ => throw fault

theorem prune_eq (b : Backups) (name : Text) : b.prune name = b.old name >>= deleteAll := rfl

/-- Old backups are looked up without a change, and they bear the stem of the name. -/
theorem old_spec {touched : Place → Prop} (hname : Rune.ofChar '/' ∉ name) :
    Frame touched w ((b.old name).runOn w).2 ∧
      ∀ paths, ((b.old name).runOn w).1 = .ok paths →
        ∀ p ∈ paths, ∃ s, p = b.directory.child s ∧ stem name <+: s := by
  obtain ⟨hunchanged, hpaths⟩ := existing_spec (b := b) (w := w) hname
  constructor
  · refine moves_tryCatch (moves_bind (moves_of_unchanged hunchanged) fun paths w₁ _ _ => .refl w₁)
      fun fault w₁ _ _ => ?_
    split
    · exact moves_bind (frame_report _) fun _ w₂ _ _ => .refl w₂
    · exact .refl w₁
  · intro paths hrun p hp
    rw [old, runOn_tryCatch, runOn_bind] at hrun
    rcases hexisting : (b.existing name).runOn w with ⟨fault | all, w₁⟩
    · rw [hexisting] at hrun
      simp only at hrun
      split at hrun
      · rw [runOn_bind_of_ok (runOn_report _), runOn_pure] at hrun
        obtain rfl := Except.ok.inj hrun
        cases hp
      · cases hrun
    · rw [hexisting] at hrun hpaths
      simp only [runOn_pure, Except.ok.injEq] at hrun
      rw [← hrun] at hp
      exact hpaths all rfl p (List.mem_of_mem_drop hp)

/-- Pruning touches nothing but files in the directory whose names start with the stem. -/
theorem frame_prune {touched : Place → Prop} (hname : Rune.ofChar '/' ∉ name)
    (htouched : ∀ s, stem name <+: s → touched ((b.directory.child s).resolve w.cwd)) :
    Frame touched w ((b.prune name).runOn w).2 := by
  obtain ⟨hframe, hpaths⟩ := @old_spec b name w touched hname
  rw [prune_eq]
  refine moves_bind hframe fun paths w₁ hrun hfirst => frame_deleteAll fun p hp => ?_
  rw [hrun] at hpaths
  obtain ⟨s, rfl, hs⟩ := hpaths paths rfl p hp
  rw [hfirst.cwd]
  exact htouched s hs

theorem ne_resolve_of_stem {cwd : Place} {source : Path} {s : Text} (hsource : source.IsNamed)
    (hs : stem source.name <+: s) :
    (b.directory.child s).resolve cwd ≠ source.resolve cwd := by
  obtain ⟨parent, name, rfl, hname⟩ := hsource
  have hown : (Path.child parent name).name = name := by simp [Path.name, Path.child]
  rw [hown] at hs
  rw [Path.resolve_child (ne_dotDot_of_stem hs), Path.resolve_child hname.ne_dotDot]
  intro hsame
  obtain rfl : s = name := by simpa using (List.append_inj' hsame rfl).2
  have hlength := hs.length_le
  rw [← stem_length] at hlength
  omega

/-- A copy fails and changes nothing, or the bytes are put at the target, or in it if that is a
directory, and not where the file stands that is copied. -/
theorem copy_cases (source target : Path) (w : Workspace) :
    (∃ fault, (copy source target).runOn w = (.error fault, w)) ∨
      ∃ bytes place, w.content source = .ok bytes ∧
        w.locate (if w.node? target = .ok (some .directory) then target.child source.name
          else target) = .ok place ∧
        w.tree.find? place ≠ some .directory ∧ w.locate source ≠ .ok place ∧
        (copy source target).runOn w =
          (.ok (), { w with tree := w.tree.put place (.file bytes) }) := by
  rw [copy, runOn_bind, runOn_isDirectory]
  cases w.node? target with
  | error fault => exact Or.inl ⟨fault, rfl⟩
  | ok node =>
      simp only [Except.map, decide_eq_true_eq, Except.ok.injEq]
      generalize (if node = some .directory then target.child source.name else target) = onto
      rw [runOn_bind_of_ok runOn_get]
      by_cases hsame : w.areSame source onto = true
      · rw [if_pos hsame]
        exact Or.inl ⟨_, rfl⟩
      rw [if_neg hsame, runOn_bind, runOn_readBytes]
      cases hcontent : w.content source with
      | error fault => exact Or.inl ⟨fault, rfl⟩
      | ok bytes =>
          simp only [runOn_writeBytes]
          cases hwrite : w.withContent onto bytes with
          | error fault => exact Or.inl ⟨fault, rfl⟩
          | ok v =>
              obtain ⟨place, hlocate, hnot, -, rfl⟩ := withContent_eq_ok_iff.mp hwrite
              refine Or.inr ⟨bytes, place, rfl, hlocate, hnot, fun hown => hsame ?_, rfl⟩
              obtain ⟨own, hown', hfile⟩ := content_eq_ok_iff.mp hcontent
              obtain rfl := Except.ok.inj (hown.symm.trans hown')
              exact areSame_eq_true_iff.mpr ⟨place, hown, hlocate, by rw [hfile]; simp⟩

/-- A copy touches its target only, and that is not what is copied. -/
theorem frame_copy {touched : Place → Prop} {source target : Path}
    (htarget : touched (target.resolve w.cwd))
    (hchild : touched ((target.child source.name).resolve w.cwd)) :
    Frame (fun q => touched q ∧ q ≠ source.resolve w.cwd) w ((copy source target).runOn w).2 := by
  rcases copy_cases source target w with ⟨fault, hrun⟩ | ⟨bytes, place, hcontent, hplace, hnot, hne, hrun⟩
  · rw [hrun]
    exact .refl w
  rw [hrun]
  refine .put_file ⟨?_, ?_⟩ hnot rfl rfl (List.prefix_refl _)
  · rw [eq_resolve_of_locate hplace]
    split_ifs
    · exact hchild
    · exact htarget
  · obtain ⟨own, hown, -⟩ := content_eq_ok_iff.mp hcontent
    rw [← eq_resolve_of_locate hown]
    rintro rfl
    exact hne hown

/-- A backup touches nothing but backups of the name, and not the file itself. -/
theorem frame_create {source : Path} (hsource : source.IsNamed) :
    Frame (fun q => b.Holds source.name w.cwd q ∧ q ≠ source.resolve w.cwd) w
      ((b.create source).runOn w).2 := by
  have hbackup : ∀ moment, stem source.name <+: stem source.name ++ stampOf moment :=
    fun moment => List.prefix_append _ _
  rw [create]
  refine moves_bind (frame_ensureDirectories b.directory w) fun _ w₁ _ h₁ => ?_
  refine moves_bind frame_now fun moment w₂ _ h₂ => ?_
  have hcwd₂ : w₂.cwd = w.cwd := h₂.cwd.trans h₁.cwd
  refine moves_bind ?_ fun _ w₃ _ h₃ => ?_
  · rw [← hcwd₂]
    exact frame_copy (holds_child (hbackup moment))
      (holds_child_child (hbackup moment) hsource.isName.ne_dotDot)
  refine moves_bind (frame_report _) fun _ w₄ _ h₄ => ?_
  have hcwd₄ : w₄.cwd = w.cwd := (h₄.cwd.trans h₃.cwd).trans hcwd₂
  refine moves_bind ?_ fun _ w₅ _ _ => .refl w₅
  rw [← hcwd₄]
  exact frame_prune hsource.isName.noSlash fun s hs => ⟨holds_child hs, ne_resolve_of_stem hsource hs⟩

/-- What is backed up keeps its content, whether the backup succeeds or not. -/
theorem content_of_create {source : Path} {bytes : Bytes} (hsource : source.IsNamed)
    (h : w.content source = .ok bytes) :
    ((b.create source).runOn w).2.content source = .ok bytes :=
  (frame_create hsource).content h fun htouched => htouched.2 rfl

/-! ## How a backup fails -/

section Fails

variable {P : Fault → Prop} (hfiles : ∀ f, Fault.IsOfFiles f → P f)

include hfiles

private theorem failsIn_existing (hanchored : Rune.ofChar '/' ∈ name → P .anchoredPattern) :
    FailsIn P (b.existing name) w := by
  have hadmits := Fault.Admits.of_isOfFiles hfiles
  rw [existing]
  split_ifs with hanchor
  · refine failsIn_bind (failsIn_throw (hanchored ?_)) fun _ _ h => by cases h
    by_contra hname
    rw [Path.ofText_segment (isSegment_stem hname)] at hanchor
    exact hanchor rfl
  · refine failsIn_bind (failsIn_isDirectory (hadmits _)) fun there w₁ _ => ?_
    split_ifs
    · refine failsIn_bind (failsIn_of_ok runOn_get) fun v w₂ _ => ?_
      exact failsIn_bind (failsIn_locate (hadmits _)) fun _ _ _ => failsIn_pure _
    · exact failsIn_pure _

private theorem failsIn_deleteAll (paths : List Path) (w : Workspace) :
    FailsIn P (deleteAll paths) w := by
  induction paths generalizing w with
  | nil => exact failsIn_pure ()
  | cons p ps ih =>
      refine failsIn_bind ?_ fun _ w₁ _ => ih w₁
      refine failsIn_tryCatch (failsIn_deleteFile (.of_isOfFiles hfiles p)) fun fault w₁ _ hfault => ?_
      split
      · exact failsIn_of_ok (runOn_report _)
      · exact failsIn_throw hfault

private theorem failsIn_copyOnto (v : Workspace) (source target : Path) (w : Workspace) :
    FailsIn P (if v.areSame source target then
      throw (.file ⟨.sameFile source, target⟩) else do writeBytes target (← readBytes source)) w := by
  have hadmits := Fault.Admits.of_isOfFiles hfiles
  split_ifs
  · exact failsIn_throw (hfiles _ (.file _))
  · exact failsIn_bind (failsIn_readBytes (hadmits _)) fun bytes w₁ _ =>
      failsIn_writeBytes (hadmits _) bytes

/-- A backup fails only where an operation on files fails, or where the name is not one of a file. -/
theorem failsIn_create_of {source : Path}
    (hanchored : Rune.ofChar '/' ∈ source.name → P .anchoredPattern) :
    FailsIn P (b.create source) w := by
  have hadmits := Fault.Admits.of_isOfFiles hfiles
  rw [create]
  refine failsIn_bind (failsIn_ensureDirectories (hadmits _)) fun _ w₁ _ => ?_
  refine failsIn_bind (failsIn_of_ok runOn_now) fun moment w₂ _ => ?_
  refine failsIn_bind ?_ fun _ w₃ _ => ?_
  · refine failsIn_bind (failsIn_isDirectory (hadmits _)) fun there w₃ _ => ?_
    exact failsIn_bind (failsIn_of_ok runOn_get) fun v w₄ _ => failsIn_copyOnto hfiles v source _ w₄
  refine failsIn_bind (failsIn_of_ok (runOn_report _)) fun _ w₄ _ => ?_
  refine failsIn_bind ?_ fun _ w₅ _ => failsIn_pure _
  refine failsIn_bind ?_ fun old w₅ _ => failsIn_deleteAll hfiles old w₅
  refine failsIn_tryCatch ?_ fun fault w₅ _ hfault => ?_
  · exact failsIn_bind (failsIn_existing hfiles hanchored) fun _ _ _ => failsIn_pure _
  · split
    · exact failsIn_bind (failsIn_of_ok (runOn_report _)) fun _ _ _ => failsIn_pure _
    · exact failsIn_throw hfault

end Fails

/-- A backup fails only where an operation on files fails. -/
theorem failsIn_create {source : Path} (hslash : Rune.ofChar '/' ∉ source.name) :
    FailsIn Fault.IsOfFiles (b.create source) w :=
  failsIn_create_of (fun _ hfault => hfault) fun hmem => absurd hmem hslash

end TodoLedger.Backups
