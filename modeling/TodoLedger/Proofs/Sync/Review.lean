import TodoLedger.Sync
import TodoLedger.Proofs.Sorted
import TodoLedger.Proofs.Workspace.Tree
import Mathlib.Data.List.Nodup
/-!
# Which lines are accepted

Every accepted line is the target of one of the reviewed issues, in a file that is there, and no line
is accepted twice. `removals` takes the accepted lines of a file strictly from the bottom up.
-/

namespace TodoLedger

/-- The issue asks for the line of the target to be removed. -/
structure Target.IsOf (cwd : Place) (i : Issue) (t : Target) : Prop where
  file : Sync.fileOf cwd i = .ok t.path
  line : t.line = i.sourceLine?.getD 0

theorem Target.IsOf.unique {cwd : Place} {i : Issue} {s t : Target} (hs : s.IsOf cwd i)
    (ht : t.IsOf cwd i) : s = t := by
  obtain ⟨p, n⟩ := s
  obtain ⟨q, m⟩ := t
  obtain rfl : p = q := Except.ok.inj (hs.file.symm.trans ht.file)
  obtain rfl : n = m := hs.line.trans ht.line.symm
  rfl

namespace Review

variable {w : Workspace} {issues : List Issue} {r r' : Review} {i : Issue} {t : Target}

/-- What the decision on one issue makes of a review. -/
inductive Step (w : Workspace) (r : Review) (i : Issue) : Review → Prop
  | missing {path : Path} : Sync.fileOf w.cwd i = .ok path → (∀ bytes, w.content path ≠ .ok bytes) →
      Step w r i (r.note (.targetMissing path i.id)).skip
  | repeated {t : Target} {bytes : Bytes} : t.IsOf w.cwd i → w.content t.path = .ok bytes →
      t ∈ r.accepted → Step w r i (r.note (.targetRepeated t.path t.line i.id)).skip
  | accepted {t : Target} {bytes : Bytes} : t.IsOf w.cwd i → w.content t.path = .ok bytes →
      t ∉ r.accepted → r.acceptAll = true → Step w r i (r.accept t)
  | asked {t : Target} {bytes : Bytes} : t.IsOf w.cwd i → w.content t.path = .ok bytes →
      t ∉ r.accepted → r.acceptAll = false → Step w r i (r.question i t)

theorem step_of_eq_ok (h : r.step w i = .ok r') : Step w r i r' := by
  rw [Review.step] at h
  cases hfile : Sync.fileOf w.cwd i with
  | error fault => simp [hfile, bind, Except.bind] at h
  | ok path =>
      cases hnode : w.node? path with
      | error fault => simp [hfile, hnode, bind, Except.bind] at h
      | ok node =>
          simp only [hfile, hnode, bind, Except.bind] at h
          split at h
          · rename_i bytes
            have ht : Target.IsOf w.cwd i ⟨path, i.sourceLine?.getD 0⟩ := ⟨hfile, rfl⟩
            have hcontent := Workspace.node?_eq_file_iff.mp hnode
            split_ifs at h with hcontains hall
            · obtain rfl := Except.ok.inj h
              exact .repeated ht hcontent (by simpa using hcontains)
            · obtain rfl := Except.ok.inj h
              exact .accepted ht hcontent (by simpa using hcontains) hall
            · obtain rfl := Except.ok.inj h
              exact .asked ht hcontent (by simpa using hcontains) (by simpa using hall)
          · rename_i hnot
            obtain rfl := Except.ok.inj h
            refine .missing hfile fun bytes hcontent => hnot bytes ?_
            rw [Workspace.node?_eq_file_iff.mpr hcontent] at hnode
            exact (Except.ok.inj hnode).symm

/-- What holds of a review at every moment. -/
structure Sound (w : Workspace) (issues : List Issue) (r : Review) : Prop where
  nodup : r.accepted.Nodup
  accepted : ∀ t ∈ r.accepted, (∃ i ∈ issues, t.IsOf w.cwd i) ∧
    ∃ bytes, w.content t.path = .ok bytes

theorem Sound.start (w : Workspace) (issues : List Issue) (auto : Bool) (answers : List Choice) :
    Sound w issues (Review.start auto answers) := ⟨List.nodup_nil, by simp [Review.start]⟩

theorem Sound.of_accepted_eq (h : Sound w issues r) (heq : r'.accepted = r.accepted) :
    Sound w issues r' := ⟨heq ▸ h.nodup, heq ▸ h.accepted⟩

theorem Sound.accept {bytes : Bytes} (h : Sound w issues r) (hi : i ∈ issues)
    (ht : t.IsOf w.cwd i) (hfile : w.content t.path = .ok bytes) (hnew : t ∉ r.accepted) :
    Sound w issues (r.accept t) where
  nodup := by
    rw [Review.accept, List.nodup_append]
    refine ⟨h.nodup, List.nodup_singleton t, fun a ha b hb => ?_⟩
    rw [List.mem_singleton.mp hb]
    rintro rfl
    exact hnew ha
  accepted := by
    intro s hs
    rcases List.mem_append.mp hs with hs | hs
    · exact h.accepted s hs
    · rw [List.mem_singleton.mp hs]
      exact ⟨⟨i, hi, ht⟩, bytes, hfile⟩

theorem Sound.question {bytes : Bytes} (h : Sound w issues r) (hi : i ∈ issues)
    (ht : t.IsOf w.cwd i) (hfile : w.content t.path = .ok bytes) (hnew : t ∉ r.accepted) :
    Sound w issues (r.question i t) := by
  rw [Review.question]
  split
  · exact Sound.accept (h.of_accepted_eq rfl) hi ht hfile hnew
  · exact Sound.accept (h.of_accepted_eq rfl) hi ht hfile hnew
  · exact h.of_accepted_eq rfl

theorem Sound.step (h : Sound w issues r) (hi : i ∈ issues) (hstep : Step w r i r') :
    Sound w issues r' := by
  cases hstep with
  | missing _ _ => exact h.of_accepted_eq rfl
  | repeated _ _ _ => exact h.of_accepted_eq rfl
  | accepted ht hfile hnew _ => exact h.accept hi ht hfile hnew
  | asked ht hfile hnew _ => exact h.question hi ht hfile hnew

theorem Sound.run (h : Sound w issues r) {is : List Issue} (his : ∀ i ∈ is, i ∈ issues) :
    Sound w issues (r.run w is).1 := by
  induction is generalizing r with
  | nil => exact h
  | cons i is ih =>
      obtain ⟨hi, hrest⟩ := List.forall_mem_cons.mp his
      rw [Review.run]
      split
      · rename_i r' hstep
        exact ih (h.step hi (step_of_eq_ok hstep)) hrest
      · exact h

/-! ## Reviews without questions -/

private theorem step_of_acceptAll (hall : r.acceptAll = true) (hstep : Step w r i r') :
    r'.acceptAll = true ∧ r.accepted ⊆ r'.accepted ∧
      ∀ t bytes, t.IsOf w.cwd i → w.content t.path = .ok bytes → t ∈ r'.accepted := by
  cases hstep with
  | missing hfile hmissing =>
      refine ⟨hall, List.Subset.refl _, fun t bytes ht hcontent => ?_⟩
      obtain rfl := Except.ok.inj (hfile.symm.trans ht.file)
      exact absurd hcontent (hmissing bytes)
  | repeated hs _ hmem =>
      refine ⟨hall, List.Subset.refl _, fun t bytes ht _ => ?_⟩
      rw [ht.unique hs]
      exact hmem
  | accepted hs _ _ _ =>
      refine ⟨hall, List.subset_append_left _ _, fun t bytes ht _ => ?_⟩
      rw [ht.unique hs]
      exact List.mem_append_right _ (List.mem_singleton.mpr rfl)
  | asked _ _ _ hasked =>
      rw [hall] at hasked
      cases hasked

/-- Where no question is asked, every target in a file that is there is accepted. -/
theorem mem_accepted_of_run (hall : r.acceptAll = true) {is : List Issue}
    (hrun : r.run w is = (r', none)) : r.accepted ⊆ r'.accepted ∧
      ∀ i ∈ is, ∀ t bytes, t.IsOf w.cwd i → w.content t.path = .ok bytes → t ∈ r'.accepted := by
  induction is generalizing r with
  | nil =>
      rw [Review.run] at hrun
      cases hrun
      exact ⟨List.Subset.refl _, by simp⟩
  | cons i is ih =>
      rw [Review.run] at hrun
      split at hrun
      · rename_i r₁ hstep
        obtain ⟨hall₁, hsub, hnew⟩ := step_of_acceptAll hall (step_of_eq_ok hstep)
        obtain ⟨hsub₁, hrest⟩ := ih hall₁ hrun
        refine ⟨List.Subset.trans hsub hsub₁, List.forall_mem_cons.mpr ⟨?_, hrest⟩⟩
        exact fun t bytes ht hcontent => hsub₁ (hnew t bytes ht hcontent)
      · cases hrun

end Review

/-! ## Reviews that come to their end -/

namespace Sync

/-- The file of the issue has a path that the system can hold. -/
def HasPath (cwd : Place) (i : Issue) : Prop :=
  ∃ p, fileOf cwd i = .ok p ∧ ∀ s ∈ p.segments, Tree.nameBytes s ≤ Tree.maxNameBytes

variable {w : Workspace} {issues : List Issue}

private theorem exists_of_hasPath {i : Issue} (r : Review) (h : HasPath w.cwd i) :
    ∃ r', r.step w i = .ok r' := by
  obtain ⟨p, hfile, hshort⟩ := h
  obtain ⟨n, hnode⟩ := Workspace.exists_node?_of_short (w := w) hshort
  simp only [Review.step, hfile, hnode, bind, Except.bind]
  split
  · split_ifs
    · exact ⟨_, rfl⟩
    · exact ⟨_, rfl⟩
    · exact ⟨_, rfl⟩
  · exact ⟨_, rfl⟩

/-- A review comes to its end if no path is in its way. -/
theorem review_of_hasPath (r : Review) (h : ∀ i ∈ issues, HasPath w.cwd i) :
    (r.run w issues).2 = none := by
  induction issues generalizing r with
  | nil => rfl
  | cons i issues ih =>
      obtain ⟨hi, hrest⟩ := List.forall_mem_cons.mp h
      obtain ⟨r', hstep⟩ := exists_of_hasPath r hi
      rw [Review.run, hstep]
      exact ih r' hrest

end Sync

/-! ## The order of removals -/

namespace Sync

variable {accepted : List Target} {t : Target}

theorem mem_removals_iff : t ∈ removals accepted ↔ t ∈ accepted := by
  simp only [removals, List.mem_flatMap, mem_sorted, List.mem_filter, mem_distinct,
    List.mem_map, decide_eq_true_eq]
  constructor
  · rintro ⟨path, -, ht, -⟩
    exact ht
  · intro ht
    exact ⟨t.path, ⟨t, ht, rfl⟩, ht, rfl⟩

private theorem pairwise_of_path (h : accepted.Nodup) (path : Path) :
    (sorted (fun s t => t.line ≤ s.line) (accepted.filter fun t => t.path = path)).Pairwise
      fun s t => t.line < s.line := by
  have hsorted := @pairwise_sorted Target (fun s t => t.line ≤ s.line)
    (by simp only [Bool.or_eq_true, decide_eq_true_eq]; omega) (by simp only [decide_eq_true_eq]; omega)
    (accepted.filter fun t => t.path = path)
  have hnodup : (sorted (fun s t => t.line ≤ s.line)
      (accepted.filter fun t => t.path = path)).Nodup :=
    (perm_sorted _ _).nodup_iff.mpr (h.filter _)
  refine (hsorted.and hnodup).imp_of_mem ?_
  rintro s t hs ht ⟨hle, hne⟩
  have hspath : s.path = path := by simpa using (List.mem_filter.mp (mem_sorted.mp hs)).2
  have htpath : t.path = path := by simpa using (List.mem_filter.mp (mem_sorted.mp ht)).2
  have hline : s.line ≠ t.line := by
    intro heq
    apply hne
    cases s
    cases t
    simp_all
  have hle' : t.line ≤ s.line := by simpa using hle
  omega

/-- Within a file the lines are taken strictly from the bottom up. -/
theorem removals_pairwise (h : accepted.Nodup) :
    (removals accepted).Pairwise fun s t => s.path = t.path → t.line < s.line := by
  rw [removals, List.pairwise_flatMap]
  constructor
  · intro path _
    refine (pairwise_of_path h path).imp ?_
    intro s t hlt _
    exact hlt
  · refine (nodup_distinct _).imp fun hne s hs t ht hpath => ?_
    have hs' := (List.mem_filter.mp (mem_sorted.mp hs)).2
    have ht' := (List.mem_filter.mp (mem_sorted.mp ht)).2
    simp only [decide_eq_true_eq] at hs' ht'
    exact absurd (hs'.symm.trans (hpath.trans ht')) hne

end Sync

end TodoLedger
