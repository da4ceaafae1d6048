import TodoLedger.Proofs.Workspace.Directories
import Mathlib.Data.List.Nodup
/-!
# Listing a directory

The names that a directory lists are those under which something stands in it. A node that is put or
removed elsewhere leaves the listing alone, and so do the directories that are made on the way to the
one that is listed.
-/

namespace TodoLedger

namespace Tree

variable {t : Tree} {place q dir : Place} {node : Node} {s : Text}

/-- The places that the tree lists. -/
def places (t : Tree) : List Place := t.nodes.map Prod.fst

/-- The names in a directory. -/
def names (t : Tree) (dir : Place) : List Text := (t.children dir).map Prod.fst

/-- The name of a place in a directory. -/
private def nameIn? (dir place : Place) : Option Text :=
  match Path.below? dir place with
  | some [s] => some s
  | _ => none

private theorem nameIn?_eq_some_iff : nameIn? dir place = some s ↔ place = dir ++ [s] := by
  rw [← Path.below?_eq_some_iff, nameIn?]
  rcases Path.below? dir place with _ | _ | ⟨a, _ | ⟨b, rest⟩⟩ <;> simp

private theorem names_eq (t : Tree) (dir : Place) :
    t.names dir = t.places.filterMap (nameIn? dir) := by
  rw [names, children, places, List.map_filterMap, List.filterMap_map]
  congr 1
  funext e
  simp only [Function.comp, nameIn?]
  rcases Path.below? dir e.1 with _ | _ | ⟨a, _ | ⟨b, rest⟩⟩ <;> rfl

theorem mem_places_iff (hplace : place ≠ []) : place ∈ t.places ↔ t.find? place ≠ none := by
  rw [find?, if_neg (by simpa using hplace), ← Option.isSome_iff_ne_none, List.lookup_isSome_iff,
    places, List.mem_map]
  constructor
  · rintro ⟨e, he, rfl⟩
    exact ⟨e, he, by simp⟩
  · rintro ⟨e, he, hsame⟩
    exact ⟨e, he, (beq_iff_eq.mp hsame).symm⟩

theorem mem_names_iff : s ∈ t.names dir ↔ t.find? (dir ++ [s]) ≠ none := by
  rw [← mem_places_iff (by simp), names_eq, List.mem_filterMap]
  simp [nameIn?_eq_some_iff]

private theorem map_fst_putNode (nodes : List (Place × Node)) :
    (putNode place node nodes).map Prod.fst =
      if place ∈ nodes.map Prod.fst then nodes.map Prod.fst else nodes.map Prod.fst ++ [place] := by
  induction nodes with
  | nil => rfl
  | cons e es ih =>
      rw [putNode]
      by_cases he : e.1 = place
      · simp [he]
      · rw [if_neg he, List.map_cons, ih, List.map_cons]
        simp only [List.mem_cons, Ne.symm he, false_or]
        split_ifs <;> rfl

theorem places_put : (t.put place node).places =
    if place ∈ t.places then t.places else t.places ++ [place] := map_fst_putNode t.nodes

theorem names_put_of_ne (h : ∀ s, place ≠ dir ++ [s]) : (t.put place node).names dir = t.names dir := by
  have hnone : nameIn? dir place = none := by
    rw [Option.eq_none_iff_forall_not_mem]
    exact fun s hs => h s (nameIn?_eq_some_iff.mp hs)
  rw [names_eq, names_eq, places_put]
  split_ifs
  · rfl
  · simp [hnone]

theorem names_put_child : (t.put (dir ++ [s]) node).names dir =
    if s ∈ t.names dir then t.names dir else t.names dir ++ [s] := by
  have hsome : nameIn? dir (dir ++ [s]) = some s := nameIn?_eq_some_iff.mpr rfl
  have hmem : s ∈ t.names dir ↔ dir ++ [s] ∈ t.places := by
    rw [mem_names_iff, mem_places_iff (by simp)]
  simp only [hmem]
  rw [names_eq, names_eq, places_put]
  split_ifs
  · rfl
  · simp [hsome]

/-- The tree has one node at each of its places. -/
def IsKeyed (t : Tree) : Prop := t.places.Nodup

instance (t : Tree) : Decidable t.IsKeyed := inferInstanceAs (Decidable (List.Nodup _))

theorem IsKeyed.nodup_names (h : t.IsKeyed) (dir : Place) : (t.names dir).Nodup := by
  rw [names_eq]
  refine List.Nodup.filterMap (fun a a' s hs hs' => ?_) h
  rw [nameIn?_eq_some_iff.mp hs, nameIn?_eq_some_iff.mp hs']

theorem IsKeyed.find?_of_mem (h : t.IsKeyed) (hplace : place ≠ []) (hmem : (place, node) ∈ t.nodes) :
    t.find? place = some node := by
  obtain ⟨before, after, hnodes⟩ := List.append_of_mem hmem
  rw [find?, if_neg (by simpa using hplace), List.lookup_eq_some_iff]
  refine ⟨before, after, hnodes, fun e he => ?_⟩
  rw [IsKeyed, places, hnodes, List.map_append, List.nodup_append] at h
  rw [bne_iff_ne]
  exact (h.2.2 e.1 (List.mem_map_of_mem he) place (by simp)).symm

/-- What a directory lists under a name is what stands there. -/
theorem IsKeyed.mem_children_iff (h : t.IsKeyed) :
    (s, node) ∈ t.children dir ↔ t.find? (dir ++ [s]) = some node := by
  rw [Tree.mem_children_iff]
  constructor
  · exact h.find?_of_mem (by simp)
  · exact mem_nodes_of_find? (by simp)

theorem IsKeyed.put (h : t.IsKeyed) (place : Place) (node : Node) : (t.put place node).IsKeyed := by
  rw [IsKeyed, places_put]
  split_ifs with hplace
  · exact h
  · rw [← List.concat_eq_append, List.nodup_concat]
    exact ⟨hplace, h⟩

end Tree

/-! ## Directories that are made -/

/-- The place of a directory on the way of the path. -/
def Path.Passes (p : Path) (cwd q : Place) : Prop :=
  ∃ segments, segments <+: p.segments ∧ q = Path.resolve cwd ⟨p.anchor, segments⟩

/-- The path does not lead to a directory by way of something in that directory. -/
def Path.IsDirect (cwd : Place) (p : Path) : Prop :=
  ∀ q, p.Passes cwd q → ∀ s, q ≠ p.resolve cwd ++ [s]

theorem Path.isDirect_of_ne_dotDot {cwd : Place} {p : Path} (h : ∀ s ∈ p.segments, s ≠ dotDot) :
    p.IsDirect cwd := by
  rintro q ⟨segments, hleading, rfl⟩ s hsame
  have hpart : ∀ s ∈ segments, s ≠ dotDot := fun s hs => h s (hleading.subset hs)
  have hlength := congrArg List.length hsame
  have hle := hleading.length_le
  simp only [Path.resolve, Path.resolveFrom_of_ne_dotDot h, Path.resolveFrom_of_ne_dotDot hpart,
    List.length_append, List.length_singleton] at hlength
  omega

/-- Some of the allowed places became directories, and nothing else happened. -/
structure Workspace.Builds (allowed : Place → Prop) (w w' : Workspace) : Prop where
  cwd : w'.cwd = w.cwd
  clock : w'.clock = w.clock
  keyed : w.tree.IsKeyed → w'.tree.IsKeyed
  nodes : ∀ q, ¬allowed q → w'.tree.find? q = w.tree.find? q
  names : ∀ dir, (∀ q, allowed q → ∀ s, q ≠ dir ++ [s]) → w'.tree.names dir = w.tree.names dir

namespace Workspace.Builds

variable {allowed : Place → Prop} {w w' w₁ : Workspace} {q : Place}

theorem refl (w : Workspace) : Builds allowed w w := ⟨rfl, rfl, id, fun _ _ => rfl, fun _ _ => rfl⟩

theorem trans (h₁ : Builds allowed w w₁) (h₂ : Builds allowed w₁ w') : Builds allowed w w' where
  cwd := h₂.cwd.trans h₁.cwd
  clock := h₂.clock.trans h₁.clock
  keyed := fun hw => h₂.keyed (h₁.keyed hw)
  nodes := fun q hq => (h₂.nodes q hq).trans (h₁.nodes q hq)
  names := fun dir hdir => (h₂.names dir hdir).trans (h₁.names dir hdir)

instance : IsPreorder Workspace (Builds allowed) where
  refl := refl
  trans := fun _ _ _ => trans

theorem of_put (hq : allowed q) (hnone : w.tree.find? q = none) :
    Builds allowed w { w with tree := w.tree.put q .directory } where
  cwd := rfl
  clock := rfl
  keyed := fun hw => hw.put q .directory
  nodes := by
    intro r hr
    have hne : q ≠ [] := by
      rintro rfl
      cases hnone
    rw [Tree.find?_put hne, if_neg]
    rintro rfl
    exact hr hq
  names := fun _ hdir => Tree.names_put_of_ne (hdir q hq)

end Workspace.Builds

namespace Work

open Workspace

variable {w w' : Workspace} {p : Path} {place : Place}

theorem builds_ensureDirectory {allowed : Place → Prop} (h : allowed (p.resolve w.cwd)) :
    Builds allowed w ((ensureDirectory p).runOn w).2 := by
  refine moves_tryCatch ?_ fun fault w₁ _ _ => ?_
  · rw [runOn_change]
    cases hwith : w.withDirectory p with
    | error fault => exact .refl w
    | ok v =>
        obtain ⟨q, hlocate, hnone, rfl⟩ := withDirectory_eq_ok_iff.mp hwith
        exact .of_put (eq_resolve_of_locate hlocate ▸ h) hnone
  · split
    · exact .refl w₁
    · refine moves_bind (moves_of_unchanged (isDirectory_unchanged p w₁)) fun there w₂ _ _ => ?_
      split
      · exact .refl w₂
      · exact .refl w₂
    · exact .refl w₁

/-- Making a directory makes nothing but directories on the way of its path. -/
theorem builds_ensureDirectories (p : Path) (w : Workspace) :
    Builds (p.Passes w.cwd) w ((ensureDirectories p).runOn w).2 := by
  obtain ⟨anchor, segments⟩ := p
  suffices hall : ∀ allowed : Place → Prop,
      (∀ q, Path.Passes ⟨anchor, segments⟩ w.cwd q → allowed q) →
      Builds allowed w ((ensureDirectories ⟨anchor, segments⟩).runOn w).2 from
    hall _ fun _ => id
  intro allowed
  induction segments using List.reverseRecOn generalizing w with
  | nil =>
      intro hallowed
      rw [ensureDirectories]
      refine moves_tryCatch (builds_ensureDirectory (hallowed _ ⟨[], List.prefix_refl _, rfl⟩))
        fun fault w₁ _ _ => ?_
      split
      · rw [dif_pos rfl]
        exact .refl w₁
      · exact .refl w₁
  | append_singleton segments name ih =>
      intro hallowed
      have hown : ∀ v : Workspace, v.cwd = w.cwd →
          allowed (Path.resolve v.cwd ⟨anchor, segments ++ [name]⟩) := by
        intro v hv
        rw [hv]
        exact hallowed _ ⟨_, List.prefix_refl _, rfl⟩
      rw [ensureDirectories]
      refine moves_tryCatch (builds_ensureDirectory (hown w rfl)) fun fault w₁ _ h₁ => ?_
      split
      · rw [dif_neg (by simp)]
        have hup : Path.parent ⟨anchor, segments ++ [name]⟩ = ⟨anchor, segments⟩ := by
          simp [Path.parent]
        rw [hup]
        refine moves_bind (ih w₁ ?_) fun _ w₂ _ h₂ =>
          builds_ensureDirectory (hown w₂ (h₂.cwd.trans h₁.cwd))
        rintro q ⟨part, hprefix, rfl⟩
        rw [h₁.cwd]
        exact hallowed _ ⟨part, hprefix.trans (List.prefix_append _ _), rfl⟩
      · exact .refl w₁

theorem exists_directory_of_ensureDirectory (h : (ensureDirectory p).runOn w = (.ok (), w')) :
    ∃ place, w'.locate p = .ok place ∧ w'.tree.find? place = some .directory := by
  rw [ensureDirectory, runOn_tryCatch, runOn_change] at h
  cases hwith : w.withDirectory p with
  | ok v =>
      rw [hwith] at h
      cases h
      obtain ⟨place, hlocate, hnone, rfl⟩ := withDirectory_eq_ok_iff.mp hwith
      have hne : place ≠ [] := by
        rintro rfl
        cases hnone
      have hframe : Frame (fun _ => False) w { w with tree := w.tree.put place .directory } :=
        .put_directory hnone rfl rfl (List.prefix_refl _)
      exact ⟨place, hframe.locate hlocate, by rw [Tree.find?_put hne, if_pos rfl]⟩
  | error fault =>
      rw [hwith] at h
      simp only at h
      split at h
      · cases h
      · obtain ⟨there, w₁, hthere, h⟩ := runOn_bind_eq_ok_iff.mp h
        rw [runOn_isDirectory] at hthere
        obtain ⟨hnode, rfl⟩ := Prod.mk.inj hthere
        split_ifs at h with htrue
        · obtain ⟨-, rfl⟩ := Prod.mk.inj h
          subst htrue
          rw [← node?_eq_directory_iff]
          cases hthere : w.node? p with
          | error f => simp [hthere, Except.map] at hnode
          | ok n => simpa [hthere, Except.map] using hnode
        · cases h
      · cases h

/-- A directory that was made is there. -/
theorem exists_directory_of_ensureDirectories
    (h : (ensureDirectories p).runOn w = (.ok (), w')) :
    ∃ place, w'.locate p = .ok place ∧ w'.tree.find? place = some .directory := by
  rw [ensureDirectories, runOn_tryCatch] at h
  rcases hfirst : (ensureDirectory p).runOn w with ⟨fault | _, w₁⟩
  · rw [hfirst] at h
    simp only at h
    split at h
    · split_ifs at h
      · cases h
      · obtain ⟨_, w₂, -, hlast⟩ := runOn_bind_eq_ok_iff.mp h
        exact exists_directory_of_ensureDirectory hlast
    · cases h
  · rw [hfirst] at h
    cases h
    exact exists_directory_of_ensureDirectory hfirst

/-- A directory that is there need not be made. -/
theorem runOn_ensureDirectories_of_directory (hlocate : w.locate p = .ok place)
    (h : w.tree.find? place = some .directory) : (ensureDirectories p).runOn w = (.ok (), w) := by
  have hthere : w.withDirectory p = .error (.file ⟨.alreadyExists, p⟩) := by
    simp [withDirectory, hlocate, h, bind, Except.bind]
  have hnode : (isDirectory p).runOn w = (.ok true, w) := by
    simp [runOn_isDirectory, Workspace.node?, hlocate, h, Except.map]
  have hone : (ensureDirectory p).runOn w = (.ok (), w) := by
    rw [ensureDirectory, runOn_tryCatch, runOn_change, hthere]
    simp only
    rw [runOn_bind_of_ok hnode]
    rfl
  rw [ensureDirectories, runOn_tryCatch, hone]

end Work

end TodoLedger
