import TodoLedger.Workspace
import TodoLedger.Proofs.Path
import Mathlib.Tactic.Common
/-!
# Places in the tree

What stands at a place after a node was put or removed, and where a walk along segments ends: at the
place that the segments resolve to, and at the same place in every tree with the same directories.
-/

namespace TodoLedger

namespace Tree

variable {t t' : Tree} {place q : Place} {node : Node} {segments : List Text}

@[simp] theorem find?_nil (t : Tree) : t.find? [] = some .directory := rfl

theorem ne_nil_of_not_directory {t : Tree} {place : Place} (h : t.find? place ≠ some .directory) :
    place ≠ [] := by
  rintro rfl
  exact h rfl

private theorem lookup_cons_eq (e : Place × Node) (es : List (Place × Node)) (q : Place) :
    (e :: es).lookup q = if q = e.1 then some e.2 else es.lookup q := by
  obtain ⟨k, v⟩ := e
  rw [List.lookup_cons]
  by_cases h : q = k
  · simp [h]
  · rw [beq_eq_false_iff_ne.mpr h, if_neg h]

/-- Something stands at each place that the tree lists. -/
theorem exists_find?_of_mem {t : Tree} {e : Place × Node} (h : e ∈ t.nodes) :
    ∃ node, t.find? e.1 = some node := by
  rw [find?]
  split_ifs with hroot
  · exact ⟨_, rfl⟩
  · rw [← Option.isSome_iff_exists, List.lookup_isSome_iff]
    exact ⟨e, h, by simp⟩

theorem mem_nodes_of_find? (hplace : place ≠ []) (h : t.find? place = some node) :
    (place, node) ∈ t.nodes := by
  rw [find?, if_neg (by simpa using hplace)] at h
  obtain ⟨before, after, hnodes, -⟩ := List.lookup_eq_some_iff.mp h
  rw [hnodes]
  simp

/-- A directory lists the entries of the tree that are one name below it. -/
theorem mem_children_iff {dir : Place} {s : Text} :
    (s, node) ∈ t.children dir ↔ (dir ++ [s], node) ∈ t.nodes := by
  have hbelow : Path.below? dir (dir ++ [s]) = some [s] := Path.below?_eq_some_iff.mpr rfl
  rw [children, List.mem_filterMap]
  constructor
  · rintro ⟨⟨q, node'⟩, hentry, hlisted⟩
    simp only at hlisted
    split at hlisted
    · rename_i name hname
      obtain ⟨rfl, rfl⟩ := Prod.mk.inj (Option.some.inj hlisted)
      rwa [Path.below?_eq_some_iff.mp hname] at hentry
    · cases hlisted
  · exact fun hentry => ⟨_, hentry, by simp only [hbelow]⟩

private theorem lookup_putNode (nodes : List (Place × Node)) (place q : Place) (node : Node) :
    (putNode place node nodes).lookup q = if q = place then some node else nodes.lookup q := by
  induction nodes with
  | nil => rw [putNode, lookup_cons_eq]
  | cons e es ih =>
      rw [putNode, lookup_cons_eq]
      by_cases he : e.1 = place
      · rw [if_pos he, lookup_cons_eq, he]
        by_cases h : q = place <;> simp [h]
      · rw [if_neg he, lookup_cons_eq, ih]
        by_cases hq : q = e.1
        · simp [hq, he]
        · simp [hq]

theorem find?_put (hplace : place ≠ []) (q : Place) :
    (t.put place node).find? q = if q = place then some node else t.find? q := by
  cases q with
  | nil => simp [hplace.symm]
  | cons s q =>
      simp only [find?, List.isEmpty_cons, Bool.false_eq_true, if_false, put]
      exact lookup_putNode t.nodes place (s :: q) node

private theorem lookup_filter_ne (nodes : List (Place × Node)) (place q : Place) :
    (nodes.filter fun e => e.1 ≠ place).lookup q =
      if q = place then none else nodes.lookup q := by
  induction nodes with
  | nil => simp
  | cons e es ih =>
      rw [List.filter_cons, lookup_cons_eq]
      by_cases he : e.1 = place
      · rw [if_neg (by simpa using he), ih, he]
        by_cases hq : q = place <;> simp [hq]
      · rw [if_pos (by simpa using he), lookup_cons_eq, ih]
        by_cases hq : q = e.1
        · simp [hq, he]
        · simp [hq]

theorem find?_remove (hplace : place ≠ []) (q : Place) :
    (t.remove place).find? q = if q = place then none else t.find? q := by
  cases q with
  | nil => simp [hplace.symm]
  | cons s q =>
      simp only [find?, List.isEmpty_cons, Bool.false_eq_true, if_false, remove]
      exact lookup_filter_ne t.nodes place (s :: q)

/-! ## Walks -/

/-- Every directory of the one tree is one of the other. -/
def KeepsDirectories (t t' : Tree) : Prop :=
  ∀ place, t.find? place = some .directory → t'.find? place = some .directory

theorem walk_eq_resolveFrom (h : t.walk place segments = .ok q) :
    q = Path.resolveFrom place segments := by
  induction segments generalizing place with
  | nil => simpa [walk, Path.resolveFrom, eq_comm] using h
  | cons s rest ih =>
      rw [walk] at h
      rw [Path.resolveFrom]
      split at h
      · cases h
      · cases h
      · split_ifs at h with hdots hlong
        · rw [if_pos hdots]
          exact ih h
        · rw [if_neg hdots]
          exact ih h

theorem KeepsDirectories.walk (hkeeps : KeepsDirectories t t')
    (h : t.walk place segments = .ok q) : t'.walk place segments = .ok q := by
  induction segments generalizing place with
  | nil => exact h
  | cons s rest ih =>
      rw [Tree.walk] at h ⊢
      split at h
      · cases h
      · cases h
      · rename_i hdirectory
        rw [hkeeps place hdirectory]
        simp only
        split_ifs at h ⊢ with hdots hlong
        · exact ih h
        · exact ih h

theorem keepsDirectories_put_file {bytes : Bytes} (h : t.find? place ≠ some .directory) :
    KeepsDirectories t (t.put place (.file bytes)) := by
  intro r hr
  have hne : place ≠ [] := by
    rintro rfl
    exact h rfl
  have hrp : r ≠ place := by
    rintro rfl
    exact h hr
  rw [find?_put hne, if_neg hrp]
  exact hr

theorem walk_append (place : Place) (s r : List Text) :
    t.walk place (s ++ r) = (t.walk place s).bind fun q => t.walk q r := by
  induction s generalizing place with
  | nil => rfl
  | cons a s ih =>
      rw [List.cons_append, walk, walk]
      split
      · rfl
      · rfl
      · split_ifs
        · exact ih _
        · rfl
        · exact ih _

/-- One step behind a directory, to a name that the system can hold. -/
theorem walk_append_name {name : Text} (hwalk : t.walk place segments = .ok q)
    (hdirectory : t.find? q = some .directory) (hdots : name ≠ dotDot)
    (hshort : nameBytes name ≤ maxNameBytes) :
    t.walk place (segments ++ [name]) = .ok (q ++ [name]) := by
  rw [walk_append, hwalk]
  simp only [Except.bind, walk, hdirectory, hdots, if_false]
  rw [if_neg (Nat.not_lt.mpr hshort)]

/-- A walk that ends with a name has come through the directory that the name is in. -/
theorem exists_directory_of_walk_append {name : Text} (hdots : name ≠ dotDot)
    (h : t.walk place (segments ++ [name]) = .ok q) :
    ∃ r, t.walk place segments = .ok r ∧ t.find? r = some .directory ∧ q = r ++ [name] := by
  rw [walk_append] at h
  cases hwalk : t.walk place segments with
  | error cause =>
      rw [hwalk] at h
      cases h
  | ok r =>
      simp only [hwalk, Except.bind, walk] at h
      split at h
      · cases h
      · cases h
      · rename_i hdirectory
        rw [if_neg hdots] at h
        split_ifs at h
        exact ⟨r, rfl, hdirectory, (Except.ok.inj h).symm⟩

theorem walk_ne_nameTooLong (h : ∀ s ∈ segments, nameBytes s ≤ maxNameBytes) :
    t.walk place segments ≠ .error .nameTooLong := by
  induction segments generalizing place with
  | nil => simp [walk]
  | cons s rest ih =>
      obtain ⟨hs, hrest⟩ := List.forall_mem_cons.mp h
      rw [walk]
      split
      · simp
      · simp
      · rw [if_neg (Nat.not_lt.mpr hs)]
        split_ifs
        · exact ih hrest
        · exact ih hrest

end Tree

namespace Workspace

variable {w w' : Workspace} {p : Path} {place : Place} {bytes : Bytes}

theorem locate_eq_ok_iff : w.locate p = .ok place ↔
    (∃ bytes, Utf8.encode p.text = .ok bytes) ∧ Rune.ofNat 0 ∉ p.text ∧
      w.tree.walk (if p.anchor = .relative then w.cwd else []) p.segments = .ok place := by
  rw [locate]
  cases Utf8.encode p.text with
  | error f => simp
  | ok bytes =>
      by_cases hnul : Rune.ofNat 0 ∈ p.text
      · simp [hnul]
      · simp only [List.contains_eq_mem, hnul, decide_false, Bool.false_eq_true, if_false,
          Except.ok.injEq, exists_eq', not_false_eq_true, true_and]
        split <;> simp_all

/-- What a path names depends on the tree and the working directory only. -/
theorem locate_congr (htree : w'.tree = w.tree) (hcwd : w'.cwd = w.cwd) :
    w'.locate p = w.locate p := by
  simp only [locate, htree, hcwd]

theorem content_congr (htree : w'.tree = w.tree) (hcwd : w'.cwd = w.cwd) :
    w'.content p = w.content p := by
  simp only [content, locate_congr htree hcwd, htree]

theorem node?_congr (htree : w'.tree = w.tree) (hcwd : w'.cwd = w.cwd) : w'.node? p = w.node? p := by
  simp only [node?, locate_congr htree hcwd, htree]

theorem locate_of_keepsDirectories (hcwd : w'.cwd = w.cwd)
    (hkeeps : Tree.KeepsDirectories w.tree w'.tree) (h : w.locate p = .ok place) :
    w'.locate p = .ok place := by
  rw [locate_eq_ok_iff] at h ⊢
  rw [hcwd]
  exact ⟨h.1, h.2.1, hkeeps.walk h.2.2⟩

/-- A path can only name the place that it resolves to. -/
theorem eq_resolve_of_locate (h : w.locate p = .ok place) : place = p.resolve w.cwd :=
  Tree.walk_eq_resolveFrom (locate_eq_ok_iff.mp h).2.2

theorem content_eq_ok_iff : w.content p = .ok bytes ↔
    ∃ place, w.locate p = .ok place ∧ w.tree.find? place = some (.file bytes) := by
  simp only [content]
  cases w.locate p with
  | error f => simp [bind, Except.bind]
  | ok place =>
      simp only [bind, Except.bind]
      split <;> simp_all

theorem node?_eq_file_iff : w.node? p = .ok (some (.file bytes)) ↔ w.content p = .ok bytes := by
  rw [content_eq_ok_iff, node?]
  split <;> simp_all

theorem node?_eq_directory_iff : w.node? p = .ok (some .directory) ↔
    ∃ place, w.locate p = .ok place ∧ w.tree.find? place = some .directory := by
  rw [node?]
  split <;> simp_all

theorem withContent_eq_ok_iff : w.withContent p bytes = .ok w' ↔
    ∃ place, w.locate p = .ok place ∧ w.tree.find? place ≠ some .directory ∧
      w.tree.find? place.dropLast = some .directory ∧
      w' = { w with tree := w.tree.put place (.file bytes) } := by
  simp only [withContent, Tree.isDirectory]
  cases w.locate p with
  | error f => simp [bind, Except.bind]
  | ok place =>
      simp only [bind, Except.bind, decide_eq_true_eq, Except.ok.injEq, exists_eq_left']
      by_cases hplace : w.tree.find? place = some .directory
      · simp [hplace]
      · by_cases hparent : w.tree.find? place.dropLast = some .directory
        · simp [hplace, hparent, eq_comm]
        · simp [hplace, hparent]

theorem withDirectory_eq_ok_iff : w.withDirectory p = .ok w' ↔
    ∃ place, w.locate p = .ok place ∧ w.tree.find? place = none ∧
      w' = { w with tree := w.tree.put place .directory } := by
  simp only [withDirectory]
  cases w.locate p with
  | error f => simp [bind, Except.bind]
  | ok place =>
      simp only [bind, Except.bind, Except.ok.injEq, exists_eq_left']
      cases hfind : w.tree.find? place <;> simp [eq_comm]

theorem withoutFile_eq_ok_iff : w.withoutFile p = .ok w' ↔
    ∃ place bytes, w.locate p = .ok place ∧ w.tree.find? place = some (.file bytes) ∧
      w' = { w with tree := w.tree.remove place } := by
  simp only [withoutFile]
  cases w.locate p with
  | error f => simp [bind, Except.bind]
  | ok place =>
      simp only [bind, Except.bind, Except.ok.injEq, exists_and_left, exists_eq_left']
      rcases w.tree.find? place with _ | _ | content <;> simp [eq_comm]

theorem areSame_eq_true_iff {q : Path} : w.areSame p q = true ↔
    ∃ place, w.locate p = .ok place ∧ w.locate q = .ok place ∧ w.tree.find? place ≠ none := by
  rw [areSame]
  cases w.locate p with
  | error f => simp
  | ok place =>
      cases w.locate q with
      | error f => simp
      | ok place' =>
          simp only [Bool.and_eq_true, decide_eq_true_eq, Option.isSome_iff_ne_none,
            Except.ok.injEq, exists_eq_left']
          rw [eq_comm]

/-- Something or nothing stands at a path whose names the system can hold. -/
theorem exists_node?_of_short (h : ∀ s ∈ p.segments, Tree.nameBytes s ≤ Tree.maxNameBytes) :
    ∃ n, w.node? p = .ok n := by
  rw [node?]
  split
  · exact ⟨_, rfl⟩
  · rename_i q hlocate
    exfalso
    rw [locate] at hlocate
    split at hlocate
    · cases hlocate
    · split_ifs at hlocate
      · cases hlocate
      all_goals
        split at hlocate
        · cases hlocate
        · rename_i cause hwalk
          cases hlocate
          exact Tree.walk_ne_nameTooLong h hwalk
  · exact ⟨_, rfl⟩

end Workspace

end TodoLedger
