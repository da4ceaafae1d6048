import TodoLedger.Proofs.Backup.Naming
import TodoLedger.Proofs.Backup.Survival
/-!
# The window of backups

Edits behind one directory of backups leave in it the latest copies of each file name, as many as are
kept, with what the files held before. Files of one name in different directories share their copies,
and no name of a file may start with the stem of another one's.
-/

namespace TodoLedger

open Work Workspace Utf8

namespace Backups

/-- A copy of a file: its name, when it was taken and what it holds. -/
structure Copy where
  name : Text
  moment : DateTime
  bytes : Bytes
deriving DecidableEq

def Copy.fileName (c : Copy) : Text := Backups.fileName c.name c.moment

/-- The latest copies of a name, of those that were taken, the latest first. -/
def latest (kept : Nat) (taken : List Copy) (name : Text) : List Copy :=
  (taken.filter fun c => c.name = name).take kept

/-- The directory holds the latest copies of each name and nothing else. -/
def ShowsLatest (place : Place) (kept : Nat) (taken : List Copy) (t : Tree) : Prop :=
  ∀ s node, t.find? (place ++ [s]) = some node ↔
    ∃ c, c ∈ latest kept taken c.name ∧ s = c.fileName ∧ node = .file c.bytes

/-- An edit may be made behind the directory of backups: the path of the directory leads there, or
at least not by way of something in it, and the clock has moved on. -/
structure IsTurn (b : Backups) (place : Place) (kept : Nat) (taken : List Copy) (w : Workspace) :
    Prop where
  kept : b.kept = kept
  directory : b.directory.resolve w.cwd = place
  direct : b.directory.IsDirect w.cwd ∨
    ∃ q, w.locate b.directory = .ok q ∧ w.tree.find? q = some .directory
  wellFormed : w.tree.WellFormed
  keyed : w.tree.IsKeyed
  cwd : w.tree.find? w.cwd = some .directory
  year : 1000 ≤ w.clock.year
  later : ∀ c ∈ taken, c.moment.parts < w.clock.parts

/-- Edits were made behind an empty directory of backups, and between them anything but what is in
the directory may have changed. No edit failed in an operation on files. -/
inductive Edited (place : Place) (kept : Nat) : List Copy → Workspace → Prop
  | start {w : Workspace} : (∀ s, w.tree.find? (place ++ [s]) = none) → Edited place kept [] w
  | elsewhere {taken : List Copy} {w v : Workspace} : Edited place kept taken w →
      (∀ s, v.tree.find? (place ++ [s]) = w.tree.find? (place ++ [s])) → Edited place kept taken v
  | applied {b : Backups} {t : Text} {e : Edit} {taken : List Copy} {w v : Workspace} {patch : Patch}
      {bytes : Bytes} : Edited place kept taken w → IsTurn b place kept taken w →
      (Patch.apply b (Path.ofText t) e).runOn w = (.ok patch, v) → patch.outcome = .applied →
      w.content (Path.ofText t) = .ok bytes →
      Edited place kept (⟨(Path.ofText t).name, w.clock, bytes⟩ :: taken) v
  | spared {b : Backups} {t : Text} {e : Edit} {taken : List Copy} {w v : Workspace}
      {r : Except Fault Patch} : Edited place kept taken w → IsTurn b place kept taken w →
      (Patch.apply b (Path.ofText t) e).runOn w = (r, v) →
      (∀ patch, r = .ok patch → patch.outcome ≠ .applied) →
      (∀ fault : Fault, fault.IsOfFiles →
        r ≠ .ok (Patch.failure (Path.ofText t) e fault) ∧ r ≠ .error fault) →
      Edited place kept taken v

/-! ## Histories -/

/-- Each copy is later than those before it, in the year 1000 at the earliest, and none is taken for
a copy of another name. -/
structure IsHistory (taken : List Copy) : Prop where
  ordered : taken.Pairwise fun c d => d.moment.parts < c.moment.parts
  year : ∀ c ∈ taken, 1000 ≤ c.moment.year
  apart : ∀ c ∈ taken, ∀ d ∈ taken, ¬stem c.name <+: d.name

namespace IsHistory

variable {taken : List Copy} {c d : Copy} {kept : Nat} {name : Text}

theorem name_eq (h : IsHistory taken) (hc : c ∈ taken) (hd : d ∈ taken)
    (hstem : stem c.name <+: d.fileName) : c.name = d.name :=
  (eq_or_stem_isPrefix hstem).resolve_right (h.apart c hc d hd)

/-- The later one of two copies of a name has the later file name. -/
theorem pairwise_fileName (h : IsHistory taken) :
    taken.Pairwise fun c d => c.name = d.name → Text.Before d.fileName c.fileName := by
  refine h.ordered.imp_of_mem fun {c d} hc hd hlater hname => ?_
  rw [Copy.fileName, Copy.fileName, hname]
  exact before_fileName (h.year d hd) (h.year c hc) hlater

/-- Each copy has a file name of its own. -/
theorem nodup_fileName (h : IsHistory taken) : (taken.map Copy.fileName).Nodup := by
  refine List.pairwise_map.mpr (h.pairwise_fileName.imp_of_mem fun {c d} hc hd hbefore hsame => ?_)
  have hname : c.name = d.name := by
    refine h.name_eq hc hd ?_
    rw [← hsame]
    exact stem_isPrefix_fileName _ _
  exact (hbefore hname).ne hsame.symm

theorem fileName_inj (h : IsHistory taken) (hc : c ∈ taken) (hd : d ∈ taken) :
    c.fileName = d.fileName ↔ c = d :=
  ⟨fun hsame => List.inj_on_of_nodup_map h.nodup_fileName hc hd hsame, congrArg _⟩

end IsHistory

variable {kept : Nat} {taken : List Copy} {c : Copy} {name : Text}

theorem latest_sublist : (latest kept taken name).Sublist taken :=
  (List.take_sublist _ _).trans List.filter_sublist

theorem name_eq_of_mem_latest (h : c ∈ latest kept taken name) : c.name = name :=
  of_decide_eq_true (List.mem_filter.mp (List.mem_of_mem_take h)).2

theorem length_latest : (latest kept taken name).length = min kept (taken.countP (·.name = name)) := by
  rw [latest, List.length_take, List.countP_eq_length_filter]

/-- The latest copies with one more are the one and all but the earliest of the others. -/
theorem latest_cons_self (c : Copy) (taken : List Copy) :
    latest kept (c :: taken) c.name = (c :: latest kept taken c.name).take kept := by
  rw [latest, List.filter_cons_of_pos (by simp), latest]
  cases kept with
  | zero => rfl
  | succ n => rw [List.take_succ_cons, List.take_succ_cons, List.take_take, Nat.min_eq_left (by omega)]

theorem latest_cons_of_ne (h : c.name ≠ name) :
    latest kept (c :: taken) name = latest kept taken name := by
  rw [latest, List.filter_cons_of_neg (by simpa using h), latest]

/-! ## One more copy -/

/-- What a copy that is stored is in the history of its directory. -/
def copyOf (source : Path) (w : Workspace) (bytes : Bytes) : Copy := ⟨source.name, w.clock, bytes⟩

namespace Stored

variable {b : Backups} {source : Path} {w w₀ w₁ v : Workspace} {bytes : Bytes} {dir place : Place}
  (h : Stored b source w bytes w₀ w₁ dir place v)
  (hshown : ShowsLatest dir b.kept taken w₀.tree)
  (hhistory : IsHistory (copyOf source w bytes :: taken))

include hshown hhistory in
/-- Nothing stands under the name of the copy. -/
theorem find?_eq_none : w₀.tree.find? (dir ++ [fileName source.name w.clock]) = none := by
  rw [Option.eq_none_iff_forall_not_mem]
  intro node hnode
  obtain ⟨c, hc, hname, -⟩ := (hshown _ _).mp hnode
  have htaken : c ∈ taken := latest_sublist.subset hc
  have hsame := (hhistory.fileName_inj List.mem_cons_self (List.mem_cons_of_mem _ htaken)).mp hname
  have hfresh := (List.pairwise_cons.mp hhistory.ordered).1 c htaken
  rw [← hsame] at hfresh
  exact List.lt_irrefl _ hfresh

include h hshown hhistory

theorem find?_copied_eq_some_iff {s : Text} {node : Node} : w₁.tree.find? (dir ++ [s]) = some node ↔
    s = (copyOf source w bytes).fileName ∧ node = .file bytes ∨
      ∃ c, c ∈ latest b.kept taken c.name ∧ s = c.fileName ∧ node = .file c.bytes := by
  have hnone := find?_eq_none hshown hhistory
  have hplace := h.place_own (by rw [hnone]; simp)
  rw [← hshown, h.find?_copied, hplace]
  by_cases hs : s = fileName source.name w.clock
  · subst hs
    rw [if_pos rfl, hnone]
    simp [copyOf, Copy.fileName, eq_comm]
  · rw [if_neg (by simpa using hs)]
    simp [copyOf, Copy.fileName, hs]

/-- The names that are taken for backups of the file are those of its copies. -/
theorem mem_candidates_iff {s : Text} : s ∈ Candidates w₁.tree dir source.name ↔
    s ∈ (copyOf source w bytes :: latest b.kept taken source.name).map Copy.fileName := by
  rw [Candidates, List.mem_filter, Tree.mem_names_iff, Text.startsWith_iff, List.map_cons,
    List.mem_cons, List.mem_map, Option.ne_none_iff_exists']
  simp only [h.find?_copied_eq_some_iff hshown hhistory]
  constructor
  · rintro ⟨⟨node, ⟨hs, -⟩ | ⟨c, hc, rfl, -⟩⟩, hstem⟩
    · exact Or.inl hs
    · have htaken := List.mem_cons_of_mem (copyOf source w bytes) (latest_sublist.subset hc)
      have hname := hhistory.name_eq List.mem_cons_self htaken hstem
      refine Or.inr ⟨c, ?_, rfl⟩
      rwa [← hname] at hc
  · rintro (rfl | ⟨c, hc, rfl⟩)
    · exact ⟨⟨_, Or.inl ⟨rfl, rfl⟩⟩, stem_isPrefix_fileName _ _⟩
    · have hname := name_eq_of_mem_latest hc
      refine ⟨⟨_, Or.inr ⟨c, ?_, rfl, rfl⟩⟩, ?_⟩
      · rwa [hname]
      · rw [← hname]
        exact stem_isPrefix_fileName _ _

/-- In the order of names the copies are in the order of the history. -/
theorem dropped_eq (hkeyed : w₁.tree.IsKeyed) : b.Dropped w₁.tree dir source.name =
    ((copyOf source w bytes :: latest b.kept taken source.name).drop b.kept).map Copy.fileName := by
  have hsublist : (copyOf source w bytes :: latest b.kept taken source.name).Sublist
      (copyOf source w bytes :: taken) := latest_sublist.cons_cons _
  have hnodup := hhistory.nodup_fileName.sublist (hsublist.map _)
  have hname : ∀ c ∈ copyOf source w bytes :: latest b.kept taken source.name,
      c.name = source.name :=
    List.forall_mem_cons.mpr ⟨rfl, fun c hc => name_eq_of_mem_latest hc⟩
  have hsorted : ((copyOf source w bytes :: latest b.kept taken source.name).map
      Copy.fileName).Pairwise fun m n => Text.le n m = true := by
    refine List.pairwise_map.mpr ((hhistory.pairwise_fileName.sublist hsublist).imp_of_mem ?_)
    exact fun {c d} hc hd hbefore => (hbefore ((hname c hc).trans (hname d hd).symm)).le
  have hperm : (Candidates w₁.tree dir source.name).Perm
      ((copyOf source w bytes :: latest b.kept taken source.name).map Copy.fileName) :=
    (List.perm_ext_iff_of_nodup (nodup_candidates hkeyed) hnodup).mpr fun s =>
      h.mem_candidates_iff hshown hhistory
  have hdescending : descending (Candidates w₁.tree dir source.name) =
      (copyOf source w bytes :: latest b.kept taken source.name).map Copy.fileName :=
    ((perm_descending _).trans hperm).eq_of_pairwise
      (fun _ _ _ _ hle hge => Text.le_antisymm hge hle) (pairwise_descending _) hsorted
  rw [Dropped, hdescending, List.map_drop]

/-- The path to each copy of the file leads there. -/
theorem leadsTo (hw : w.tree.WellFormed)
    (hbefore : ∀ s, w₀.tree.find? (dir ++ [s]) = w.tree.find? (dir ++ [s])) {s : Text}
    (hs : s ∈ (copyOf source w bytes :: latest b.kept taken source.name).map Copy.fileName) :
    LeadsTo w₁ (b.directory.child s) (dir ++ [s]) := by
  have hnone := find?_eq_none hshown hhistory
  have hkeeps := h.keepsDirectories
  obtain ⟨c, hc, rfl⟩ := List.mem_map.mp hs
  rcases List.mem_cons.mp hc with rfl | hc
  · refine ⟨?_, bytes, (h.find?_copied_eq_some_iff hshown hhistory).mpr (Or.inl ⟨rfl, rfl⟩)⟩
    have hreached := h.reached (by rw [hnone]; simp)
    rw [h.place_own (by rw [hnone]; simp)] at hreached
    exact locate_of_keepsDirectories h.cwd hkeeps hreached
  · have hheld : c ∈ latest b.kept taken c.name := by rwa [name_eq_of_mem_latest hc]
    have hthere : w.tree.find? (dir ++ [c.fileName]) = some (.file c.bytes) := by
      rw [← hbefore]
      exact (hshown _ _).mpr ⟨c, hheld, rfl, rfl⟩
    refine ⟨locate_child ?_ ?_ (hw.names _ _ hthere _ (by simp)), c.bytes, ?_⟩
    · exact locate_of_keepsDirectories h.cwd hkeeps h.located
    · exact hkeeps _ h.isDirectory
    · exact (h.find?_copied_eq_some_iff hshown hhistory).mpr (Or.inr ⟨c, hheld, rfl, rfl⟩)

/-- Of the copies of the file the earliest one is gone if there is one too many. -/
theorem find?_pruned (hw : w.tree.WellFormed) (hkeyed : w₁.tree.IsKeyed)
    (hbefore : ∀ s, w₀.tree.find? (dir ++ [s]) = w.tree.find? (dir ++ [s])) (s : Text) :
    v.tree.find? (dir ++ [s]) = if s ∈ ((copyOf source w bytes ::
        latest b.kept taken source.name).drop b.kept).map Copy.fileName then none
      else w₁.tree.find? (dir ++ [s]) := by
  rw [← h.dropped_eq hshown hhistory hkeyed]
  split_ifs with hs
  · refine h.gone s hs _ (h.leadsTo hshown hhistory hw hbefore ?_)
    rw [h.dropped_eq hshown hhistory hkeyed, List.map_drop] at hs
    exact List.mem_of_mem_drop hs
  · refine h.kept _ fun n hn hlead => ?_
    rw [h.dropped_eq hshown hhistory hkeyed, List.map_drop] at hn
    have hown := (h.leadsTo hshown hhistory hw hbefore (List.mem_of_mem_drop hn)).1
    obtain rfl : n = s := by
      simpa using Except.ok.inj (hown.symm.trans hlead.1)
    rw [h.dropped_eq hshown hhistory hkeyed, List.map_drop] at hs
    exact hs hn

omit h hshown in
/-- With one more copy those are held that were held before, and the new one, but for what is
dropped. -/
theorem mem_latest_cons_iff {c : Copy} :
    c ∈ latest b.kept (copyOf source w bytes :: taken) c.name ↔
      (c = copyOf source w bytes ∨ c ∈ latest b.kept taken c.name) ∧
        c ∉ (copyOf source w bytes :: latest b.kept taken source.name).drop b.kept := by
  have hsublist : (copyOf source w bytes :: latest b.kept taken source.name).Sublist
      (copyOf source w bytes :: taken) := latest_sublist.cons_cons _
  have hnodup := ((hhistory.nodup_fileName.of_map _).sublist hsublist)
  by_cases hname : c.name = source.name
  · have hself := @latest_cons_self b.kept (copyOf source w bytes) taken
    rw [show (copyOf source w bytes).name = source.name from rfl] at hself
    rw [hname, hself, ← List.mem_cons]
    have hsplit := List.take_append_drop b.kept (copyOf source w bytes :: latest b.kept taken source.name)
    have hdisjoint := List.disjoint_take_drop hnodup (Nat.le_refl b.kept)
    constructor
    · exact fun hc => ⟨List.mem_of_mem_take hc, fun hdrop => hdisjoint hc hdrop⟩
    · rintro ⟨hc, hdrop⟩
      rw [← hsplit] at hc
      exact (List.mem_append.mp hc).resolve_right hdrop
  · have hne : c ≠ copyOf source w bytes := by
      rintro rfl
      exact hname rfl
    have hdrop : c ∉ (copyOf source w bytes :: latest b.kept taken source.name).drop b.kept := by
      intro hc
      rcases List.mem_cons.mp (List.mem_of_mem_drop hc) with hc | hc
      · exact hne hc
      · exact hname (name_eq_of_mem_latest hc)
    rw [latest_cons_of_ne (Ne.symm hname)]
    simp [hne, hdrop]

/-- One more copy leaves the latest copies of each name. -/
theorem showsLatest (hw : w.tree.WellFormed) (hkeyed : w₁.tree.IsKeyed)
    (hbefore : ∀ s, w₀.tree.find? (dir ++ [s]) = w.tree.find? (dir ++ [s])) :
    ShowsLatest dir b.kept (copyOf source w bytes :: taken) v.tree := by
  intro s node
  have hmem : ∀ c ∈ (copyOf source w bytes :: latest b.kept taken source.name).drop b.kept,
      c ∈ copyOf source w bytes :: taken :=
    fun c hc => (latest_sublist.cons_cons _).subset (List.mem_of_mem_drop hc)
  have hdropped : ∀ c ∈ copyOf source w bytes :: taken, c.fileName ∈
      ((copyOf source w bytes :: latest b.kept taken source.name).drop b.kept).map Copy.fileName ↔
        c ∈ (copyOf source w bytes :: latest b.kept taken source.name).drop b.kept := by
    refine fun c hc => ⟨fun hname => ?_, fun hdrop => List.mem_map.mpr ⟨c, hdrop, rfl⟩⟩
    obtain ⟨d, hd, hsame⟩ := List.mem_map.mp hname
    rwa [← (hhistory.fileName_inj (hmem d hd) hc).mp hsame]
  rw [h.find?_pruned hshown hhistory hw hkeyed hbefore]
  constructor
  · intro hnode
    split_ifs at hnode with hs
    rcases (h.find?_copied_eq_some_iff hshown hhistory).mp hnode with ⟨rfl, rfl⟩ | ⟨c, hc, rfl, rfl⟩
    · rw [hdropped _ List.mem_cons_self] at hs
      exact ⟨_, (mem_latest_cons_iff hhistory).mpr ⟨Or.inl rfl, hs⟩, rfl, rfl⟩
    · rw [hdropped c (List.mem_cons_of_mem _ (latest_sublist.subset hc))] at hs
      exact ⟨c, (mem_latest_cons_iff hhistory).mpr ⟨Or.inr hc, hs⟩, rfl, rfl⟩
  · rintro ⟨c, hc, rfl, rfl⟩
    obtain ⟨hheld, hdrop⟩ := (mem_latest_cons_iff hhistory).mp hc
    rw [if_neg (fun hs => hdrop ((hdropped c (latest_sublist.subset hc)).mp hs)),
      h.find?_copied_eq_some_iff hshown hhistory]
    rcases hheld with rfl | hheld
    · exact Or.inl ⟨rfl, rfl⟩
    · exact Or.inr ⟨c, hheld, rfl, rfl⟩

end Stored

end Backups

namespace Patch

open Backups

variable {b : Backups} {t : Text} {e : Edit} {w v : Workspace} {r : Except Fault Patch}
  {patch : Patch} {bytes : Bytes} {place : Place} {kept : Nat} {taken : List Copy}

/-- An edit that is not applied, and not for a fault of files, leaves the tree as it was. -/
theorem tree_eq_of_spared (hw : w.tree.WellFormed) (hcwd : w.tree.find? w.cwd = some .directory)
    (hrun : (apply b (Path.ofText t) e).runOn w = (r, v))
    (hnot : ∀ patch, r = .ok patch → patch.outcome ≠ .applied)
    (hfault : ∀ fault : Fault, fault.IsOfFiles →
      r ≠ .ok (failure (Path.ofText t) e fault) ∧ r ≠ .error fault) : v.tree = w.tree := by
  by_cases hthere : ∃ bytes, w.content (Path.ofText t) = .ok bytes
  · obtain ⟨bytes, hcontent⟩ := hthere
    have hp := isNamed_of_content hw hcwd hcontent
    have hends := @apply_ends b (Path.ofText t) e w bytes hp hcontent
    rw [hrun] at hends
    cases hends with
    | refused _ => rfl
    | unchanged _ => rfl
    | unsaved _ hcreate _ =>
        have hfiles := Backups.failsIn_create hp.isName.noSlash _ _ hcreate
        exact absurd rfl (hfault _ hfiles).1
    | raised _ _ => exact absurd rfl (hfault _ .nullByte).2
    | applied _ _ _ _ => exact absurd rfl (hnot _ rfl)
    | spoiled _ _ _ _ => exact absurd rfl (hfault _ (.encoding _)).1
  · obtain ⟨fault, hmissing⟩ :=
      apply_missing (b := b) (e := e) fun bytes hcontent => hthere ⟨bytes, hcontent⟩
    rw [hrun] at hmissing
    rw [(Prod.mk.inj hmissing).2]

/-- An edit that is applied leaves the latest copies of each name, with one of its file. -/
theorem showsLatest_of_applied (hturn : IsTurn b place kept taken w)
    (hshown : ShowsLatest place kept taken w.tree)
    (hrun : (apply b (Path.ofText t) e).runOn w = (.ok patch, v)) (happlied : patch.outcome = .applied)
    (hcontent : w.content (Path.ofText t) = .ok bytes)
    (hhistory : IsHistory (copyOf (Path.ofText t) w bytes :: taken)) :
    ShowsLatest place kept (copyOf (Path.ofText t) w bytes :: taken) v.tree := by
  have hp := isNamed_of_content hturn.wellFormed hturn.cwd hcontent
  obtain ⟨bytes', w₀, w₁, dir, own, u, hcontent', hstored, hrest⟩ :=
    stored_of_applied hp hrun happlied
  obtain rfl := Except.ok.inj (hcontent.symm.trans hcontent')
  have hbuilds := builds_ensureDirectories b.directory w
  rw [hstored.made] at hbuilds
  obtain rfl : dir = place := by
    rw [eq_resolve_of_locate hstored.located, hbuilds.cwd, hturn.directory]
  obtain rfl := hturn.kept
  have hbefore := (hstored.listing_before hturn.direct).2
  have hshown₀ : ShowsLatest dir b.kept taken w₀.tree := by
    intro s node
    rw [hbefore, hshown]
  have hkeyed : w₁.tree.IsKeyed := by
    rw [hstored.copied]
    exact (hbuilds.keyed hturn.keyed).put _ _
  have hafter := hstored.showsLatest hshown₀ hhistory hturn.wellFormed hkeyed hbefore
  intro s node
  rw [← hafter, hrest]
  -- The file is no backup, because its name would start with the stem of another file's.
  intro hown
  obtain ⟨q, hlocate, hfile⟩ := content_eq_ok_iff.mp hcontent
  rw [eq_resolve_of_locate hlocate, ← hown] at hfile
  obtain ⟨c, hc, rfl, -⟩ := (hshown _ _).mp hfile
  have hname : c.fileName = (Path.ofText t).name := by
    obtain ⟨parent, name, hpath, hisName⟩ := hp
    rw [hpath, Path.resolve_child hisName.ne_dotDot] at hown
    rw [hpath]
    simpa [Path.name, Path.child] using (List.append_inj' hown rfl).2
  refine hhistory.apart c (List.mem_cons_of_mem _ (latest_sublist.subset hc)) _ List.mem_cons_self ?_
  rw [copyOf, ← hname]
  exact stem_isPrefix_fileName _ _

end Patch

namespace Backups

variable {place : Place} {kept : Nat} {taken : List Copy} {w : Workspace}

/-- The copies of a run are each later than those before it. -/
theorem Edited.isHistory (h : Edited place kept taken w)
    (hapart : ∀ c ∈ taken, ∀ d ∈ taken, ¬stem c.name <+: d.name) : IsHistory taken := by
  induction h with
  | start _ => exact ⟨List.Pairwise.nil, by simp, hapart⟩
  | elsewhere _ _ ih => exact ih hapart
  | spared _ _ _ _ _ ih => exact ih hapart
  | applied _ hturn _ _ _ ih =>
      have hbefore := ih fun c hc d hd =>
        hapart c (List.mem_cons_of_mem _ hc) d (List.mem_cons_of_mem _ hd)
      exact ⟨List.pairwise_cons.mpr ⟨hturn.later, hbefore.ordered⟩,
        List.forall_mem_cons.mpr ⟨hturn.year, hbefore.year⟩, hapart⟩

/-- After each edit the directory holds the latest copies of each name, of as many edits as were
applied to files of the name or as many as are kept, and nothing else. -/
theorem edited_shows_latest (place : Place) (kept : Nat) (taken : List Copy) (w : Workspace)
    (h : Edited place kept taken w) (hapart : ∀ c ∈ taken, ∀ d ∈ taken, ¬stem c.name <+: d.name) :
    ShowsLatest place kept taken w.tree ∧ (taken.map Copy.fileName).Nodup ∧
      (taken.Pairwise fun c d => d.moment.parts < c.moment.parts) ∧
      ∀ name, (latest kept taken name).length = min kept (taken.countP (·.name = name)) := by
  have hhistory := h.isHistory hapart
  refine ⟨?_, hhistory.nodup_fileName, hhistory.ordered, fun name => length_latest⟩
  clear hhistory
  induction h with
  | start hempty =>
      intro s node
      rw [hempty]
      simp [latest]
  | elsewhere _ hsame ih =>
      intro s node
      rw [hsame, ih hapart]
  | spared _ hturn hrun hnot hfault ih =>
      rw [Patch.tree_eq_of_spared hturn.wellFormed hturn.cwd hrun hnot hfault]
      exact ih hapart
  | applied hedited hturn hrun happlied hcontent ih =>
      have hshown := ih fun c hc d hd =>
        hapart c (List.mem_cons_of_mem _ hc) d (List.mem_cons_of_mem _ hd)
      exact Patch.showsLatest_of_applied hturn hshown hrun happlied hcontent
        ((hedited.applied hturn hrun happlied hcontent).isHistory hapart)

/-! ## Two edits of a file -/

/-- A file of three lines, and what two removals of its first line leave. -/
def threeLines : Workspace := .ofFiles ["w"] [("a.py", "one\ntwo\nthree\n")]

def removeFirst : Work Patch := Patch.apply Patch.keepOne (Path.ofText "a.py") (.removeLine 1)

def twoCopies : List Copy :=
  [⟨"a.py", (removeFirst.runOn threeLines).2.clock, bytesOf "two\nthree\n"⟩,
    ⟨"a.py", threeLines.clock, bytesOf "one\ntwo\nthree\n"⟩]

/-- A tree of plain names is one that an edit may be made in. -/
private theorem isTurn_of_plain {taken : List Copy} {w : Workspace}
    (h : (∀ e ∈ w.tree.nodes, w.tree.find? e.1.dropLast = some .directory ∧
        ∀ s ∈ e.1, Path.IsPlainName s) ∧
      Patch.keepOne.directory.resolve w.cwd = ["w", "kept"] ∧ w.tree.IsKeyed ∧
      w.tree.find? w.cwd = some .directory ∧ 1000 ≤ w.clock.year ∧
      ∀ c ∈ taken, c.moment.parts < w.clock.parts) :
    IsTurn Patch.keepOne ["w", "kept"] 1 taken w where
  kept := rfl
  directory := h.2.1
  direct := Or.inl (Path.isDirect_of_ne_dotDot (by decide))
  wellFormed := Tree.wellFormed_of_plain h.1
  keyed := h.2.2.1
  cwd := h.2.2.2.1
  year := h.2.2.2.2.1
  later := h.2.2.2.2.2

theorem edited_shows_latest_threeLines : ∃ taken w, Edited ["w", "kept"] 1 taken w ∧
    taken.length = 2 ∧ (∀ c ∈ taken, ∀ d ∈ taken, ¬stem c.name <+: d.name) ∧
    ShowsLatest ["w", "kept"] 1 taken w.tree ∧ (taken.map Copy.fileName).Nodup ∧
      (taken.Pairwise fun c d => d.moment.parts < c.moment.parts) ∧
      ∀ name, (latest 1 taken name).length = min 1 (taken.countP (·.name = name)) := by
  have hstart : Edited ["w", "kept"] 1 [] threeLines := by
    refine .start fun s => ?_
    by_contra hs
    have hnames : threeLines.tree.names ["w", "kept"] = [] := by decide +kernel
    have hmem := Tree.mem_names_iff.mpr hs
    rw [hnames] at hmem
    cases hmem
  have hfirst : ∃ patch, (removeFirst.runOn threeLines).1 = .ok patch ∧
      patch.outcome = .applied := by decide +kernel
  have hsecond : ∃ patch, (removeFirst.runOn (removeFirst.runOn threeLines).2).1 = .ok patch ∧
      patch.outcome = .applied := by decide +kernel
  obtain ⟨patch, hpatch, happlied⟩ := hfirst
  obtain ⟨patch', hpatch', happlied'⟩ := hsecond
  have hcontent : threeLines.content (Path.ofText "a.py") = .ok (bytesOf "one\ntwo\nthree\n") := by
    decide +kernel
  have hcontent' : (removeFirst.runOn threeLines).2.content (Path.ofText "a.py") =
      .ok (bytesOf "two\nthree\n") := by decide +kernel
  have hone := hstart.applied (isTurn_of_plain (by decide +kernel)) (Prod.ext hpatch rfl) happlied
    hcontent
  have htwo := hone.applied (isTurn_of_plain (by decide +kernel)) (Prod.ext hpatch' rfl) happlied'
    hcontent'
  exact ⟨twoCopies, _, htwo, rfl, by decide +kernel,
    edited_shows_latest _ _ _ _ htwo (by decide +kernel)⟩

end Backups

end TodoLedger
