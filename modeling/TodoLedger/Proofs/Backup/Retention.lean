import TodoLedger.Proofs.Backup
import TodoLedger.Proofs.Text.Order
import TodoLedger.Proofs.Workspace.Listing
/-!
# What a backup leaves in its directory

A backup is a copy of the file under its name and a stamp, after which files are deleted by name: one
goes if as many others, whose names start with the stem, come after it as are kept.
-/

namespace TodoLedger.Backups

open Work Workspace

variable {b : Backups} {name : Text} {w v : Workspace} {dir : Place}

/-! ## Names in descending order -/

theorem perm_descending (names : List Text) : (descending names).Perm names := perm_sorted _ names

theorem pairwise_descending (names : List Text) :
    (descending names).Pairwise fun m n => Text.le n m = true :=
  pairwise_sorted (fun a b => Text.le_total b a) (fun _ _ _ hab hbc => Text.le_trans hbc hab) names

/-- A name is dropped if as many names as are kept come after it. -/
theorem mem_drop_descending_iff {names : List Text} {n : Text} {k : Nat} (h : names.Nodup) :
    n ∈ (descending names).drop k ↔ n ∈ names ∧ k ≤ names.countP fun m => !Text.le m n := by
  have hperm := perm_descending names
  have hsorted := pairwise_descending names
  have hnodup := hperm.nodup_iff.mpr h
  by_cases hn : n ∈ names
  swap
  · exact iff_of_false (fun hdrop => hn (hperm.mem_iff.mp (List.mem_of_mem_drop hdrop)))
      fun hnames => hn hnames.1
  obtain ⟨later, earlier, hsplit⟩ := List.append_of_mem (hperm.mem_iff.mpr hn)
  rw [hsplit, List.pairwise_append, List.pairwise_cons] at hsorted
  obtain ⟨-, ⟨hearlier, -⟩, hlater⟩ := hsorted
  rw [hsplit, List.nodup_append, List.nodup_cons] at hnodup
  obtain ⟨-, ⟨hnotEarlier, -⟩, hne⟩ := hnodup
  have hcount : names.countP (fun m => !Text.le m n) = later.length := by
    rw [← hperm.countP_eq, hsplit, List.countP_append, List.countP_cons]
    have hall : later.countP (fun m => !Text.le m n) = later.length := by
      rw [List.countP_eq_length]
      intro m hm
      have hbefore := hlater m hm n List.mem_cons_self
      rw [Bool.not_eq_true']
      by_contra hle
      rw [Bool.not_eq_false] at hle
      exact hne m hm n List.mem_cons_self (Text.le_antisymm hle hbefore)
    have hnone : earlier.countP (fun m => !Text.le m n) = 0 := by
      rw [List.countP_eq_zero]
      intro m hm
      simp [hearlier m hm]
    rw [hall, hnone, Text.le_refl]
    simp
  rw [hcount, hsplit]
  constructor
  · intro hdrop
    refine ⟨hn, Nat.le_of_not_lt fun hlt => ?_⟩
    obtain ⟨j, rfl⟩ := Nat.exists_eq_add_of_lt hlt
    rw [Nat.add_assoc, List.drop_length_add_append, List.drop_succ_cons] at hdrop
    exact hnotEarlier (List.mem_of_mem_drop hdrop)
  · rintro ⟨-, hle⟩
    rw [List.drop_append_of_le_length hle]
    exact List.mem_append_right _ List.mem_cons_self

/-! ## Copying -/

/-- A copy that succeeds stands at the target, or in it if that is a directory, and not where the
file stands that is copied. -/
theorem copy_spec {source target : Path} {bytes : Bytes} (hcontent : w.content source = .ok bytes)
    (hrun : (copy source target).runOn w = (.ok (), v)) :
    ∃ place, w.locate (if w.node? target = .ok (some .directory) then target.child source.name
        else target) = .ok place ∧ w.tree.find? place ≠ some .directory ∧
      w.locate source ≠ .ok place ∧ v.tree = w.tree.put place (.file bytes) ∧ v.cwd = w.cwd := by
  rcases copy_cases source target w with ⟨fault, herror⟩ | ⟨other, place, hread, hlocate, hnot, hne, hok⟩
  · rw [herror] at hrun
    cases hrun
  · rw [hok] at hrun
    cases hrun
    obtain rfl := Except.ok.inj (hcontent.symm.trans hread)
    exact ⟨place, hlocate, hnot, hne, rfl, rfl⟩

/-! ## Deleting -/

/-- Removing a file makes and unmakes no directory, so that every path names what it named. -/
theorem locate_of_withoutFile {p q : Path} {place : Place} (h : w.withoutFile q = .ok v) :
    v.locate p = .ok place ↔ w.locate p = .ok place := by
  obtain ⟨target, bytes, -, hfile, rfl⟩ := withoutFile_eq_ok_iff.mp h
  have hne : target ≠ [] := by
    rintro rfl
    cases hfile
  have hback : Tree.KeepsDirectories (w.tree.remove target) w.tree := by
    intro r hr
    rw [Tree.find?_remove hne] at hr
    split_ifs at hr
    exact hr
  have hframe : Frame (· = target) w { w with tree := w.tree.remove target } :=
    .remove_file rfl hfile rfl rfl (List.prefix_refl _)
  refine ⟨fun hlocate => ?_, hframe.locate⟩
  rw [locate_eq_ok_iff] at hlocate ⊢
  exact ⟨hlocate.1, hlocate.2.1, hback.walk hlocate.2.2⟩

/-- The path leads to a file at the place. -/
def LeadsTo (w : Workspace) (p : Path) (place : Place) : Prop :=
  w.locate p = .ok place ∧ ∃ bytes, w.tree.find? place = some (.file bytes)

/-- The file that is removed is gone, everything else is there, and the other paths lead where they
led. -/
private theorem withoutFile_spec {p : Path} (h : w.withoutFile p = .ok v) :
    (∀ q, LeadsTo w p q → v.tree.find? q = none) ∧
      (∀ q, ¬LeadsTo w p q → v.tree.find? q = w.tree.find? q) ∧
      ∀ p' q, LeadsTo v p' q ↔ LeadsTo w p' q ∧ ¬LeadsTo w p q := by
  have hlocate : ∀ p' q, v.locate p' = .ok q ↔ w.locate p' = .ok q :=
    fun _ _ => locate_of_withoutFile h
  obtain ⟨target, bytes, hown, hfile, rfl⟩ := withoutFile_eq_ok_iff.mp h
  have hne : target ≠ [] := by
    rintro rfl
    cases hfile
  have hlead : ∀ q, LeadsTo w p q ↔ q = target := by
    refine fun q => ⟨fun hlead => Except.ok.inj (hlead.1.symm.trans hown), ?_⟩
    rintro rfl
    exact ⟨hown, bytes, hfile⟩
  have hremoved := fun q => Tree.find?_remove (t := w.tree) hne q
  refine ⟨fun q hq => ?_, fun q hq => ?_, fun p' q => ?_⟩
  · rw [hremoved, if_pos ((hlead q).mp hq)]
  · rw [hremoved, if_neg fun hsame => hq ((hlead q).mpr hsame)]
  · rw [hlead]
    simp only [LeadsTo, hlocate, hremoved]
    by_cases hq : q = target <;> simp [hq]

/-- Of the paths that are deleted, the files are gone, and everything else is there. -/
theorem deleteAll_spec {paths : List Path} (hrun : (deleteAll paths).runOn w = (.ok (), v)) :
    (∀ p ∈ paths, ∀ q, LeadsTo w p q → v.tree.find? q = none) ∧
      ∀ q, (∀ p ∈ paths, ¬LeadsTo w p q) → v.tree.find? q = w.tree.find? q := by
  induction paths generalizing w with
  | nil =>
      cases hrun
      exact ⟨by simp, fun _ _ => rfl⟩
  | cons p ps ih =>
      rw [deleteAll] at hrun
      obtain ⟨_, w₁, hfirst, hrest⟩ := runOn_bind_eq_ok_iff.mp hrun
      obtain ⟨hgone, hkept⟩ := ih hrest
      simp only [List.forall_mem_cons]
      rw [runOn_tryCatch, deleteFile, runOn_change] at hfirst
      cases hwithout : w.withoutFile p with
      | ok u =>
          rw [hwithout] at hfirst
          cases hfirst
          obtain ⟨hremoved, hothers, hleads⟩ := withoutFile_spec hwithout
          have hown : ∀ q, LeadsTo w p q → v.tree.find? q = none := by
            intro q hq
            rw [hkept q fun p' _ hlead => ((hleads p' q).mp hlead).2 hq]
            exact hremoved q hq
          refine ⟨⟨hown, fun p' hp' q hlead => ?_⟩, fun q ⟨hfree, hfrees⟩ => ?_⟩
          · by_cases hq : LeadsTo w p q
            · exact hown q hq
            · exact hgone p' hp' q ((hleads p' q).mpr ⟨hlead, hq⟩)
          · rw [hkept q fun p' hp' hlead => hfrees p' hp' ((hleads p' q).mp hlead).1]
            exact hothers q hfree
      | error fault =>
          have hnone : ∀ q, ¬LeadsTo w p q := by
            rintro q ⟨hlocate, bytes, hfile⟩
            rw [withoutFile_eq_ok_iff.mpr ⟨q, bytes, hlocate, hfile, rfl⟩] at hwithout
            cases hwithout
          rw [hwithout] at hfirst
          simp only at hfirst
          split at hfirst
          · cases hfirst
            exact ⟨⟨fun q hq => absurd hq (hnone q), hgone⟩, fun q hq => hkept q hq.2⟩
          · cases hfirst

/-! ## Pruning -/

/-- The names in a directory that are taken for backups of a file. -/
def Candidates (t : Tree) (dir : Place) (name : Text) : List Text :=
  (t.names dir).filter fun n => Text.startsWith n (stem name)

theorem nodup_candidates {t : Tree} (h : t.IsKeyed) : (Candidates t dir name).Nodup :=
  (h.nodup_names dir).filter _

/-- The backups of a name that a directory lists. -/
theorem runOn_existing (hname : Rune.ofChar '/' ∉ name) (hlocate : w.locate b.directory = .ok dir)
    (hdir : w.tree.find? dir = some .directory) : (b.existing name).runOn w =
      (.ok ((descending (Candidates w.tree dir name)).map b.directory.child), w) := by
  have hpattern := Path.ofText_segment (isSegment_stem hname)
  have hdirectory : b.directory.join (Path.parent ⟨.relative, [stem name]⟩) = b.directory := by
    simp [Path.parent, Path.join]
  have hthere : (isDirectory b.directory).runOn w = (.ok true, w) := by
    rw [runOn_isDirectory, node?_eq_directory_iff.mpr ⟨dir, hlocate, hdir⟩]
    rfl
  have hask : (ask (·.locate b.directory) : Work Place).runOn w = (.ok dir, w) := by
    rw [runOn_ask, hlocate]
  rw [existing, hpattern]
  simp only [ne_eq, not_true_eq_false, if_false, hdirectory]
  rw [runOn_bind_of_ok hthere]
  simp only [if_true]
  rw [runOn_bind_of_ok runOn_get, runOn_bind_of_ok hask]
  rfl

/-- What pruning drops of the names in a directory. -/
def Dropped (b : Backups) (t : Tree) (dir : Place) (name : Text) : List Text :=
  (descending (Candidates t dir name)).drop b.kept

/-- Pruning deletes the files under the names that are dropped. -/
theorem prune_spec (hname : Rune.ofChar '/' ∉ name) (hlocate : w.locate b.directory = .ok dir)
    (hdir : w.tree.find? dir = some .directory) (hrun : (b.prune name).runOn w = (.ok (), v)) :
    (∀ n ∈ b.Dropped w.tree dir name, ∀ q, LeadsTo w (b.directory.child n) q →
      v.tree.find? q = none) ∧
    ∀ q, (∀ n ∈ b.Dropped w.tree dir name, ¬LeadsTo w (b.directory.child n) q) →
      v.tree.find? q = w.tree.find? q := by
  have hold : (b.prune name).runOn w =
      (deleteAll ((b.Dropped w.tree dir name).map b.directory.child)).runOn w := by
    rw [prune, runOn_bind, runOn_tryCatch,
      runOn_bind_of_ok (runOn_existing hname hlocate hdir), runOn_pure, Dropped, List.map_drop]
  rw [hold] at hrun
  obtain ⟨hgone, hkept⟩ := deleteAll_spec hrun
  simp only [List.forall_mem_map] at hgone hkept
  exact ⟨hgone, hkept⟩

/-! ## Backing up -/

/-- The name of a backup. -/
def fileName (name : Text) (moment : DateTime) : Text := stem name ++ stampOf moment

theorem stem_isPrefix_fileName (name : Text) (moment : DateTime) :
    stem name <+: fileName name moment := List.prefix_append _ _

/-- A backup was made of a file with some bytes: once the directory is made, the copy is put at its
place, and then the files under the names that are dropped are deleted. -/
structure Stored (b : Backups) (source : Path) (w : Workspace) (bytes : Bytes)
    (w₀ w₁ : Workspace) (dir place : Place) (v : Workspace) : Prop where
  made : (ensureDirectories b.directory).runOn w = (.ok (), w₀)
  located : w₀.locate b.directory = .ok dir
  isDirectory : w₀.tree.find? dir = some .directory
  place_eq : place = if w₀.tree.find? (dir ++ [fileName source.name w.clock]) = some .directory
    then dir ++ [fileName source.name w.clock] ++ [source.name]
    else dir ++ [fileName source.name w.clock]
  reached : w₀.tree.find? (dir ++ [fileName source.name w.clock]) ≠ some .directory →
    w₀.locate (b.directory.child (fileName source.name w.clock)) = .ok place
  notDirectory : w₀.tree.find? place ≠ some .directory
  notSource : place ≠ source.resolve w.cwd
  copied : w₁.tree = w₀.tree.put place (.file bytes)
  cwd : w₁.cwd = w₀.cwd
  gone : ∀ n ∈ b.Dropped w₁.tree dir source.name, ∀ q, LeadsTo w₁ (b.directory.child n) q →
    v.tree.find? q = none
  kept : ∀ q, (∀ n ∈ b.Dropped w₁.tree dir source.name, ¬LeadsTo w₁ (b.directory.child n) q) →
    v.tree.find? q = w₁.tree.find? q

/-- The path of a backup leads to its name in the directory, or on into a directory there. -/
private theorem place_of_copy {source : Path} {moment : DateTime} {dir place : Place}
    (hsource : source.IsNamed) (hlocate : w.locate b.directory = .ok dir)
    (hplace : w.locate (if w.node? (b.backupPath source.name moment) = .ok (some .directory)
      then (b.backupPath source.name moment).child source.name
      else b.backupPath source.name moment) = .ok place)
    (hnot : w.tree.find? place ≠ some .directory) :
    (place = if w.tree.find? (dir ++ [fileName source.name moment]) = some .directory
      then dir ++ [fileName source.name moment] ++ [source.name]
      else dir ++ [fileName source.name moment]) ∧
    (w.tree.find? (dir ++ [fileName source.name moment]) ≠ some .directory →
      w.locate (b.backupPath source.name moment) = .ok place) := by
  have hdots := ne_dotDot_of_stem (stem_isPrefix_fileName source.name moment)
  have hname : (b.backupPath source.name moment).resolve w.cwd =
      dir ++ [fileName source.name moment] := by
    rw [backupPath, ← fileName, Path.resolve_child hdots, ← eq_resolve_of_locate hlocate]
  have hresolved := eq_resolve_of_locate hplace
  split_ifs at hplace hresolved with hthere
  · obtain ⟨q, hq, hqdir⟩ := node?_eq_directory_iff.mp hthere
    obtain rfl : q = dir ++ [fileName source.name moment] := (eq_resolve_of_locate hq).trans hname
    rw [Path.resolve_child hsource.isName.ne_dotDot, hname] at hresolved
    exact ⟨by rw [if_pos hqdir, hresolved], fun hnone => absurd hqdir hnone⟩
  · rw [hname] at hresolved
    rw [hresolved] at hnot
    exact ⟨by rw [if_neg hnot, hresolved], fun _ => hplace⟩

theorem create_spec {source backup : Path} {bytes : Bytes} (hsource : source.IsNamed)
    (hcontent : w.content source = .ok bytes)
    (hrun : (b.create source).runOn w = (.ok backup, v)) :
    backup = b.backupPath source.name w.clock ∧
      ∃ w₀ w₁ dir place, Stored b source w bytes w₀ w₁ dir place v := by
  rw [create] at hrun
  obtain ⟨_, w₀, hmade, hrun⟩ := runOn_bind_eq_ok_iff.mp hrun
  have hbuilds := builds_ensureDirectories b.directory w
  have hframe := @frame_ensureDirectories (fun _ => False) b.directory w
  rw [hmade] at hbuilds hframe
  obtain ⟨dir, hlocate, hdir⟩ := exists_directory_of_ensureDirectories hmade
  obtain ⟨moment, u, hnow, hrun⟩ := runOn_bind_eq_ok_iff.mp hrun
  obtain ⟨rfl, hutree, hucwd⟩ : moment = w.clock ∧ u.tree = w₀.tree ∧ u.cwd = w₀.cwd := by
    rw [runOn_now] at hnow
    cases hnow
    exact ⟨hbuilds.clock, rfl, rfl⟩
  obtain ⟨_, w₁, hcopy, hrun⟩ := runOn_bind_eq_ok_iff.mp hrun
  obtain ⟨_, u₁, hreport, hrun⟩ := runOn_bind_eq_ok_iff.mp hrun
  obtain ⟨hreported, hreportedCwd⟩ : u₁.tree = w₁.tree ∧ u₁.cwd = w₁.cwd := by
    rw [runOn_report] at hreport
    cases hreport
    exact ⟨rfl, rfl⟩
  obtain ⟨_, w₂, hprune, hrun⟩ := runOn_bind_eq_ok_iff.mp hrun
  obtain ⟨hbackup, rfl⟩ := Prod.mk.inj hrun
  refine ⟨(Except.ok.inj hbackup).symm, w₀, u₁, dir, ?_⟩
  have hcontent' : u.content source = .ok bytes := by
    rw [content_congr hutree hucwd]
    exact hframe.content hcontent id
  obtain ⟨place, hplace, hnot, hown, htree, hcwd⟩ := copy_spec hcontent' hcopy
  have hcopied : u₁.tree = w₀.tree.put place (.file bytes) := by rw [hreported, htree, hutree]
  have hcwd₁ : u₁.cwd = w₀.cwd := by rw [hreportedCwd, hcwd, hucwd]
  rw [hutree] at hnot
  have hkeeps : Tree.KeepsDirectories w₀.tree u₁.tree := by
    rw [hcopied]
    exact Tree.keepsDirectories_put_file hnot
  obtain ⟨hgone, hkept⟩ := prune_spec hsource.isName.noSlash
    (locate_of_keepsDirectories hcwd₁ hkeeps hlocate) (hkeeps _ hdir) hprune
  rw [node?_congr hutree hucwd, locate_congr hutree hucwd] at hplace
  obtain ⟨hplace_eq, hreached⟩ := place_of_copy hsource hlocate hplace hnot
  refine ⟨place, hmade, hlocate, hdir, hplace_eq, hreached, hnot, ?_, hcopied, hcwd₁, hgone, hkept⟩
  rintro rfl
  obtain ⟨own, hlocated, -⟩ := content_eq_ok_iff.mp hcontent'
  apply hown
  rw [hlocated, eq_resolve_of_locate hlocated, hucwd, hbuilds.cwd]

end TodoLedger.Backups
