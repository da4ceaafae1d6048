import TodoLedger.Proofs.Patch.Failure
import TodoLedger.Proofs.Splice
import TodoLedger.Proofs.Sync.Removal
import TodoLedger.Proofs.Text.Seam
/-!
# Line numbers after a removal

An edit that changes a file is applied exactly where a backup can be made and what it brings in has
bytes. When a line is removed the numbers of the lines behind it go down by one, unless the line was a
wedge between a carriage return and a line feed. Its neighbours are one line then, and the numbers go
down by two.
-/

namespace TodoLedger

open Work Workspace Utf8

namespace Patch

variable {b : Backups} {p : Path} {e : Edit} {w v : Workspace} {bytes : Bytes} {ls : List Line}
  {m : Text} {r : Except Fault Patch}

/-- The edit is reported as applied. -/
def IsApplied (r : Except Fault Patch) : Prop := ∃ patch, r = .ok patch ∧ patch.outcome = .applied

instance (r : Except Fault Patch) : Decidable (IsApplied r) :=
  inferInstanceAs (Decidable (∃ patch, r = .ok patch ∧ patch.outcome = .applied))

/-- A backup of the file can be made. -/
def CanSave (b : Backups) (p : Path) (w : Workspace) : Prop :=
  ∃ backup w₁, (b.create p).runOn w = (.ok backup, w₁)

theorem Ending.isApplied_iff (h : Ending b p e w bytes (r, v))
    (hedit : e.apply p (Text.lines (decode bytes)) = .ok (.changed ls m)) :
    IsApplied r ↔ CanSave b p w ∧ e.inserted.HasBytes := by
  have hfailed : ∀ fault, ¬IsApplied (.ok (failure p e fault)) := by
    rintro fault ⟨patch, ⟨⟩, happlied⟩
    cases happlied
  have hunsaved : ∀ {fault w₁}, (b.create p).runOn w = (.error fault, w₁) → ¬CanSave b p w := by
    rintro fault w₁ hcreate ⟨backup, w₂, hsaved⟩
    simp [hcreate] at hsaved
  cases h with
  | refused h => simp [hedit] at h
  | unchanged h => simp [hedit] at h
  | unsaved _ hcreate _ => exact iff_of_false (hfailed _) fun h => hunsaved hcreate h.1
  | raised _ hcreate =>
      refine iff_of_false ?_ fun h => hunsaved hcreate h.1
      rintro ⟨patch, ⟨⟩, -⟩
  | applied h hcreate hencode _ =>
      have hbytes := (Edit.hasBytes_changed h).mp (encode_eq_ok_iff.mp hencode).1
      exact iff_of_true ⟨_, rfl, rfl⟩ ⟨⟨_, _, hcreate⟩, hbytes⟩
  | spoiled h _ hencode _ =>
      refine iff_of_false (hfailed _) fun ⟨_, hbytes⟩ => ?_
      have hnew := (Edit.hasBytes_changed h).mpr hbytes
      exact Text.hasBytes_iff_encode.mp hnew _ hencode

theorem isApplied_iff {t : Text} (hw : w.tree.WellFormed)
    (hcwd : w.tree.find? w.cwd = some .directory) (hcontent : w.content (Path.ofText t) = .ok bytes)
    (hedit : e.apply (Path.ofText t) (Text.lines (decode bytes)) = .ok (.changed ls m))
    (hrun : (apply b (Path.ofText t) e).runOn w = (r, v)) :
    IsApplied r ↔ CanSave b (Path.ofText t) w ∧ e.inserted.HasBytes := by
  have hends := @apply_ends b _ e w bytes (isNamed_of_content hw hcwd hcontent) hcontent
  rw [hrun] at hends
  exact hends.isApplied_iff hedit

/-- What is read from a file that an edit was applied to. -/
theorem content_of_isApplied (hcontent : w.content p = .ok bytes)
    (hedit : e.apply p (Text.lines (decode bytes)) = .ok (.changed ls m))
    (hrun : (apply b p e).runOn w = (r, v)) (happlied : IsApplied r) :
    v.content p = .ok (bytesOf (Text.ofLines ls)) := by
  obtain ⟨patch, rfl, houtcome⟩ := happlied
  have hchange : patch.isChange = true := by rw [isChange, houtcome]; rfl
  obtain ⟨bytes', ls', m', hcontent', hedit', hafter⟩ := isWritten_of_isChange hrun hchange
  obtain rfl := Except.ok.inj (hcontent.symm.trans hcontent')
  obtain ⟨rfl, -⟩ := Edited.changed.inj (Except.ok.inj (hedit.symm.trans hedit'))
  exact hafter

/-- How the physical lines of a file change when one of them is removed. -/
structure Shifts (before after : List Line) (n : Nat) : Prop where
  /-- The others are left, each above the next. -/
  others : after = before.eraseIdx n ↔ ¬Text.IsWedge before n
  /-- Without a wedge its neighbours are one line, and all others are left. -/
  joined : Text.IsWedge before n → ∃ front body l back,
    before = front ++ ⟨body, .cr⟩ :: l :: ⟨[], .lf⟩ :: back ∧ n = front.length + 1 ∧
      after = front ++ ⟨body, .crlf⟩ :: back

/-- The removal of a line is applied exactly where a backup can be made, and shifts the lines. -/
theorem removeLine_shifts (b : Backups) (t : Text) (n : Nat) (w v : Workspace) (bytes : Bytes)
    (r : Except Fault Patch) (hw : w.tree.WellFormed)
    (hcwd : w.tree.find? w.cwd = some .directory) (hcontent : w.content (Path.ofText t) = .ok bytes)
    (hpos : 1 ≤ n) (hn : n ≤ (Text.lines (decode bytes)).length)
    (hrun : (apply b (Path.ofText t) (.removeLine n)).runOn w = (r, v)) :
    (IsApplied r ↔ CanSave b (Path.ofText t) w) ∧
      (IsApplied r → ∃ after, v.content (Path.ofText t) = .ok after ∧
        Shifts (Text.lines (decode bytes)) (Text.lines (decode after)) (n - 1)) := by
  obtain ⟨m, hedit⟩ := Edit.apply_removeLine_of_le (p := Path.ofText t) hpos hn
  have hcut := Text.wellCut_lines (decode bytes)
  have hstable := Text.isStable_ofLines_of_sublist (isStable_decode bytes)
    (List.eraseIdx_sublist (Text.lines (decode bytes)) (n - 1))
  constructor
  · rw [isApplied_iff hw hcwd hcontent hedit hrun]
    exact and_iff_left (List.forall_mem_nil _)
  · intro happlied
    refine ⟨_, content_of_isApplied hcontent hedit hrun happlied, ?_⟩
    rw [hstable.decode_bytesOf]
    exact {
      others := Text.lines_eraseIdx_iff hcut (by omega)
      joined := Text.lines_eraseIdx_of_isWedge hcut }

/-! ## Mixed line ends -/

/-- A line between a carriage return and an empty line, and a task below. -/
def wedged : Workspace := .ofFiles ["w"] [("a.py", "a\rx\n\n# TODO: b\n")]

theorem removeLine_shifts_wedged : ∃ r v bytes,
    wedged.tree.WellFormed ∧ wedged.tree.find? wedged.cwd = some .directory ∧
      wedged.content (Path.ofText "a.py") = .ok bytes ∧ 3 ≤ (Text.lines (decode bytes)).length ∧
      (apply ⟨⟨.relative, ["kept"]⟩, 1⟩ (Path.ofText "a.py") (.removeLine 3)).runOn wedged = (r, v) ∧
      IsApplied r ∧ ∃ after, v.content (Path.ofText "a.py") = .ok after ∧
        Text.lines (decode after) = [⟨"a", .cr⟩, ⟨"x", .lf⟩, ⟨"# TODO: b", .lf⟩] := by
  have hw : wedged.tree.WellFormed := Tree.wellFormed_of_plain (by decide +kernel)
  have hcwd : wedged.tree.find? wedged.cwd = some .directory := by decide +kernel
  obtain ⟨bytes, hcontent, hlines⟩ : ∃ bytes, wedged.content (Path.ofText "a.py") = .ok bytes ∧
      Text.lines (decode bytes) =
        [⟨"a", .cr⟩, ⟨"x", .lf⟩, ⟨[], .lf⟩, ⟨"# TODO: b", .lf⟩] := by
    decide +kernel
  have hlength : 3 ≤ (Text.lines (decode bytes)).length := by rw [hlines]; decide
  have happlied : IsApplied ((apply ⟨⟨.relative, ["kept"]⟩, 1⟩ (Path.ofText "a.py")
      (.removeLine 3)).runOn wedged).1 := by
    decide +kernel
  obtain ⟨after, hafter, hshifts⟩ := (removeLine_shifts ⟨⟨.relative, ["kept"]⟩, 1⟩ "a.py" 3 wedged _
    bytes _ hw hcwd hcontent (by decide) hlength rfl).2 happlied
  rw [hlines] at hshifts
  exact ⟨_, _, bytes, hw, hcwd, hcontent, hlength, rfl, happlied, after, hafter,
    hshifts.others.mpr (by decide)⟩

/-- Without the second line the first one ends in the empty line, and the task goes up by two. -/
theorem removeLine_joins_neighbours :
    Text.lines (wedged.textAt (Path.ofText "a.py")) =
        [⟨"a", .cr⟩, ⟨"x", .lf⟩, ⟨[], .lf⟩, ⟨"# TODO: b", .lf⟩] ∧
      IsApplied ((apply ⟨⟨.relative, ["kept"]⟩, 1⟩ (Path.ofText "a.py")
        (.removeLine 2)).runOn wedged).1 ∧
      Text.lines (((apply ⟨⟨.relative, ["kept"]⟩, 1⟩ (Path.ofText "a.py")
          (.removeLine 2)).runOn wedged).2.textAt (Path.ofText "a.py")) =
        [⟨"a", .crlf⟩, ⟨"# TODO: b", .lf⟩] ∧
      ¬Text.lines (((apply ⟨⟨.relative, ["kept"]⟩, 1⟩ (Path.ofText "a.py")
          (.removeLine 2)).runOn wedged).2.textAt (Path.ofText "a.py")) =
        (Text.lines (wedged.textAt (Path.ofText "a.py"))).eraseIdx 1 := by
  decide +kernel

end Patch

end TodoLedger
