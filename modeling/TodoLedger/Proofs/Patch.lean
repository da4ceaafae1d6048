import TodoLedger.Patch
import TodoLedger.Proofs.Backup
import TodoLedger.Proofs.Text.Stable
import TodoLedger.Proofs.Workspace.Write
/-!
# What a patch does

`Patch.Ending` lists the ways in which an edit of a file can end, with the workspace that each
leaves: the edit is refused or makes no change, no backup can be made, or behind the backup the new
text is written or has no bytes. `apply_ends` states that there are no others. Where the new text has
bytes `Patch.Step` says the same in terms of the places that are touched.
-/

namespace TodoLedger

open Work Workspace Utf8

namespace Patch

/-- The places that an edit of a file may touch: that of the file and those of the backups. -/
def Touches (b : Backups) (p : Path) (cwd place : Place) : Prop :=
  place = p.resolve cwd ∨ b.Covers cwd place

/-- The places that an edit of a file may touch: that of the file and those of its own backups. -/
def Reaches (b : Backups) (p : Path) (cwd place : Place) : Prop :=
  place = p.resolve cwd ∨ b.Holds p.name cwd place

theorem Reaches.touches {b : Backups} {p : Path} {cwd place : Place} (h : Reaches b p cwd place) :
    Touches b p cwd place := h.imp_right Backups.Holds.covers

def failure (p : Path) (e : Edit) (fault : Fault) : Patch :=
  ⟨p, .failed, "Failed to " ++ e.operation.name ++ ": " ++ fault.message⟩

def failureEvent (p : Path) (e : Edit) (fault : Fault) : Event :=
  .editFailed p e.operation fault.message fault.kind

/-- How an edit of a file with some content ends. -/
inductive Ending (b : Backups) (p : Path) (e : Edit) (w : Workspace) (bytes : Bytes) :
    Except Fault Patch × Workspace → Prop
  | refused {fault : Fault} : e.apply p (Text.lines (decode bytes)) = .error fault →
      Ending b p e w bytes
        (.ok (failure p e fault), { w with events := w.events ++ [failureEvent p e fault] })
  | unchanged {m : Text} : e.apply p (Text.lines (decode bytes)) = .ok (.unchanged m) →
      Ending b p e w bytes
        (.ok ⟨p, .unchanged, m⟩, { w with events := w.events ++ [.editUnchanged p e.operation] })
  | unsaved {ls : List Line} {m : Text} {w₁ : Workspace} {fault : Fault} :
      e.apply p (Text.lines (decode bytes)) = .ok (.changed ls m) →
      (b.create p).runOn w = (.error fault, w₁) → fault.isReported = true →
      Ending b p e w bytes
        (.ok (failure p e fault), { w₁ with events := w₁.events ++ [failureEvent p e fault] })
  | raised {ls : List Line} {m : Text} {w₁ : Workspace} :
      e.apply p (Text.lines (decode bytes)) = .ok (.changed ls m) →
      (b.create p).runOn w = (.error .nullByte, w₁) →
      Ending b p e w bytes (.error .nullByte, w₁)
  | applied {ls : List Line} {m : Text} {backup : Path} {w₁ v : Workspace} :
      e.apply p (Text.lines (decode bytes)) = .ok (.changed ls m) →
      (b.create p).runOn w = (.ok backup, w₁) →
      encode (Text.ofLines ls) = .ok (bytesOf (Text.ofLines ls)) →
      w₁.withContent p (bytesOf (Text.ofLines ls)) = .ok v →
      Ending b p e w bytes
        (.ok ⟨p, .applied, m⟩, { v with events := v.events ++ [.editApplied p e.operation] })
  | spoiled {ls : List Line} {m : Text} {backup : Path} {w₁ v : Workspace} {f : EncodingFault} :
      e.apply p (Text.lines (decode bytes)) = .ok (.changed ls m) →
      (b.create p).runOn w = (.ok backup, w₁) → encode (Text.ofLines ls) = .error f →
      w₁.withContent p [] = .ok v →
      Ending b p e w bytes (.ok (failure p e (.encoding f)),
        { v with events := v.events ++ [failureEvent p e (.encoding f)] })

/-- How an edit of a file with some content ends where its text has bytes. -/
inductive Step (b : Backups) (p : Path) (e : Edit) (w : Workspace) (bytes : Bytes) :
    Except Fault Patch × Workspace → Prop
  | refused {fault : Fault} : e.apply p (Text.lines (decode bytes)) = .error fault →
      Step b p e w bytes
        (.ok (failure p e fault), { w with events := w.events ++ [failureEvent p e fault] })
  | unchanged {m : Text} : e.apply p (Text.lines (decode bytes)) = .ok (.unchanged m) →
      Step b p e w bytes
        (.ok ⟨p, .unchanged, m⟩, { w with events := w.events ++ [.editUnchanged p e.operation] })
  | applied {ls : List Line} {m : Text} {w₁ v : Workspace} :
      e.apply p (Text.lines (decode bytes)) = .ok (.changed ls m) →
      Frame (b.Holds p.name w.cwd) w w₁ → w₁.withContent p (bytesOf (Text.ofLines ls)) = .ok v →
      Step b p e w bytes
        (.ok ⟨p, .applied, m⟩, { v with events := v.events ++ [.editApplied p e.operation] })
  | failed {ls : List Line} {m : Text} {w₁ : Workspace} {fault : Fault} :
      e.apply p (Text.lines (decode bytes)) = .ok (.changed ls m) →
      Frame (b.Holds p.name w.cwd) w w₁ → fault.IsOfFiles → fault.isReported = true →
      Step b p e w bytes
        (.ok (failure p e fault), { w₁ with events := w₁.events ++ [failureEvent p e fault] })
  | raised {ls : List Line} {m : Text} {w₁ : Workspace} {fault : Fault} :
      e.apply p (Text.lines (decode bytes)) = .ok (.changed ls m) →
      Frame (b.Holds p.name w.cwd) w w₁ → fault.IsOfFiles → fault.isReported = false →
      Step b p e w bytes (.error fault, w₁)

variable {b : Backups} {p : Path} {e : Edit} {w w' : Workspace} {bytes : Bytes}

theorem isReported_of_refused {fault : Fault} {ls : List Line}
    (h : e.apply p ls = .error fault) : fault = .lineOutOfRange e.target p := by
  rw [Edit.apply] at h
  split at h
  · exact (Except.error.inj h).symm
  · split at h <;> cases h

private theorem runOn_isFile_of_content (h : w.content p = .ok bytes) :
    (isFile p).runOn w = (.ok true, w) := by
  rw [runOn_isFile, node?_eq_file_iff.mpr h]
  rfl

/-- An edit that ends in a fault is reported, or the fault is passed on. -/
private theorem runOn_apply_of_error {fault : Fault} {w₁ : Workspace}
    (hcontent : w.content p = .ok bytes) (h : (attempt b p e).runOn w = (.error fault, w₁)) :
    (apply b p e).runOn w =
      if fault.isReported then
        (.ok (failure p e fault), { w₁ with events := w₁.events ++ [failureEvent p e fault] })
      else (.error fault, w₁) := by
  rw [apply, runOn_bind_of_ok (runOn_isFile_of_content hcontent)]
  simp only [Bool.not_true, Bool.false_eq_true, if_false]
  rw [runOn_tryCatch, runOn_bind_of_error h]
  simp only
  split_ifs
  · rw [runOn_bind_of_ok (runOn_report _)]
    rfl
  · rfl

private theorem runOn_apply_of_ok {patch : Patch} {w₁ : Workspace}
    (hcontent : w.content p = .ok bytes) (h : (attempt b p e).runOn w = (.ok patch, w₁)) :
    (apply b p e).runOn w = (.ok patch,
      if patch.isChange then { w₁ with events := w₁.events ++ [.editApplied p e.operation] }
      else w₁) := by
  rw [apply, runOn_bind_of_ok (runOn_isFile_of_content hcontent)]
  simp only [Bool.not_true, Bool.false_eq_true, if_false]
  rw [runOn_tryCatch, runOn_bind_of_ok h]
  split_ifs
  · rw [runOn_bind_of_ok (runOn_report _)]
    rfl
  · rfl

private theorem runOn_attempt (hcontent : w.content p = .ok bytes) : (attempt b p e).runOn w =
    match e.apply p (Text.lines (decode bytes)) with
    | .error fault => (.error fault, w)
    | .ok (.unchanged m) => (.ok ⟨p, .unchanged, m⟩,
        { w with events := w.events ++ [.editUnchanged p e.operation] })
    | .ok (.changed ls m) => (do
        let _ ← b.create p
        writeText p (Text.ofLines ls)
        return (⟨p, .applied, m⟩ : Patch)).runOn w := by
  have hread : (readText p).runOn w = (.ok (decode bytes), w) := by
    rw [runOn_readText, hcontent]
    rfl
  rw [attempt, runOn_bind_of_ok hread, runOn_bind, runOn_ask]
  rcases e.apply p (Text.lines (decode bytes)) with fault | edited
  · rfl
  · cases edited <;> rfl

/-- An edit that changes something ends with the backup or with the new text. -/
private theorem ends_of_changed {ls : List Line} {m : Text} (hp : p.IsNamed)
    (hcontent : w.content p = .ok bytes)
    (hedit : e.apply p (Text.lines (decode bytes)) = .ok (.changed ls m)) :
    Ending b p e w bytes ((apply b p e).runOn w) := by
  have hattempt := @runOn_attempt b p e w bytes hcontent
  rw [hedit] at hattempt
  simp only at hattempt
  rcases hcreate : (b.create p).runOn w with ⟨fault | backup, w₁⟩
  · rw [runOn_bind_of_error hcreate] at hattempt
    rw [runOn_apply_of_error hcontent hattempt]
    have hfault : fault.IsOfFiles := Backups.failsIn_create hp.isName.noSlash _ _ hcreate
    split_ifs with hreported
    · exact .unsaved hedit hcreate hreported
    · obtain rfl := hfault.isReported_or.resolve_left hreported
      exact .raised hedit hcreate
  · rw [runOn_bind_of_ok hcreate] at hattempt
    have hsame := Backups.content_of_create (b := b) hp hcontent
    rw [hcreate] at hsame
    cases hencode : encode (Text.ofLines ls) with
    | ok new =>
        obtain rfl := (encode_eq_ok_iff.mp hencode).2
        obtain ⟨v, hwrite⟩ := exists_withContent_of_content hp hsame (bytesOf (Text.ofLines ls))
        rw [runOn_bind, runOn_writeText hencode, runOn_writeBytes, hwrite] at hattempt
        rw [runOn_apply_of_ok hcontent hattempt]
        exact .applied hedit hcreate hencode hwrite
    | error f =>
        obtain ⟨v, hempty⟩ := exists_withContent_of_content hp hsame []
        have hwrite : (writeText p (Text.ofLines ls)).runOn w₁ = (.error (.encoding f), v) := by
          rw [writeText, runOn_bind, runOn_writeBytes, hempty]
          simp only [hencode, runOn_throw]
        rw [runOn_bind_of_error hwrite] at hattempt
        rw [runOn_apply_of_error hcontent hattempt]
        exact .spoiled hedit hcreate hencode hempty

theorem apply_ends (hp : p.IsNamed) (hcontent : w.content p = .ok bytes) :
    Ending b p e w bytes ((apply b p e).runOn w) := by
  have hattempt := @runOn_attempt b p e w bytes hcontent
  cases hedit : e.apply p (Text.lines (decode bytes)) with
  | error fault =>
      rw [hedit] at hattempt
      have hreported : fault.isReported = true := by
        rw [isReported_of_refused hedit]
        rfl
      rw [runOn_apply_of_error hcontent hattempt, if_pos hreported]
      exact .refused hedit
  | ok edited =>
      cases edited with
      | unchanged m =>
          rw [hedit] at hattempt
          rw [runOn_apply_of_ok hcontent hattempt]
          exact .unchanged hedit
      | changed ls m => exact ends_of_changed hp hcontent hedit

/-- An edit leaves the file alone with a message exactly if the edit of its lines does. -/
theorem apply_eq_unchanged_iff {m : Text} (hcontent : w.content p = .ok bytes) :
    ((apply b p e).runOn w).1 = .ok ⟨p, .unchanged, m⟩ ↔
      e.apply p (Text.lines (decode bytes)) = .ok (.unchanged m) := by
  have hattempt := @runOn_attempt b p e w bytes hcontent
  have hfailed : ∀ {fault w₁}, (attempt b p e).runOn w = (.error fault, w₁) →
      ((apply b p e).runOn w).1 ≠ .ok ⟨p, .unchanged, m⟩ := by
    intro fault w₁ hend
    rw [runOn_apply_of_error hcontent hend]
    split_ifs
    · intro h
      cases congrArg Patch.outcome (Except.ok.inj h)
    · exact fun h => nomatch h
  cases hedit : e.apply p (Text.lines (decode bytes)) with
  | error fault =>
      rw [hedit] at hattempt
      exact iff_of_false (hfailed hattempt) fun h => nomatch h
  | ok edited =>
      rw [hedit] at hattempt
      cases edited with
      | unchanged m' =>
          rw [runOn_apply_of_ok hcontent hattempt]
          simp
      | changed ls m' =>
          refine iff_of_false ?_ fun h => nomatch h
          rcases hend : (attempt b p e).runOn w with ⟨fault | patch, w₁⟩
          · exact hfailed hend
          · have happlied : patch = ⟨p, .applied, m'⟩ := by
              obtain ⟨backup, w₂, -, hrest⟩ := runOn_bind_eq_ok_iff.mp (hattempt.symm.trans hend)
              obtain ⟨-, w₃, -, hreturn⟩ := runOn_bind_eq_ok_iff.mp hrest
              exact (Except.ok.inj (congrArg Prod.fst hreturn)).symm
            rw [runOn_apply_of_ok hcontent hend, happlied]
            intro h
            cases congrArg Patch.outcome (Except.ok.inj h)

theorem frame_of_create {r : Except Fault Path} {w₁ : Workspace} (hp : p.IsNamed)
    (h : (b.create p).runOn w = (r, w₁)) : Frame (b.Holds p.name w.cwd) w w₁ := by
  have hframe := Backups.frame_create (b := b) (w := w) hp
  rw [h] at hframe
  exact hframe.mono fun _ => And.left

theorem Ending.step {r : Except Fault Patch × Workspace} (hp : p.IsNamed)
    (h : Ending b p e w bytes r)
    (hstable : ∀ ls m, e.apply p (Text.lines (decode bytes)) = .ok (.changed ls m) →
      IsStable (Text.ofLines ls)) : Step b p e w bytes r := by
  cases h with
  | refused hedit => exact .refused hedit
  | unchanged hedit => exact .unchanged hedit
  | unsaved hedit hcreate hreported =>
      exact .failed hedit (frame_of_create hp hcreate)
        (Backups.failsIn_create hp.isName.noSlash _ _ hcreate) hreported
  | raised hedit hcreate => exact .raised hedit (frame_of_create hp hcreate) .nullByte rfl
  | applied hedit hcreate _ hwrite => exact .applied hedit (frame_of_create hp hcreate) hwrite
  | spoiled hedit _ hencode _ =>
      rw [(hstable _ _ hedit).encode] at hencode
      cases hencode

theorem apply_step (hp : p.IsNamed) (hcontent : w.content p = .ok bytes)
    (hstable : ∀ ls m, e.apply p (Text.lines (decode bytes)) = .ok (.changed ls m) →
      IsStable (Text.ofLines ls)) : Step b p e w bytes ((apply b p e).runOn w) :=
  (apply_ends hp hcontent).step hp hstable

/-- The edit was written, and no file was touched but its own and its backups. -/
structure Writes (b : Backups) (p : Path) (e : Edit) (bytes : Bytes) (ls : List Line)
    (w w' : Workspace) : Prop where
  edited : ∃ m, e.apply p (Text.lines (decode bytes)) = .ok (.changed ls m)
  after : w'.content p = .ok (bytesOf (Text.ofLines ls))
  frame : Frame (Reaches b p w.cwd) w w'

/-- An edit leaves all files but backups alone or is written. -/
theorem Step.effect {r : Except Fault Patch × Workspace} (h : Step b p e w bytes r) :
    (Frame (b.Holds p.name w.cwd) w r.2 ∧ ∀ patch, r.1 = .ok patch → patch.isChange = false) ∨
      ∃ patch ls, r.1 = .ok patch ∧ patch.isChange = true ∧ Writes b p e bytes ls w r.2 := by
  cases h with
  | refused _ =>
      refine Or.inl ⟨.of_tree_eq rfl rfl (List.prefix_append _ _), ?_⟩
      rintro patch ⟨⟩
      rfl
  | unchanged _ =>
      refine Or.inl ⟨.of_tree_eq rfl rfl (List.prefix_append _ _), ?_⟩
      rintro patch ⟨⟩
      rfl
  | @applied ls m w₁ v hedit hframe hwrite =>
      have hafter := content_of_withContent hwrite
      obtain ⟨place, hlocate, hnot, -, rfl⟩ := withContent_eq_ok_iff.mp hwrite
      have hplace : place = p.resolve w.cwd := by
        rw [eq_resolve_of_locate hlocate, hframe.cwd]
      have hrest : Frame (Reaches b p w.cwd) w₁
          { w₁ with
            tree := w₁.tree.put place (.file (bytesOf (Text.ofLines ls)))
            events := w₁.events ++ [.editApplied p e.operation] } :=
        .put_file (Or.inl hplace) hnot rfl rfl (List.prefix_append _ _)
      exact Or.inr ⟨_, ls, rfl, rfl, ⟨m, hedit⟩, hafter, (hframe.mono fun _ => Or.inr).trans hrest⟩
  | failed _ hframe _ _ =>
      refine Or.inl ⟨hframe.trans (.of_tree_eq rfl rfl (List.prefix_append _ _)), ?_⟩
      rintro patch ⟨⟩
      rfl
  | raised _ hframe _ _ => exact Or.inl ⟨hframe, by simp⟩

/-- However an edit ends, it touches no file but its own and its backups. -/
theorem frame_apply (hp : p.IsNamed) : Frame (Reaches b p w.cwd) w ((apply b p e).runOn w).2 := by
  have hattempt : ∀ v : Workspace, Frame (Reaches b p v.cwd) v ((attempt b p e).runOn v).2 := by
    intro v
    rw [attempt]
    refine moves_bind (moves_of_unchanged (by rw [runOn_readText])) fun text w₁ _ h₁ => ?_
    refine moves_bind (moves_of_unchanged (by rw [runOn_ask])) fun edited w₂ _ h₂ => ?_
    cases edited with
    | unchanged m => exact moves_bind (frame_report _) fun _ w₃ _ _ => .refl w₃
    | changed ls m =>
        have hcwd : w₂.cwd = v.cwd := h₂.cwd.trans h₁.cwd
        refine moves_bind ?_ fun _ w₃ _ h₃ => moves_bind (frame_writeText ?_) fun _ w₄ _ _ => .refl w₄
        · rw [← hcwd]
          exact (Backups.frame_create hp).mono fun _ h => Or.inr h.1
        · exact Or.inl (by rw [h₃.cwd, hcwd])
  rw [apply]
  refine moves_bind (moves_of_unchanged (isFile_unchanged p w)) fun there w₁ _ h₁ => ?_
  cases there with
  | false => exact .refl w₁
  | true =>
      rw [← h₁.cwd]
      simp only [Bool.not_true, Bool.false_eq_true, if_false]
      refine moves_tryCatch (moves_bind (hattempt w₁) fun patch w₂ _ _ => ?_) fun fault w₂ _ _ => ?_
      · split_ifs
        · exact moves_bind (frame_report _) fun _ w₃ _ _ => .refl w₃
        · exact .refl w₂
      · split_ifs
        · exact moves_bind (frame_report _) fun _ w₃ _ _ => .refl w₃
        · exact .refl w₂

/-- The only fault that an edit passes on is that of a path with a null character. -/
theorem Step.error_eq {r : Except Fault Patch × Workspace} (h : Step b p e w bytes r)
    {fault : Fault} (hr : r.1 = .error fault) : fault = .nullByte := by
  cases h with
  | refused _ => cases hr
  | unchanged _ => cases hr
  | applied _ _ _ => cases hr
  | failed _ _ _ _ => cases hr
  | raised _ _ hfault hreported =>
      cases hr
      rcases hfault.isReported_or with htrue | hnull
      · rw [htrue] at hreported
        cases hreported
      · exact hnull

/-- A patch fails only where an operation on files fails or the file is missing, or where the name is not
one of a file. -/
theorem failsIn_apply_of {P : Fault → Prop} (hfiles : ∀ f, Fault.IsOfFiles f → P f)
    (hanchored : Rune.ofChar '/' ∈ p.name → P .anchoredPattern) (w : Workspace) :
    FailsIn (fun f => P f ∨ f = .sourceMissing p) (apply b p e) w := by
  have hfile := Fault.Admits.of_isOfFiles hfiles p
  have hattempt : ∀ v, FailsIn (fun f => P f ∨ f = .lineOutOfRange e.target p) (attempt b p e) v := by
    intro v
    rw [attempt]
    refine failsIn_bind ?_ fun text w₁ _ => failsIn_bind ?_ fun edited w₂ _ => ?_
    · rw [readText]
      exact failsIn_bind (fun f u h => Or.inl (failsIn_readBytes hfile f u h)) fun _ _ _ => failsIn_pure _
    · exact failsIn_ask fun f h => Or.inr (isReported_of_refused h)
    · cases edited with
      | unchanged m => exact failsIn_bind (failsIn_of_ok (runOn_report _)) fun _ _ _ => failsIn_pure _
      | changed ls m =>
          refine failsIn_bind
            (fun f u h => Or.inl (Backups.failsIn_create_of hfiles hanchored f u h)) fun _ w₃ _ => ?_
          refine failsIn_bind (fun f u h => Or.inl ?_) fun _ _ _ => failsIn_pure _
          exact failsIn_writeText hfile (fun f _ => hfiles _ (.encoding f)) f u h
  rw [apply]
  refine failsIn_bind (fun f u h => Or.inl (failsIn_isFile hfile f u h)) fun there w₁ _ => ?_
  cases there with
  | false => exact failsIn_bind (failsIn_throw (Or.inr rfl)) fun _ _ h => by cases h
  | true =>
      simp only [Bool.not_true, Bool.false_eq_true, if_false]
      refine failsIn_handled (failsIn_bind (hattempt w₁) fun patch w₂ _ => ?_) fun f w₂ _ hf => ?_
      · split_ifs
        · exact failsIn_bind (failsIn_of_ok (runOn_report _)) fun _ _ _ => failsIn_pure _
        · exact failsIn_pure _
      · split_ifs with hreported
        · exact failsIn_bind (failsIn_of_ok (runOn_report _)) fun _ _ _ => failsIn_pure _
        · rcases hf with hfault | rfl
          · exact failsIn_throw (Or.inl hfault)
          · exact absurd rfl hreported

/-- A patch fails only where an operation on files fails, or because the file is missing. -/
theorem failsIn_apply (hslash : Rune.ofChar '/' ∉ p.name) (w : Workspace) :
    FailsIn (fun f => f.IsOfFiles ∨ f = .sourceMissing p) (apply b p e) w :=
  failsIn_apply_of (fun _ hfault => hfault) (fun hmem => absurd hmem hslash) w

/-- Where no file is, a patch ends at once. -/
theorem apply_missing (h : ∀ bytes, w.content p ≠ .ok bytes) :
    ∃ fault, (apply b p e).runOn w = (.error fault, w) := by
  have hfile : ∀ n, w.node? p = .ok n → isFileNode n = false := by
    intro n hn
    cases n with
    | none => rfl
    | some node =>
        cases node with
        | directory => rfl
        | file bytes => exact absurd (node?_eq_file_iff.mp hn) (h bytes)
  rw [apply, runOn_bind, runOn_isFile]
  cases hnode : w.node? p with
  | error fault => exact ⟨fault, rfl⟩
  | ok n =>
      simp only [Except.map, hfile n hnode]
      exact ⟨_, rfl⟩

theorem exists_content_of_ok {patch : Patch} (h : (apply b p e).runOn w = (.ok patch, w')) :
    ∃ bytes, w.content p = .ok bytes := by
  by_contra hnone
  obtain ⟨fault, hmissing⟩ :=
    apply_missing (b := b) (e := e) fun bytes hcontent => hnone ⟨bytes, hcontent⟩
  rw [hmissing] at h
  cases h

end Patch

end TodoLedger
