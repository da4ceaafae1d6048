import TodoLedger.Proofs.Comment.Keyword
import TodoLedger.Proofs.Comment.Syntax
import TodoLedger.Proofs.Edit
import TodoLedger.Proofs.Patch
import TodoLedger.Proofs.Workspace.Sample
import TodoLedger.Proofs.Workspace.WellFormed
/-!
# Edits that fail

An edit that is not applied leaves its file as it was, whether it is refused, makes no change or
cannot be backed up. The exception is an edit that brings in characters without bytes: a marker or a
note with half of a surrogate pair. The file is emptied before the new text is encoded, and when that
fails it stays empty.
-/

namespace TodoLedger

open Work Workspace Utf8

/-- All characters of the text have bytes. -/
def Text.HasBytes (t : Text) : Prop := ∀ c ∈ t, isEncodable c = true

instance (t : Text) : Decidable t.HasBytes := inferInstanceAs (Decidable (∀ c ∈ t, _))

namespace Text

variable {s t : Text}

@[simp] theorem hasBytes_append : HasBytes (s ++ t) ↔ HasBytes s ∧ HasBytes t :=
  List.forall_mem_append

theorem HasBytes.of_infix (h : HasBytes t) (hs : s <:+: t) : HasBytes s := fun c hc =>
  h c (hs.subset hc)

theorem hasBytes_iff_encode : HasBytes t ↔ ∀ f, encode t ≠ .error f := by
  constructor
  · intro h f hf
    rw [encode_eq h] at hf
    cases hf
  · intro h
    cases hencode : encode t with
    | ok bytes => exact (encode_eq_ok_iff.mp hencode).1
    | error f => exact absurd hencode (h f)

theorem hasBytes_ending (e : Ending) : HasBytes e.text := by
  cases e <;> decide

theorem hasBytes_ofLines {ls : List Line} (h : ∀ l ∈ ls, HasBytes l.body) :
    HasBytes (ofLines ls) := by
  induction ls with
  | nil => exact List.forall_mem_nil _
  | cons l ls ih =>
      obtain ⟨hl, hls⟩ := List.forall_mem_cons.mp h
      rw [ofLines_cons, Line.text]
      exact hasBytes_append.mpr ⟨hasBytes_append.mpr ⟨hl, hasBytes_ending _⟩, ih hls⟩

end Text

theorem CommentSyntax.hasBytes_wrap_iff {path : Path} {t : Text} :
    ((ofPath path).wrap t).HasBytes ↔ t.HasBytes := by
  have hall : ∀ f ∈ families, f.1.opening.HasBytes ∧ f.1.closing.HasBytes := by
    decide +kernel
  obtain ⟨f, hf, hfamily⟩ := exists_family path
  obtain ⟨hopening, hclosing⟩ := hall f hf
  rw [hfamily] at hopening hclosing
  have hblank : Text.HasBytes " " := by decide
  rw [wrap]
  split_ifs <;> simp [hopening, hclosing, hblank]

namespace Edit

variable {e : Edit} {p : Path} {bytes : Bytes} {ls new : List Line} {l : Line} {m : Text}

/-- What the edit brings into the file from outside. -/
def inserted : Edit → Text
  | insertMarker _ id => id
  | removeLine _ => []
  | commentOut _ note => note

/-- The edited line has bytes exactly where what is brought in has. -/
private theorem hasBytes_applyLine (hl : l.body.HasBytes)
    (h : e.applyLine (CommentSyntax.ofPath p) l = .ok (new, m)) :
    (Text.ofLines new).HasBytes ↔ e.inserted.HasBytes := by
  have hending := Text.hasBytes_ending l.ending
  cases e with
  | insertMarker task id =>
      rw [applyLine] at h
      split_ifs at h
      cases hbody : markedBody? task.column id l.body with
      | none =>
          rw [hbody] at h
          cases h
      | some body =>
          rw [hbody] at h
          cases h
          obtain ⟨before, word, rest, hmarked, rfl⟩ := markedBody?_eq_some hbody
          have hsplit : l.body = before ++ (word ++ Rune.ofChar ':' :: rest) := by
            rcases hmarked with hfirst | ⟨-, hfirst⟩
            · exact hfirst.isKeyword.split
            · exact hfirst.isKeyword.split
          have hbefore : before.HasBytes := hl.of_infix ⟨[], _, by rw [hsplit, List.nil_append]⟩
          have hword : word.HasBytes := hl.of_infix ⟨before, _, by rw [hsplit, List.append_assoc]⟩
          have hrest : Text.HasBytes (rest.dropWhile Rune.isSpaceOrTab) := by
            refine Text.HasBytes.of_infix (t := rest) ?_ (List.dropWhile_suffix _).isInfix
            exact hl.of_infix ⟨before ++ (word ++ [Rune.ofChar ':']), [], by simp [hsplit]⟩
          have hcolon : Text.HasBytes ": " := by decide
          have hopening : Text.HasBytes Marker.opening := by decide
          have hclosing : Text.HasBytes "]" := by decide
          have hblank : Text.HasBytes " " := by decide
          simp [Text.ofLines, Line.text, inserted, Marker.text, *]
  | removeLine line =>
      cases h
      exact iff_of_true (List.forall_mem_nil _) (List.forall_mem_nil _)
  | commentOut line note =>
      cases h
      have hindent : (Text.indent l.body).HasBytes :=
        hl.of_infix (List.takeWhile_prefix _).isInfix
      have htrim : (Text.trim l.body).HasBytes := hl.of_infix (Text.trim_isInfix _)
      have hblank : Text.HasBytes " " := by decide
      simp [Text.ofLines, Line.text, inserted, commentedBody, CommentSyntax.hasBytes_wrap_iff, *]

/-- The new text of a file has bytes exactly where what is brought in has. -/
theorem hasBytes_changed
    (h : e.apply p (Text.lines (decode bytes)) = .ok (.changed ls m)) :
    (Text.ofLines ls).HasBytes ↔ e.inserted.HasBytes := by
  obtain ⟨front, l, back, new, hlines, -, hnew, rfl⟩ := apply_eq_changed h
  have hall : ∀ k ∈ front ++ l :: back, k.body.HasBytes := by
    intro k hk
    rw [← hlines] at hk
    exact (Text.isStable_of_mem_lines (isStable_decode bytes) hk).isEncodable
  have hfront : (Text.ofLines front).HasBytes :=
    Text.hasBytes_ofLines fun k hk => hall k (List.mem_append_left _ hk)
  have hback : (Text.ofLines back).HasBytes := Text.hasBytes_ofLines fun k hk =>
    hall k (List.mem_append_right _ (List.mem_cons_of_mem _ hk))
  have hbody : l.body.HasBytes := hall l (List.mem_append_right _ List.mem_cons_self)
  simp [hfront, hback, hasBytes_applyLine hbody hnew]

end Edit

/-- In a tree that a system can have, the path of a file ends in the file's name. -/
theorem Workspace.isNamed_of_content {w : Workspace} {t : Text} {bytes : Bytes}
    (hw : w.tree.WellFormed) (hcwd : w.tree.find? w.cwd = some .directory)
    (h : w.content (Path.ofText t) = .ok bytes) : (Path.ofText t).IsNamed := by
  obtain ⟨place, hlocate, hfile⟩ := content_eq_ok_iff.mp h
  have hwalk := (locate_eq_ok_iff.mp hlocate).2.2
  rcases List.eq_nil_or_concat (Path.ofText t).segments with hnil | ⟨parents, name, hsegments⟩
  · exfalso
    rw [hnil, Tree.walk] at hwalk
    obtain rfl := Except.ok.inj hwalk
    split_ifs at hfile
    · rw [hcwd] at hfile
      cases hfile
    · cases hfile
  · have hname : Path.IsSegment name := Path.isSegment_of_mem_ofText (t := t) (by simp [hsegments])
    refine ⟨⟨(Path.ofText t).anchor, parents⟩, name, ?_, hname, ?_⟩
    · rw [Path.child, ← List.concat_eq_append, ← hsegments]
    · -- Behind two dots there is a directory.
      rintro rfl
      rw [hsegments, List.concat_eq_append, Tree.walk_append] at hwalk
      cases hup : w.tree.walk (if (Path.ofText t).anchor = .relative then w.cwd else []) parents with
      | error cause =>
          rw [hup] at hwalk
          cases hwalk
      | ok q =>
          simp only [hup, Except.bind, Tree.walk] at hwalk
          split at hwalk
          · cases hwalk
          · cases hwalk
          · rename_i hdirectory
            rw [if_pos trivial] at hwalk
            obtain rfl := Except.ok.inj hwalk
            rw [hw.parent _ _ hdirectory] at hfile
            cases hfile

namespace Patch

variable {b : Backups} {p : Path} {e : Edit} {w v : Workspace} {bytes : Bytes}
  {r : Except Fault Patch}

/-- The edit changes the file, and a backup of the file can be made. -/
def IsBacked (b : Backups) (p : Path) (e : Edit) (w : Workspace) : Prop :=
  ∃ bytes ls m backup w₁, w.content p = .ok bytes ∧
    e.apply p (Text.lines (decode bytes)) = .ok (.changed ls m) ∧
    (b.create p).runOn w = (.ok backup, w₁)

/-- The edit is reported as failed. -/
def IsFailed (r : Except Fault Patch) : Prop := ∃ patch, r = .ok patch ∧ patch.outcome = .failed

/-- What an edit of the file at a path spares, from one state of the workspace to the next. -/
structure Spares (b : Backups) (p : Path) (e : Edit) (w : Workspace) (r : Except Fault Patch)
    (v : Workspace) : Prop where
  /-- Every other file outside the directory of backups. -/
  others : ∀ place bytes, ¬b.Covers w.cwd place → place ≠ p.resolve w.cwd →
    (v.tree.find? place = some (.file bytes) ↔ w.tree.find? place = some (.file bytes))
  /-- The file itself, if the edit is not applied and has bytes or is not even backed up. -/
  kept : ∀ bytes, w.content p = .ok bytes → (∀ patch, r = .ok patch → patch.outcome ≠ .applied) →
    e.inserted.HasBytes ∨ ¬IsBacked b p e w → v.content p = .ok bytes
  /-- Without bytes the edit fails behind the backup, and the file is empty. -/
  emptied : ¬e.inserted.HasBytes → IsBacked b p e w → IsFailed r ∧ v.content p = .ok []
  /-- Everything, if there is no file. -/
  missing : (∀ bytes, w.content p ≠ .ok bytes) → (∃ fault, r = .error fault) ∧ v = w
  /-- The tree with its backups, if the edit makes no change. -/
  unchanged : ∀ patch, r = .ok patch → patch.outcome = .unchanged → v.tree = w.tree
  /-- The tree with its backups, if the file has no such line. -/
  outOfRange : ∀ bytes, w.content p = .ok bytes →
    Edit.index? (Text.lines (decode bytes)).length e.target = none → IsFailed r ∧ v.tree = w.tree
  /-- The file, if no backup can be made; that is reported, unless a path holds a null character. -/
  unsaved : ∀ bytes ls m fault w₁, w.content p = .ok bytes →
    e.apply p (Text.lines (decode bytes)) = .ok (.changed ls m) →
    (b.create p).runOn w = (.error fault, w₁) →
    v.content p = .ok bytes ∧ (IsFailed r ∨ fault = .nullByte ∧ r = .error .nullByte)

theorem spares_of_missing (h : ∀ bytes, w.content p ≠ .ok bytes)
    (hrun : (apply b p e).runOn w = (r, v)) : Spares b p e w r v := by
  obtain ⟨fault, hmissing⟩ := apply_missing (b := b) (e := e) h
  rw [hmissing] at hrun
  cases hrun
  exact {
    others := fun _ _ _ _ => Iff.rfl
    kept := fun bytes hcontent => absurd hcontent (h bytes)
    emptied := fun _ ⟨bytes, _, _, _, _, hcontent, _⟩ => absurd hcontent (h bytes)
    missing := fun _ => ⟨⟨fault, rfl⟩, rfl⟩
    unchanged := fun _ hpatch => by cases hpatch
    outOfRange := fun bytes hcontent => absurd hcontent (h bytes)
    unsaved := fun bytes _ _ _ _ hcontent => absurd hcontent (h bytes) }

namespace Ending

theorem kept (hp : p.IsNamed) (hcontent : w.content p = .ok bytes)
    (h : Ending b p e w bytes (r, v)) (hnot : ∀ patch, r = .ok patch → patch.outcome ≠ .applied)
    (hspared : e.inserted.HasBytes ∨ ¬IsBacked b p e w) : v.content p = .ok bytes := by
  have hcreated : ∀ {r' : Except Fault Path} {w₁ : Workspace}, (b.create p).runOn w = (r', w₁) →
      w₁.content p = .ok bytes := by
    intro r' w₁ hcreate
    have hsame := Backups.content_of_create (b := b) hp hcontent
    rwa [hcreate] at hsame
  cases h with
  | refused _ => exact hcontent
  | unchanged _ => exact hcontent
  | unsaved _ hcreate _ =>
      have hsame := hcreated hcreate
      exact hsame
  | raised _ hcreate => exact hcreated hcreate
  | applied _ _ _ _ => exact absurd rfl (hnot _ rfl)
  | spoiled hedit hcreate hencode _ =>
      rcases hspared with hbytes | hunbacked
      · have hnew := (Edit.hasBytes_changed hedit).mpr hbytes
        exact absurd hencode (Text.hasBytes_iff_encode.mp hnew _)
      · exact absurd ⟨bytes, _, _, _, _, hcontent, hedit, hcreate⟩ hunbacked

theorem emptied (hcontent : w.content p = .ok bytes) (h : Ending b p e w bytes (r, v))
    (hbytes : ¬e.inserted.HasBytes) (hbacked : IsBacked b p e w) :
    IsFailed r ∧ v.content p = .ok [] := by
  obtain ⟨bytes', ls, m, backup, w₁, hcontent', hedit, hcreate⟩ := hbacked
  obtain rfl := Except.ok.inj (hcontent.symm.trans hcontent')
  cases h with
  | refused hedit' => simp [hedit] at hedit'
  | unchanged hedit' => simp [hedit] at hedit'
  | unsaved _ hcreate' _ => simp [hcreate] at hcreate'
  | raised _ hcreate' => simp [hcreate] at hcreate'
  | applied hedit' _ hencode _ =>
      exact absurd ((Edit.hasBytes_changed hedit').mp (encode_eq_ok_iff.mp hencode).1) hbytes
  | spoiled _ _ _ hempty =>
      have hafter := content_of_withContent hempty
      exact ⟨⟨_, rfl, rfl⟩, hafter⟩

theorem unchanged_tree {patch : Patch} (h : Ending b p e w bytes (.ok patch, v))
    (hpatch : patch.outcome = .unchanged) : v.tree = w.tree := by
  cases h with
  | unchanged _ => rfl
  | refused _ => cases hpatch
  | unsaved _ _ _ => cases hpatch
  | applied _ _ _ _ => cases hpatch
  | spoiled _ _ _ _ => cases hpatch

theorem outOfRange (h : Ending b p e w bytes (r, v))
    (hline : Edit.index? (Text.lines (decode bytes)).length e.target = none) :
    IsFailed r ∧ v.tree = w.tree := by
  have hrefused : e.apply p (Text.lines (decode bytes)) = .error (.lineOutOfRange e.target p) := by
    rw [Edit.apply, hline]
    rfl
  cases h with
  | refused _ => exact ⟨⟨_, rfl, rfl⟩, rfl⟩
  | unchanged hedit => simp [hrefused] at hedit
  | unsaved hedit _ _ => simp [hrefused] at hedit
  | raised hedit _ => simp [hrefused] at hedit
  | applied hedit _ _ _ => simp [hrefused] at hedit
  | spoiled hedit _ _ _ => simp [hrefused] at hedit

theorem unsaved_of_create {ls : List Line} {m : Text} {fault : Fault} {w₁ : Workspace}
    (h : Ending b p e w bytes (r, v))
    (hedit : e.apply p (Text.lines (decode bytes)) = .ok (.changed ls m))
    (hcreate : (b.create p).runOn w = (.error fault, w₁)) :
    (∀ patch, r = .ok patch → patch.outcome ≠ .applied) ∧
      (IsFailed r ∨ fault = .nullByte ∧ r = .error .nullByte) := by
  cases h with
  | refused hedit' => simp [hedit] at hedit'
  | unchanged hedit' => simp [hedit] at hedit'
  | unsaved _ _ _ =>
      refine ⟨?_, Or.inl ⟨_, rfl, rfl⟩⟩
      rintro patch ⟨⟩
      simp [failure]
  | raised _ hcreate' =>
      rw [hcreate] at hcreate'
      cases hcreate'
      exact ⟨by simp, Or.inr ⟨rfl, rfl⟩⟩
  | applied _ hcreate' _ _ => simp [hcreate] at hcreate'
  | spoiled _ hcreate' _ _ => simp [hcreate] at hcreate'

/-- However the edit of a file ends, the files are spared. -/
theorem spares (hp : p.IsNamed) (hcontent : w.content p = .ok bytes)
    (hframe : Frame (Reaches b p w.cwd) w v) (h : Ending b p e w bytes (r, v)) :
    Spares b p e w r v where
  others := by
    intro place content hcovers hplace
    apply hframe.files
    rintro (hown | hheld)
    · exact hplace hown
    · exact hcovers hheld.covers
  kept := by
    intro bytes' hcontent' hnot hspared
    obtain rfl := Except.ok.inj (hcontent.symm.trans hcontent')
    exact h.kept hp hcontent hnot hspared
  emptied := h.emptied hcontent
  missing := fun hnone => absurd hcontent (hnone bytes)
  unchanged := by
    rintro patch rfl hpatch
    exact h.unchanged_tree hpatch
  outOfRange := by
    intro bytes' hcontent' hline
    obtain rfl := Except.ok.inj (hcontent.symm.trans hcontent')
    exact h.outOfRange hline
  unsaved := by
    intro bytes' ls m fault w₁ hcontent' hedit hcreate
    obtain rfl := Except.ok.inj (hcontent.symm.trans hcontent')
    obtain ⟨hnot, hreported⟩ := h.unsaved_of_create hedit hcreate
    refine ⟨h.kept hp hcontent hnot (Or.inr ?_), hreported⟩
    rintro ⟨bytes', _, _, _, _, _, _, hcreate'⟩
    simp [hcreate] at hcreate'

end Ending

/-- An edit spares the files, whatever path it is given. -/
theorem apply_spares (b : Backups) (t : Text) (e : Edit) (w v : Workspace) (r : Except Fault Patch)
    (hw : w.tree.WellFormed) (hcwd : w.tree.find? w.cwd = some .directory)
    (hrun : (apply b (Path.ofText t) e).runOn w = (r, v)) :
    Spares b (Path.ofText t) e w r v := by
  by_cases hthere : ∃ bytes, w.content (Path.ofText t) = .ok bytes
  · obtain ⟨bytes, hcontent⟩ := hthere
    have hp := isNamed_of_content hw hcwd hcontent
    have hframe := @frame_apply b (Path.ofText t) e w hp
    have hends := @apply_ends b (Path.ofText t) e w bytes hp hcontent
    rw [hrun] at hframe hends
    exact hends.spares hp hcontent hframe
  · exact spares_of_missing (fun bytes hcontent => hthere ⟨bytes, hcontent⟩) hrun

/-! ## A note without bytes -/

/-- A file of two lines. -/
def twoLines : Workspace := .ofFiles ["w"] [("a.py", "x = 1\ny = 2\n")]

/-- A comment on the first line with half of a surrogate pair in it. -/
def halfNote : Edit := .commentOut 1 [Rune.ofNat 0xD800]

theorem apply_spares_twoLines : ∃ r v,
    twoLines.tree.WellFormed ∧ twoLines.tree.find? twoLines.cwd = some .directory ∧
      (apply ⟨⟨.relative, ["kept"]⟩, 1⟩ (Path.ofText "a.py") halfNote).runOn twoLines = (r, v) ∧
      Spares ⟨⟨.relative, ["kept"]⟩, 1⟩ (Path.ofText "a.py") halfNote twoLines r v := by
  have hw : twoLines.tree.WellFormed := Tree.wellFormed_of_plain (by decide +kernel)
  have hcwd : twoLines.tree.find? twoLines.cwd = some .directory := by decide +kernel
  exact ⟨_, _, hw, hcwd, rfl, apply_spares _ _ _ _ _ _ hw hcwd rfl⟩

/-- The edit fails, and nothing is left of the file. -/
theorem apply_empties_file :
    ∃ patch, ((apply ⟨⟨.relative, ["kept"]⟩, 1⟩ (Path.ofText "a.py") halfNote).runOn twoLines).1 =
        .ok patch ∧
      patch.outcome = .failed ∧ twoLines.textAt (Path.ofText "a.py") = "x = 1\ny = 2\n" ∧
      ((apply ⟨⟨.relative, ["kept"]⟩, 1⟩ (Path.ofText "a.py") halfNote).runOn twoLines).2.content
        (Path.ofText "a.py") = .ok [] := by
  decide +kernel

end Patch

end TodoLedger
