import TodoLedger.Proofs.Workspace.Frame
/-!
# Writing a file

What is written to a file replaces its text as a whole, and is read back. Emptying the file first
leaves no trace when its new text can be encoded.
-/

namespace TodoLedger

namespace Tree

theorem put_put (t : Tree) (place : Place) (n m : Node) :
    (t.put place n).put place m = t.put place m := by
  obtain ⟨nodes⟩ := t
  simp only [put, Tree.mk.injEq]
  induction nodes with
  | nil => simp [putNode]
  | cons e es ih =>
      by_cases he : e.1 = place
      · simp [putNode, he]
      · simp [putNode, he, ih]

end Tree

/-- The path ends in the name of something in a directory. -/
def Path.IsNamed (p : Path) : Prop := ∃ parent name, p = Path.child parent name ∧ Path.IsName name

theorem Path.IsNamed.isName {p : Path} (h : p.IsNamed) : Path.IsName p.name := by
  obtain ⟨parent, name, rfl, hname⟩ := h
  simpa [Path.name, Path.child] using hname

theorem Path.isNamed_child {p : Path} {name : Text} (h : Path.IsName name) :
    (p.child name).IsNamed := ⟨p, name, rfl, h⟩

theorem Path.isNamed_absolute {place : List Text} (hne : place ≠ [])
    (h : ∀ s ∈ place, Path.IsName s) : (Path.absolute place).IsNamed := by
  refine ⟨Path.absolute place.dropLast, place.getLast hne, ?_, h _ (List.getLast_mem hne)⟩
  simp [Path.child, Path.absolute, List.dropLast_concat_getLast hne]

namespace Workspace

variable {w w' : Workspace} {p : Path} {bytes old : Bytes} {place : Place}

/-- What was written is read back. -/
theorem content_of_withContent (h : w.withContent p bytes = .ok w') : w'.content p = .ok bytes := by
  obtain ⟨place, hlocate, hnot, -, rfl⟩ := withContent_eq_ok_iff.mp h
  have hne := Tree.ne_nil_of_not_directory hnot
  have hframe : Frame (· = place) w { w with tree := w.tree.put place (.file bytes) } :=
    .put_file rfl hnot rfl rfl (List.prefix_refl _)
  refine content_eq_ok_iff.mpr ⟨place, hframe.locate hlocate, ?_⟩
  rw [Tree.find?_put hne, if_pos rfl]

/-- Writing a file makes and unmakes no directory, so that every path names what it named. -/
theorem locate_of_withContent {q : Path} (h : w.withContent q bytes = .ok w') :
    w'.locate p = .ok place ↔ w.locate p = .ok place := by
  obtain ⟨target, -, hnot, -, rfl⟩ := withContent_eq_ok_iff.mp h
  have hne := Tree.ne_nil_of_not_directory hnot
  have hback : Tree.KeepsDirectories (w.tree.put target (.file bytes)) w.tree := by
    intro r hr
    rw [Tree.find?_put hne] at hr
    split_ifs at hr
    · cases hr
    · exact hr
  have hframe : Frame (· = target) w { w with tree := w.tree.put target (.file bytes) } :=
    .put_file rfl hnot rfl rfl (List.prefix_refl _)
  refine ⟨fun hlocate => ?_, hframe.locate⟩
  rw [locate_eq_ok_iff] at hlocate ⊢
  exact ⟨hlocate.1, hlocate.2.1, hback.walk hlocate.2.2⟩

/-- Another file keeps its content. -/
theorem content_of_withContent_of_ne {q : Path} {other : Bytes}
    (h : w.withContent q bytes = .ok w') (hne : p.resolve w.cwd ≠ q.resolve w.cwd)
    (hcontent : w.content p = .ok other) : w'.content p = .ok other := by
  obtain ⟨target, hlocate, hnot, -, rfl⟩ := withContent_eq_ok_iff.mp h
  have hframe : Frame (· = target) w { w with tree := w.tree.put target (.file bytes) } :=
    .put_file rfl hnot rfl rfl (List.prefix_refl _)
  refine hframe.content hcontent ?_
  rwa [eq_resolve_of_locate hlocate]

/-- Where a file is written over another one, files are where they were. -/
theorem exists_content_of_withContent {q : Path} (h : w.withContent q bytes = .ok w')
    (hold : w.content q = .ok old) :
    (∃ other, w'.content p = .ok other) ↔ ∃ other, w.content p = .ok other := by
  have hlocates : ∀ place, w'.locate p = .ok place ↔ w.locate p = .ok place :=
    fun place => locate_of_withContent h
  obtain ⟨target, hlocate, hnot, -, rfl⟩ := withContent_eq_ok_iff.mp h
  obtain ⟨target', hlocate', hfile⟩ := content_eq_ok_iff.mp hold
  obtain rfl := Except.ok.inj (hlocate.symm.trans hlocate')
  have hne := Tree.ne_nil_of_not_directory hnot
  simp only [content_eq_ok_iff, hlocates, Tree.find?_put hne]
  constructor
  · rintro ⟨other, r, hr, hthere⟩
    split_ifs at hthere with hsame
    · exact ⟨old, r, hr, hsame ▸ hfile⟩
    · exact ⟨other, r, hr, hthere⟩
  · rintro ⟨other, r, hr, hthere⟩
    by_cases hsame : r = target
    · exact ⟨bytes, r, hr, by rw [if_pos hsame]⟩
    · exact ⟨other, r, hr, by rwa [if_neg hsame]⟩

/-- A file that is there can be written. -/
theorem exists_withContent_of_content (hp : p.IsNamed) (h : w.content p = .ok old)
    (bytes : Bytes) : ∃ v, w.withContent p bytes = .ok v := by
  obtain ⟨parent, name, rfl, hname⟩ := hp
  obtain ⟨place, hlocate, hfile⟩ := content_eq_ok_iff.mp h
  obtain ⟨r, -, hdirectory, rfl⟩ :=
    Tree.exists_directory_of_walk_append hname.ne_dotDot (locate_eq_ok_iff.mp hlocate).2.2
  refine ⟨_, withContent_eq_ok_iff.mpr ⟨_, hlocate, ?_, ?_, rfl⟩⟩
  · rw [hfile]
    simp
  · rwa [List.dropLast_concat]

/-- Whether a file can be written does not depend on what is written. -/
theorem withContent_error {fault : Fault} (h : w.withContent p old = .error fault) :
    w.withContent p bytes = .error fault := by
  simp only [withContent] at h ⊢
  cases hlocate : w.locate p with
  | error f =>
      rw [hlocate] at h
      exact h
  | ok place =>
      rw [hlocate] at h
      simp only [bind, Except.bind] at h ⊢
      split_ifs at h ⊢ with hplace hparent
      · exact h
      · exact h

theorem withContent_withContent (h : w.withContent p old = .ok w') :
    w'.withContent p bytes = w.withContent p bytes := by
  obtain ⟨place, hlocate, hnot, hparent, rfl⟩ := withContent_eq_ok_iff.mp h
  have hne := Tree.ne_nil_of_not_directory hnot
  have hframe : Frame (· = place) w { w with tree := w.tree.put place (.file old) } :=
    .put_file rfl hnot rfl rfl (List.prefix_refl _)
  have hfirst : w.withContent p bytes =
      .ok { w with tree := w.tree.put place (.file bytes) } :=
    withContent_eq_ok_iff.mpr ⟨place, hlocate, hnot, hparent, rfl⟩
  rw [hfirst]
  refine withContent_eq_ok_iff.mpr ⟨place, hframe.locate hlocate, ?_, ?_, ?_⟩
  · simp [Tree.find?_put hne]
  · exact hframe.directories _ hparent
  · simp [Tree.put_put]

end Workspace

namespace Work

open Workspace

variable {w w' : Workspace} {p : Path} {bytes : Bytes} {t : Text}

theorem runOn_writeBytes (p : Path) (bytes : Bytes) : (writeBytes p bytes).runOn w =
    match w.withContent p bytes with
    | .ok v => (.ok (), v)
    | .error fault => (.error fault, w) := runOn_change _

/-- A text that can be encoded is written in one step. -/
theorem runOn_writeText (h : Utf8.encode t = .ok bytes) :
    (writeText p t).runOn w = (writeBytes p bytes).runOn w := by
  rw [writeText, runOn_bind, runOn_writeBytes, runOn_writeBytes]
  simp only [h]
  cases hempty : w.withContent p [] with
  | ok v =>
      simp only [runOn_writeBytes, withContent_withContent hempty]
      cases hfull : w.withContent p bytes with
      | ok u => rfl
      | error fault =>
          rw [withContent_error hfull] at hempty
          cases hempty
  | error fault => simp only [withContent_error hempty]

end Work

end TodoLedger
