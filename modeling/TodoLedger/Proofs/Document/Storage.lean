import TodoLedger.Document.Storage
import TodoLedger.Proofs.Document.Appending
import TodoLedger.Proofs.Workspace.Faults
import TodoLedger.Proofs.Workspace.Write
/-!
# Adding to a document

The entries of issues are put behind the bytes of a document, which become a document if there was
none. No other file is touched. What could be read of the document is read again, with the new issues
behind it.
-/

namespace TodoLedger.Document

open Work Workspace Utf8

variable {path : Path} {issues is : List Issue} {w w' : Workspace} {touched : Place → Prop} {t : Text}
  {n : Nat}

/-- Nothing at the place of the path can be read. -/
def IsNew (path : Path) (w : Workspace) : Prop :=
  ∀ bytes, w.tree.find? (path.resolve w.cwd) ≠ some (.file bytes)

theorem IsNew.content (h : IsNew path w) : ∀ bytes, w.content path ≠ .ok bytes := by
  intro bytes hcontent
  obtain ⟨place, hlocate, hfile⟩ := content_eq_ok_iff.mp hcontent
  rw [eq_resolve_of_locate hlocate] at hfile
  exact h bytes hfile

theorem IsNew.frame (h : IsNew path w) (hframe : Frame touched w w')
    (hplace : ¬touched (path.resolve w.cwd)) : IsNew path w' := by
  intro bytes hfile
  rw [hframe.cwd] at hfile
  exact h bytes ((hframe.files _ bytes hplace).mp hfile)

/-- The bytes of the file at the place of the path, or none where no file is. -/
def bytesAt (path : Path) (w : Workspace) : Bytes :=
  match w.tree.find? (path.resolve w.cwd) with
  | some (.file bytes) => bytes
  | _ => []

theorem bytesAt_of_content {bytes : Bytes} (h : w.content path = .ok bytes) :
    bytesAt path w = bytes := by
  obtain ⟨place, hlocate, hfile⟩ := content_eq_ok_iff.mp h
  rw [eq_resolve_of_locate hlocate] at hfile
  rw [bytesAt, hfile]

theorem IsNew.bytesAt (h : IsNew path w) : bytesAt path w = [] := by
  rw [Document.bytesAt]
  split
  · rename_i bytes hfile
    exact absurd hfile (h bytes)
  · rfl

/-- The bytes of a place that is not touched stay. -/
theorem bytesAt_of_frame (hframe : Frame touched w w') (hplace : ¬touched (path.resolve w.cwd)) :
    bytesAt path w' = bytesAt path w := by
  by_cases hnew : IsNew path w
  · rw [hnew.bytesAt, (hnew.frame hframe hplace).bytesAt]
  · simp only [IsNew, ne_eq, not_forall, not_not] at hnew
    obtain ⟨bytes, hfile⟩ := hnew
    have hkept := (hframe.files _ bytes hplace).mpr hfile
    rw [bytesAt, bytesAt, hframe.cwd, hfile, hkept]

/-- The bytes that are added to: those of the file, or none where no file is. -/
def Grows (path : Path) (w : Workspace) (old : Bytes) : Prop :=
  w.content path = .ok old ∨ (∀ bytes, w.content path ≠ .ok bytes) ∧ old = []

/-- Where a file is written, what is added to is what stands at its place. -/
theorem Grows.eq_bytesAt {old bytes : Bytes} (h : Grows path w old)
    (hwritten : w.withContent path bytes = .ok w') : old = bytesAt path w := by
  rcases h with hcontent | ⟨hmissing, rfl⟩
  · exact (bytesAt_of_content hcontent).symm
  · obtain ⟨place, hlocate, -, -, -⟩ := withContent_eq_ok_iff.mp hwritten
    refine (IsNew.bytesAt fun bytes hfile => ?_).symm
    rw [← eq_resolve_of_locate hlocate] at hfile
    exact hmissing bytes (content_eq_ok_iff.mpr ⟨place, hlocate, hfile⟩)

/-! ## Adding a text -/

/-- A choice before the rest of an operation. -/
theorem ite_bind {α β : Type} (b : Bool) (x y : Work α) (f : α → Work β) :
    (if b then x >>= f else y >>= f) = (if b then x else y) >>= f := by
  cases b <;> rfl

theorem runOn_isFile_of_missing {there : Bool} (h : ∀ bytes, w.content path ≠ .ok bytes)
    (hrun : (isFile path).runOn w = (.ok there, w')) : there = false ∧ w' = w := by
  rw [runOn_isFile] at hrun
  cases hnode : w.node? path with
  | error fault =>
      rw [hnode] at hrun
      cases hrun
  | ok node =>
      rw [hnode] at hrun
      cases hrun
      refine ⟨?_, rfl⟩
      cases node with
      | none => rfl
      | some node =>
          cases node with
          | directory => rfl
          | file bytes => exact absurd (node?_eq_file_iff.mp hnode) (h bytes)

private theorem of_writeBytes {bytes : Bytes} {u : Unit}
    (hrun : (writeBytes path bytes).runOn w = (.ok u, w')) :
    w.withContent path bytes = .ok w' := by
  rw [runOn_writeBytes] at hrun
  cases hcontent : w.withContent path bytes with
  | ok v =>
      rw [hcontent] at hrun
      cases hrun
      rfl
  | error fault =>
      rw [hcontent] at hrun
      cases hrun

/-- A text that is appended can be encoded. -/
private theorem exists_encode_of_appendText {u : Unit}
    (hrun : (appendText path t).runOn w = (.ok u, w')) : ∃ bytes, encode t = .ok bytes := by
  cases hencode : encode t with
  | ok bytes => exact ⟨bytes, rfl⟩
  | error f =>
      simp only [appendText, hencode, ite_bind] at hrun
      obtain ⟨there, w₁, -, hrun⟩ := runOn_bind_eq_ok_iff.mp hrun
      obtain ⟨old, w₂, -, hrun⟩ := runOn_bind_eq_ok_iff.mp hrun
      obtain ⟨_, w₃, -, hrun⟩ := runOn_bind_eq_ok_iff.mp hrun
      cases hrun

/-- A text that is appended is written behind what the file holds. -/
theorem withContent_of_appendText {old : Bytes} {u : Unit} (hgrows : Grows path w old)
    (hrun : (appendText path t).runOn w = (.ok u, w')) :
    ∃ bytes, encode t = .ok bytes ∧ w.withContent path (old ++ bytes) = .ok w' := by
  obtain ⟨bytes, ht⟩ := exists_encode_of_appendText hrun
  refine ⟨bytes, ht, ?_⟩
  rw [appendText, runOn_bind_eq_ok_iff] at hrun
  obtain ⟨there, w₁, hthere, hrun⟩ := hrun
  have hwrite : w₁ = w ∧ ((writeBytes path old >>= fun _ => writeBytes path (old ++ bytes)) :
      Work Unit).runOn w = (.ok u, w') := by
    rcases hgrows with hcontent | ⟨hmissing, rfl⟩
    · rw [runOn_isFile, node?_eq_file_iff.mpr hcontent] at hthere
      obtain ⟨hfile, rfl⟩ := Prod.mk.inj hthere
      obtain rfl : isFileNode (some (.file old)) = there := Except.ok.inj hfile
      have hread : (readBytes path).runOn w = (.ok old, w) := by rw [runOn_readBytes, hcontent]
      refine ⟨rfl, ?_⟩
      simp only [isFileNode, if_true, ht] at hrun
      rwa [runOn_bind_of_ok hread] at hrun
    · obtain ⟨rfl, rfl⟩ := runOn_isFile_of_missing hmissing hthere
      refine ⟨rfl, ?_⟩
      simpa only [Bool.false_eq_true, if_false, ht, pure_bind] using hrun
  obtain ⟨-, hwrite⟩ := hwrite
  rw [runOn_bind_eq_ok_iff] at hwrite
  obtain ⟨u₁, w₂, hempty, hwrite⟩ := hwrite
  rw [← withContent_withContent (of_writeBytes hempty)]
  exact of_writeBytes hwrite

theorem frame_appendText (h : touched (path.resolve w.cwd)) :
    Frame touched w ((appendText path t).runOn w).2 := by
  rw [appendText]
  simp only [ite_bind]
  refine moves_bind (moves_of_unchanged (isFile_unchanged path w)) fun there w₁ _ h₁ => ?_
  refine moves_bind ?_ fun old w₂ _ h₂ => ?_
  · split_ifs
    · exact moves_of_unchanged (by rw [runOn_readBytes])
    · exact .refl w₁
  have hcwd₂ : w₂.cwd = w.cwd := h₂.cwd.trans h₁.cwd
  refine moves_bind (frame_writeBytes (by rwa [hcwd₂])) fun _ w₃ _ h₃ => ?_
  split
  · exact frame_writeBytes (by rwa [h₃.cwd, hcwd₂])
  · exact .refl w₃

/-! ## Entries of issues -/

/-- Appending touches the document only. -/
theorem frame_append (h : touched (path.resolve w.cwd)) :
    Frame touched w ((append path issues).runOn w).2 := by
  rw [append]
  simp only [ite_bind]
  split_ifs
  · exact .refl w
  refine moves_bind (frame_ensureDirectories _ w) fun _ w₁ _ h₁ => ?_
  refine moves_bind (moves_of_unchanged (by rw [runOn_pathExists])) fun there w₂ _ h₂ => ?_
  refine moves_bind ?_ fun old w₃ _ h₃ => ?_
  · split_ifs
    · exact moves_of_unchanged (by rw [runOn_readBytes])
    · exact .refl w₂
  have hcwd : w₃.cwd = w.cwd := (h₃.cwd.trans h₂.cwd).trans h₁.cwd
  refine moves_bind (frame_appendText (by rwa [hcwd])) fun _ w₄ _ _ => ?_
  exact moves_bind (frame_report _) fun _ w₅ _ _ => .refl w₅

/-- Appending fails only where an operation on files fails. -/
theorem failsIn_append (path : Path) (issues : List Issue) (w : Workspace) :
    FailsIn Fault.IsOfFiles (append path issues) w := by
  have hfile := Fault.admits_isOfFiles path
  have hread : ∀ (there : Bool) (v : Workspace), FailsIn Fault.IsOfFiles
      (if there then readBytes path else pure []) v := by
    intro there v
    split_ifs
    · exact failsIn_readBytes hfile
    · exact failsIn_pure _
  rw [append]
  simp only [ite_bind]
  split_ifs
  · exact failsIn_pure _
  refine failsIn_bind (failsIn_ensureDirectories hfile.parent) fun _ w₁ _ => ?_
  refine failsIn_bind (failsIn_pathExists hfile) fun there w₂ _ => ?_
  refine failsIn_bind (hread there w₂) fun old w₃ _ => ?_
  refine failsIn_bind ?_ fun _ w₄ _ =>
    failsIn_bind (failsIn_of_ok (runOn_report _)) fun _ _ _ => failsIn_pure _
  rw [appendText]
  simp only [ite_bind]
  refine failsIn_bind (failsIn_isFile hfile) fun there w₄ _ => ?_
  refine failsIn_bind (hread there w₄) fun bytes w₅ _ => ?_
  refine failsIn_bind (failsIn_writeBytes hfile bytes) fun _ w₆ _ => ?_
  split
  · exact failsIn_writeBytes hfile _
  · exact failsIn_throw (.encoding _)

/-- The bytes that are read before entries are added are those that they are added to. -/
private theorem grows_of_read {there : Bool} {old : Bytes} {w₁ : Workspace}
    (hthere : (pathExists path).runOn w = (.ok there, w₁))
    (hold : ((if there then readBytes path else pure []) : Work Bytes).runOn w₁ = (.ok old, w')) :
    Grows path w old ∧ w' = w := by
  rw [runOn_pathExists] at hthere
  obtain ⟨hthere, rfl⟩ := Prod.mk.inj hthere
  cases there with
  | true =>
      simp only [if_true, runOn_readBytes] at hold
      obtain ⟨hcontent, rfl⟩ := Prod.mk.inj hold
      exact ⟨Or.inl hcontent, rfl⟩
  | false =>
      simp only [Bool.false_eq_true, if_false, runOn_pure] at hold
      obtain ⟨hnil, rfl⟩ := Prod.mk.inj hold
      refine ⟨Or.inr ⟨fun bytes hcontent => ?_, (Except.ok.inj hnil).symm⟩, rfl⟩
      rw [node?_eq_file_iff.mpr hcontent] at hthere
      cases hthere

/-- Appending puts the entries behind the bytes of the document. -/
theorem content_of_append (hne : issues ≠ [])
    (hrun : (append path issues).runOn w = (.ok n, w')) :
    n = issues.length ∧ ∃ bytes,
      encode (Text.gap (decode (bytesAt path w)) ++ issues.flatMap Issue.render) = .ok bytes ∧
      w'.content path = .ok (bytesAt path w ++ bytes) := by
  have hempty : issues.isEmpty = false := by
    rw [List.isEmpty_eq_false_iff]
    exact hne
  rw [append, hempty] at hrun
  simp only [Bool.false_eq_true, if_false, ite_bind] at hrun
  rw [runOn_bind_eq_ok_iff] at hrun
  obtain ⟨_, w₁, hparent, hrun⟩ := hrun
  have hframe : Frame (fun _ => False) w w₁ := by
    have hdirectories := @frame_ensureDirectories (fun _ => False) path.parent w
    rwa [hparent] at hdirectories
  rw [runOn_bind_eq_ok_iff] at hrun
  obtain ⟨there, w₂, hthere, hrun⟩ := hrun
  rw [runOn_bind_eq_ok_iff] at hrun
  obtain ⟨old, w₃, hold, hrun⟩ := hrun
  obtain ⟨hgrows, rfl⟩ := grows_of_read hthere hold
  rw [gap_decode, runOn_bind_eq_ok_iff] at hrun
  obtain ⟨_, w₄, happended, hrun⟩ := hrun
  obtain ⟨bytes, hencode, hwritten⟩ := withContent_of_appendText hgrows happended
  obtain rfl := hgrows.eq_bytesAt hwritten
  rw [bytesAt_of_frame hframe fun h => h] at hencode hwritten
  rw [runOn_bind_of_ok (runOn_report _)] at hrun
  obtain ⟨hn, rfl⟩ := Prod.mk.inj hrun
  refine ⟨(Except.ok.inj hn).symm, bytes, hencode, ?_⟩
  simpa only [Workspace.content, Workspace.locate] using content_of_withContent hwritten

/-- Behind an append every other file has its content, and the document has grown at its end. -/
theorem content_behind_append {p : Path} {old : Bytes} (hne : issues ≠ [])
    (hrun : (append path issues).runOn w = (.ok n, w')) (hcontent : w.content p = .ok old) :
    p.resolve w.cwd ≠ path.resolve w.cwd ∧ w'.content p = .ok old ∨
      p.resolve w.cwd = path.resolve w.cwd ∧ w'.content p =
        .ok (old ++ bytesOf (Text.gap (decode old) ++ issues.flatMap Issue.render)) := by
  have hframe := @frame_append path issues w (· = path.resolve w.cwd) rfl
  rw [hrun] at hframe
  by_cases hplace : p.resolve w.cwd = path.resolve w.cwd
  · obtain ⟨-, bytes, hencode, hgrown⟩ := content_of_append hne hrun
    have hold : bytesAt path w = old := by
      rw [← bytesAt_of_content hcontent, bytesAt, bytesAt, hplace]
    rw [hold] at hencode hgrown
    obtain ⟨-, rfl⟩ := encode_eq_ok_iff.mp hencode
    obtain ⟨place, hlocate, -⟩ := content_eq_ok_iff.mp hcontent
    obtain ⟨place', hlocate', hfile⟩ := content_eq_ok_iff.mp hgrown
    rw [eq_resolve_of_locate hlocate', hframe.cwd, ← hplace, ← eq_resolve_of_locate hlocate] at hfile
    exact Or.inr ⟨hplace, content_eq_ok_iff.mpr ⟨place, hframe.locate hlocate, hfile⟩⟩
  · exact Or.inl ⟨hplace, hframe.content hcontent hplace⟩

/-! ## What a document holds -/

private theorem exists_content_of_isFileNode
    (h : (w.node? path).map isFileNode = .ok true) : ∃ bytes, w.content path = .ok bytes := by
  cases hnode : w.node? path with
  | error fault =>
      rw [hnode] at h
      cases h
  | ok node =>
      rw [hnode] at h
      rcases node with _ | _ | bytes
      · cases h
      · cases h
      · exact ⟨bytes, node?_eq_file_iff.mp hnode⟩

/-- A document that can be read is loaded as its text says. -/
theorem runOn_load {bytes : Bytes} (h : w.content path = .ok bytes) : (load path).runOn w =
    match readDocument (decode bytes) with
    | .ok issues =>
      (.ok issues, { w with events := w.events ++ [.documentRead path issues.length] })
    | .error fault => (.error (.read fault), w) := by
  have hfile : (isFile path).runOn w = (.ok true, w) := by
    rw [runOn_isFile, node?_eq_file_iff.mpr h]
    rfl
  have hread : (readText path).runOn w = (.ok (decode bytes), w) := by
    rw [runOn_readText, h]
    rfl
  rw [load, runOn_bind_of_ok hfile]
  simp only [Bool.not_true, Bool.false_eq_true, if_false]
  rw [runOn_bind_of_ok hread]
  cases readDocument (decode bytes) with
  | error fault => rfl
  | ok issues => rfl

/-- What was loaded stands in the document as its text says. -/
theorem load_eq_ok (hrun : (load path).runOn w = (.ok issues, w')) : ∃ bytes,
    w.content path = .ok bytes ∧ readDocument (decode bytes) = .ok issues ∧
      w' = { w with events := w.events ++ [.documentRead path issues.length] } := by
  have hcourse := hrun
  rw [load] at hcourse
  obtain ⟨there, v, hthere, hrest⟩ := runOn_bind_eq_ok_iff.mp hcourse
  rw [runOn_isFile] at hthere
  obtain ⟨hnode, rfl⟩ := Prod.mk.inj hthere
  cases there with
  | false => cases hrest
  | true =>
      obtain ⟨bytes, hcontent⟩ := exists_content_of_isFileNode hnode
      rw [runOn_load hcontent] at hrun
      cases hread : readDocument (decode bytes) with
      | error fault =>
          rw [hread] at hrun
          cases hrun
      | ok found =>
          rw [hread] at hrun
          obtain ⟨hfound, rfl⟩ := Prod.mk.inj hrun
          obtain rfl := Except.ok.inj hfound
          exact ⟨bytes, hcontent, hread, rfl⟩

/-- Loading fails where an operation on files fails, where no file is, or where the text is not read. -/
theorem failsIn_load (path : Path) (w : Workspace) :
    FailsIn (fun f => f.IsOfFiles ∨ f = .documentMissing path ∨ ∃ bytes fault,
      w.content path = .ok bytes ∧ readDocument (decode bytes) = .error fault ∧ f = .read fault)
      (load path) w := by
  have hfile := Fault.admits_isOfFiles path
  rw [load]
  refine failsIn_bind (fun f u h => Or.inl (failsIn_isFile hfile f u h)) fun there w₁ hthere => ?_
  rw [runOn_isFile] at hthere
  obtain ⟨-, rfl⟩ := Prod.mk.inj hthere
  cases there with
  | false => exact failsIn_bind (failsIn_throw (Or.inr (Or.inl rfl))) fun _ _ h => by cases h
  | true =>
      simp only [Bool.not_true, Bool.false_eq_true, if_false]
      refine failsIn_bind ?_ fun text w₂ htext => ?_
      · rw [readText]
        exact failsIn_bind (fun f u h => Or.inl (failsIn_readBytes hfile f u h)) fun _ _ _ => failsIn_pure _
      · rw [runOn_readText] at htext
        obtain ⟨hcontent, rfl⟩ := Prod.mk.inj htext
        cases hbytes : w.content path with
        | error fault =>
            rw [hbytes] at hcontent
            cases hcontent
        | ok bytes =>
            rw [hbytes] at hcontent
            obtain rfl := Except.ok.inj hcontent
            cases hread : readDocument (decode bytes) with
            | error fault => exact failsIn_throw (Or.inr (Or.inr ⟨bytes, fault, rfl, hread, rfl⟩))
            | ok issues => exact failsIn_bind (failsIn_of_ok (runOn_report _)) fun _ _ _ => failsIn_pure _

/-- What a document is taken to hold: the issues that are read, or none where no file can be read or
the text is refused. -/
inductive Lists (path : Path) (w : Workspace) : List Issue → Prop
  | missing {node : Option Node} : w.node? path = .ok node → isFileNode node = false →
      Lists path w []
  | refused {bytes : Bytes} {line : Int} {cause : DocumentFault} : w.content path = .ok bytes →
      readDocument (decode bytes) = .error (.document line cause) → Lists path w []
  | read {bytes : Bytes} {issues : List Issue} : w.content path = .ok bytes →
      readDocument (decode bytes) = .ok issues → Lists path w issues

/-- A file stands at the place of the path, but the way there leads through a directory that is
missing. -/
def IsCutOff (path : Path) (w : Workspace) : Prop :=
  ¬IsNew path w ∧ ∀ bytes, w.content path ≠ .ok bytes

theorem IsCutOff.of_tree_eq {v : Workspace} (h : IsCutOff path w) (htree : v.tree = w.tree)
    (hcwd : v.cwd = w.cwd) : IsCutOff path v := by
  have hcontent : v.content = w.content := by
    funext p
    simp only [Workspace.content, Workspace.locate, htree, hcwd]
  rwa [IsCutOff, IsNew, htree, hcwd, hcontent]

namespace Lists

variable {v : Workspace} {js : List Issue}

theorem of_tree_eq (h : Lists path w is) (htree : v.tree = w.tree) (hcwd : v.cwd = w.cwd) :
    Lists path v is := by
  have hlocate : v.locate = w.locate := by
    funext p
    simp only [Workspace.locate, htree, hcwd]
  have hnode : v.node? = w.node? := by
    funext p
    simp only [Workspace.node?, hlocate, htree]
  have hcontent : v.content = w.content := by
    funext p
    simp only [Workspace.content, hlocate, htree]
  cases h with
  | missing hnone hfile => exact .missing (hnode ▸ hnone) hfile
  | refused hbytes herror => exact .refused (hcontent ▸ hbytes) herror
  | read hbytes hread => exact .read (hcontent ▸ hbytes) hread

theorem content_ne_of_missing {node : Option Node} {bytes : Bytes}
    (hnode : w.node? path = .ok node) (hfile : isFileNode node = false) :
    w.content path ≠ .ok bytes := by
  intro hbytes
  rw [node?_eq_file_iff.mpr hbytes] at hnode
  rw [← Except.ok.inj hnode] at hfile
  cases hfile

theorem of_content {bytes : Bytes} (h : Lists path w is) (hw : w.content path = .ok bytes)
    (hv : v.content path = .ok bytes) : Lists path v is := by
  cases h with
  | missing hnode hfile => exact absurd hw (content_ne_of_missing hnode hfile)
  | refused hcontent herror =>
      obtain rfl := Except.ok.inj (hw.symm.trans hcontent)
      exact .refused hv herror
  | read hcontent hread =>
      obtain rfl := Except.ok.inj (hw.symm.trans hcontent)
      exact .read hv hread

/-- A document lists one thing only. -/
theorem unique (h : Lists path w is) (h' : Lists path w js) : is = js := by
  cases h with
  | missing hnode hfile =>
      cases h' with
      | missing _ _ => rfl
      | refused hcontent _ => exact absurd hcontent (content_ne_of_missing hnode hfile)
      | read hcontent _ => exact absurd hcontent (content_ne_of_missing hnode hfile)
  | refused hcontent herror =>
      cases h' with
      | missing hnode hfile => exact absurd hcontent (content_ne_of_missing hnode hfile)
      | refused _ _ => rfl
      | read hcontent' hread =>
          obtain rfl := Except.ok.inj (hcontent.symm.trans hcontent')
          cases herror.symm.trans hread
  | read hcontent hread =>
      cases h' with
      | missing hnode hfile => exact absurd hcontent (content_ne_of_missing hnode hfile)
      | refused hcontent' herror =>
          obtain rfl := Except.ok.inj (hcontent.symm.trans hcontent')
          cases herror.symm.trans hread
      | read hcontent' hread' =>
          obtain rfl := Except.ok.inj (hcontent.symm.trans hcontent')
          exact Except.ok.inj (hread.symm.trans hread')

/-- Where the text at the place of a document can be read, that or nothing is what it is taken to hold. -/
theorem eq_or_eq_nil (h : Lists path w js) (hread : readDocument (decode (bytesAt path w)) = .ok is) :
    js = is ∨ js = [] := by
  cases h with
  | missing _ _ => exact Or.inr rfl
  | refused _ _ => exact Or.inr rfl
  | read hcontent hread' =>
      rw [bytesAt_of_content hcontent, hread'] at hread
      exact Or.inl (Except.ok.inj hread)

end Lists

/-- What is appended can be written, and it does not go on with a byte of the text before it. -/
theorem isStable_appended (h : ∀ i ∈ issues, i.IsWritable Text.FitsLine) (hne : issues ≠ [])
    (old : Text) : IsStable (Text.gap old ++ issues.flatMap Issue.render) ∧
      ∀ c, (Text.gap old ++ issues.flatMap Issue.render).head? = some c → isEscape c = false := by
  have hfits := @fits_of_mem_writtenLines Text.FitsLine issues Issue.state Text.lineClass_fitsLine h
  have hhead := @head?_written Text.FitsLine issues Issue.state Text.lineClass_fitsLine h hne
  rw [flatMap_render]
  refine Text.isStable_gap_append (Text.isStable_ofBodies hfits) (fun c hc => ?_) old
  rw [hhead] at hc
  obtain rfl := Option.some.inj hc
  decide

/-- What is written stands behind the text of the document. -/
private theorem decode_content_of_append (hne : issues ≠ [])
    (hissues : ∀ i ∈ issues, i.IsWritable Text.FitsLine)
    (hrun : (append path issues).runOn w = (.ok n, w')) :
    ∃ bytes, w'.content path = .ok bytes ∧ decode bytes = decode (bytesAt path w) ++
      (Text.gap (decode (bytesAt path w)) ++ Text.ofBodies (writtenLines issues Issue.state)) := by
  obtain ⟨-, bytes, hencode, hafter⟩ := content_of_append hne hrun
  obtain ⟨hstable, hhead⟩ := isStable_appended hissues hne (decode (bytesAt path w))
  obtain rfl : _ = bytes := Except.ok.inj (hstable.encode.symm.trans hencode)
  rw [← flatMap_render]
  exact ⟨_, hafter, decode_append (bytesAt path w) hstable hhead⟩

/-- What is read of a document is read again, and the issues that are appended are read behind it. -/
theorem exists_read_of_append (hread : readDocument (decode (bytesAt path w)) = .ok is)
    (hne : issues ≠ []) (hissues : ∀ i ∈ issues, i.IsWritable Text.FitsLine)
    (hrun : (append path issues).runOn w = (.ok n, w')) :
    ∃ bytes js, w'.content path = .ok bytes ∧ readDocument (decode bytes) = .ok (is ++ js) ∧
      List.Forall₂ (fun i j => (i.entryLines i.state).Yields j) issues js := by
  obtain ⟨bytes, hafter, htext⟩ := decode_content_of_append hne hissues hrun
  obtain ⟨js, hread', hyields⟩ :=
    readDocument_append Issue.state Text.lineClass_fitsLine hissues hne hread
  exact ⟨bytes, js, hafter, by rw [htext, hread'], hyields⟩

/-- What a document holds stays before the issues that are appended. -/
theorem lists_append (h : Lists path w is) (hne : issues ≠ [])
    (hissues : ∀ i ∈ issues, i.IsWritable Text.FitsLine)
    (hrun : (append path issues).runOn w = (.ok n, w')) :
    ∃ bytes, w'.content path = .ok bytes ∧
      ((∃ js, Lists path w' (is ++ js)) ∨ is = [] ∧ IsCutOff path w) := by
  obtain ⟨bytes, hafter, htext⟩ := decode_content_of_append hne hissues hrun
  refine ⟨bytes, hafter, ?_⟩
  have hread : readDocument (decode (bytesAt path w)) = .ok is → ∃ js, Lists path w' (is ++ js) := by
    intro hread
    obtain ⟨bytes', js, hafter', hread', -⟩ := exists_read_of_append hread hne hissues hrun
    exact ⟨js, .read hafter' hread'⟩
  cases h with
  | missing hnode hfile =>
      by_cases hplace : IsNew path w
      · left
        apply hread
        rw [hplace.bytesAt]
        rfl
      · exact Or.inr ⟨rfl, hplace, fun bytes hbytes =>
          absurd hbytes (Lists.content_ne_of_missing hnode hfile)⟩
  | refused hbytes herror =>
      left
      rw [bytesAt_of_content hbytes] at htext
      obtain ⟨line', cause', herror'⟩ :=
        readDocument_append_error (head?_written Text.lineClass_fitsLine hissues hne) herror
      exact ⟨[], .refused hafter (by rw [htext, herror'])⟩
  | read hbytes hread' =>
      left
      apply hread
      rw [bytesAt_of_content hbytes, hread']

end TodoLedger.Document
