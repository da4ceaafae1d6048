import TodoLedger.Proofs.Document.Storage
import TodoLedger.Proofs.Workspace.Directories
import TodoLedger.Proofs.Workspace.Sample
/-!
# Adding to a document composes

Whatever stands in a document, entries that are put behind it are read as each of them is read alone,
and they are read after what was read before. They do not mend a document that is refused. Entries can
be put wherever a file can be.
-/

namespace TodoLedger

open Utf8

/-! ## Entries that are read alone -/

namespace Issue

variable {i j : Issue} {issues js : List Issue}

theorem head?_render (i : Issue) : i.render.head? = some (Rune.ofChar '*') := by
  have hline := Reader.isHeadlineLine_eq_true.mp (i.isHeadlineLine_entryLines i.state)
  obtain ⟨r, hr⟩ := List.head?_eq_some_iff.mp hline
  rw [render_eq, EntryLines.lines, hr]
  rfl

theorem gap_render (i : Issue) : Text.gap i.render = [] := by
  rw [render, Text.gap_append (by decide)]
  decide

/-- What can be read of an entry alone is an entry, and it is all of the text. -/
theorem exists_entryLines (h : readDocument i.render = .ok [j]) :
    ∃ e : EntryLines, e.IsEntry ∧ e.Yields j ∧ Text.bodies i.render = e.lines := by
  have hbom : Text.dropBom i.render = i.render := by
    obtain ⟨r, hr⟩ := List.head?_eq_some_iff.mp i.head?_render
    rw [hr]
    rfl
  obtain ⟨preamble, entries, hdocument, hyields⟩ := exists_document_of_readDocument h
  obtain ⟨e, rest, hfirst, hrest, rfl⟩ := List.forall₂_cons_right_iff.mp hyields
  obtain rfl := List.forall₂_nil_right_iff.mp hrest
  obtain ⟨line, others, hbodies, hline⟩ := exists_headline_of_head? i.head?_render
  obtain ⟨hlines, hpreamble, hentries⟩ := hdocument
  rw [hbom] at hlines
  -- The text starts with a headline, so that nothing stands before the entry.
  obtain rfl : preamble = [] := by
    rw [hbodies] at hlines
    cases preamble with
    | nil => rfl
    | cons p ps =>
        obtain ⟨rfl, -⟩ := List.cons.inj hlines
        rw [hpreamble line (by simp)] at hline
        cases hline
  exact ⟨e, hentries e (by simp), hfirst, by simpa using hlines⟩

/-- The entries of issues stand one after the other. -/
theorem exists_entries (h : List.Forall₂ (fun i j => readDocument i.render = .ok [j]) issues js) :
    ∃ entries : List EntryLines, (∀ e ∈ entries, e.IsEntry) ∧
      List.Forall₂ EntryLines.Yields entries js ∧
      Text.bodies (issues.flatMap render) = entries.flatMap EntryLines.lines := by
  induction h with
  | nil => exact ⟨[], by simp, .nil, rfl⟩
  | @cons i j issues js hfirst hrest ih =>
      obtain ⟨e, he, hyields, hlines⟩ := exists_entryLines hfirst
      obtain ⟨entries, hentries, hall, hbodies⟩ := ih
      refine ⟨e :: entries, List.forall_mem_cons.mpr ⟨he, hentries⟩, .cons hyields hall, ?_⟩
      have hhead : (issues.flatMap render).head? ≠ some (Rune.ofChar '\n') := by
        cases issues with
        | nil => simp
        | cons k issues =>
            obtain ⟨r, hr⟩ := List.head?_eq_some_iff.mp k.head?_render
            rw [List.flatMap_cons, hr]
            exact fun hstar => absurd (Option.some.inj hstar) (by decide)
      have happend := Text.bodies_append hhead i.render
      rw [gap_render, List.nil_append, hlines, hbodies] at happend
      rw [List.flatMap_cons, happend, List.flatMap_cons]

theorem head?_flatMap_render (hne : issues ≠ []) :
    (issues.flatMap render).head? = some (Rune.ofChar '*') := by
  obtain ⟨i, issues, rfl⟩ := List.exists_cons_of_ne_nil hne
  obtain ⟨r, hr⟩ := List.head?_eq_some_iff.mp i.head?_render
  rw [List.flatMap_cons, hr]
  rfl

/-- Entries are read for themselves behind the bytes of a document, whatever their text. -/
theorem decode_append_render (hne : issues ≠ []) (old : Bytes) :
    decode (old ++ bytesOf (Text.gap (decode old) ++ issues.flatMap render)) =
        decode old ++ (Text.gap (decode old) ++ decode (bytesOf (issues.flatMap render))) ∧
      (decode (bytesOf (issues.flatMap render))).head? = some (Rune.ofChar '*') := by
  obtain ⟨r, hr⟩ := List.head?_eq_some_iff.mp (head?_flatMap_render hne)
  have hread := fun old => decode_gap_append (c := Rune.ofChar '*') (by decide) (by decide) old r
  have halone : decode (bytesOf (Rune.ofChar '*' :: r)) = Rune.ofChar '*' :: decode (bytesOf r) :=
    hread []
  rw [hr, halone]
  exact ⟨hread old, rfl⟩

/-- Entries that are read back from their bytes one by one are read back together. -/
theorem isStable_flatMap_render
    (h : ∀ i ∈ issues, ∃ bytes, encode i.render = .ok bytes ∧ decode bytes = i.render) :
    IsStable (issues.flatMap render) := by
  induction issues with
  | nil => trivial
  | cons i issues ih =>
      obtain ⟨⟨bytes, -, hdecode⟩, hrest⟩ := List.forall_mem_cons.mp h
      have hstable : IsStable i.render := hdecode ▸ isStable_decode bytes
      rw [List.flatMap_cons]
      refine hstable.append (ih hrest) fun c hc => ?_
      by_cases hne : issues = []
      · rw [hne] at hc
        cases hc
      · rw [head?_flatMap_render hne] at hc
        obtain rfl := Option.some.inj hc
        decide

end Issue

/-- Entries behind a text are read one by one as they are read alone. -/
theorem readDocument_append_renders {issues js is : List Issue} {old : Text}
    (hshown : List.Forall₂ (fun i j => readDocument i.render = .ok [j]) issues js)
    (hne : issues ≠ []) (hread : readDocument old = .ok is) :
    readDocument (old ++ (Text.gap old ++ issues.flatMap Issue.render)) = .ok (is ++ js) := by
  obtain ⟨entries, hentries, hyields, hbodies⟩ := Issue.exists_entries hshown
  obtain ⟨made, hmade, hall⟩ :=
    readDocument_append_entries hbodies (Issue.head?_flatMap_render hne) hentries hread
  have hunique : Relator.RightUnique EntryLines.Yields := fun _ _ _ => EntryLines.Yields.unique
  obtain rfl := List.right_unique_forall₂' hunique hall hyields
  exact hmade

namespace Document

open Work Workspace

variable {path : Path} {issues js : List Issue} {w w' : Workspace} {place : Place} {t : Text}
  {bytes : Bytes}

/-! ## Where a document can be -/

/-- A file can be at the path: the system can give all its names, and neither a directory stands at
its place nor a file above it. -/
structure IsPossible (path : Path) (w : Workspace) : Prop where
  isNamed : path.segments ≠ []
  names : ∀ s ∈ path.segments, Path.IsFileName s
  clear : w.tree.IsClear (path.origin w.cwd) path.segments.dropLast
  notDirectory : w.tree.find? (path.origin w.cwd ++ path.segments) ≠ some .directory

/-- What a path holds is read before it is written. -/
private theorem exists_old (hlocate : w.locate path = .ok place)
    (hnot : w.tree.find? place ≠ some .directory) : ∃ there old,
      (pathExists path).runOn w = (.ok there, w) ∧ (isFile path).runOn w = (.ok there, w) ∧
      ((if there then readBytes path else pure []) : Work Bytes).runOn w = (.ok old, w) := by
  have hnode : w.node? path = .ok (w.tree.find? place) := by
    rw [Workspace.node?, hlocate]
  cases hfind : w.tree.find? place with
  | none =>
      rw [hfind] at hnode
      exact ⟨false, [], by rw [runOn_pathExists, hnode]; rfl, by rw [runOn_isFile, hnode]; rfl, rfl⟩
  | some node =>
      cases node with
      | directory => exact absurd hfind hnot
      | file old =>
          have hcontent := content_eq_ok_iff.mpr ⟨place, hlocate, hfind⟩
          rw [hfind] at hnode
          refine ⟨true, old, by rw [runOn_pathExists, hnode]; rfl,
            by rw [runOn_isFile, hnode]; rfl, ?_⟩
          rw [if_pos rfl, runOn_readBytes, hcontent]

/-- A text that can be encoded is appended where a file can be. -/
theorem runOn_appendText (hlocate : w.locate path = .ok place)
    (hnot : w.tree.find? place ≠ some .directory)
    (hparent : w.tree.find? place.dropLast = some .directory) (ht : encode t = .ok bytes) :
    ∃ w', (appendText path t).runOn w = (.ok (), w') := by
  obtain ⟨there, old, -, hthere, hold⟩ := exists_old hlocate hnot
  have hwith : ∀ bytes, w.withContent path bytes =
      .ok { w with tree := w.tree.put place (.file bytes) } := fun bytes =>
    withContent_eq_ok_iff.mpr ⟨place, hlocate, hnot, hparent, rfl⟩
  have hempty : (writeBytes path old).runOn w =
      (.ok (), { w with tree := w.tree.put place (.file old) }) := by
    rw [runOn_writeBytes, hwith]
  rw [appendText]
  simp only [ite_bind, ht]
  rw [runOn_bind_of_ok hthere, runOn_bind_of_ok hold, runOn_bind_of_ok hempty, runOn_writeBytes,
    withContent_withContent (hwith old), hwith]
  exact ⟨_, rfl⟩

/-- Entries that can be encoded are added wherever a file can be. -/
theorem runOn_append (h : IsPossible path w) (hne : issues ≠ [])
    (hencode : ∀ old, ∃ bytes, encode (Text.gap old ++ issues.flatMap Issue.render) = .ok bytes) :
    ∃ w', (append path issues).runOn w = (.ok issues.length, w') := by
  obtain ⟨segments, name, hpath⟩ := List.eq_nil_or_concat path.segments |>.resolve_left h.isNamed
  have hchild : path = path.parent.child name := by
    cases path
    simp_all [Path.parent, Path.child]
  obtain ⟨w₁, hparent, hthere, hkept⟩ := @runOn_ensureDirectories w path.parent h.clear
  have hframe := @frame_ensureDirectories (fun _ => False) path.parent w
  rw [hparent] at hframe
  -- The place of the document is not among the directories that were made.
  have hnot : w₁.tree.find? (path.origin w.cwd ++ path.segments) ≠ some .directory := by
    rw [hkept _ fun hprefix => ?_]
    · exact h.notDirectory
    · have hlength : (path.origin w.cwd ++ path.segments).length ≤
          (path.origin w.cwd ++ path.segments.dropLast).length := hprefix.length_le
      have hpositive := List.length_pos_iff.mpr h.isNamed
      simp only [List.length_append, List.length_dropLast] at hlength
      omega
  have horigin : path.parent.origin w₁.cwd = path.origin w.cwd := by
    rw [hframe.cwd]
    rfl
  have hlocate : w₁.locate path = .ok (path.origin w.cwd ++ path.segments) := by
    have hlocated := @HasDirectory.locate_child w₁ path.parent name hthere (hchild ▸ h.names)
    rwa [horigin, ← hchild] at hlocated
  have hdirectory : w₁.tree.find? (path.origin w.cwd ++ path.segments).dropLast =
      some .directory := by
    have hfound := hthere.directory
    rw [horigin] at hfound
    rwa [List.dropLast_append_of_ne_nil h.isNamed]
  obtain ⟨there, old, hexists, -, hold⟩ := exists_old hlocate hnot
  obtain ⟨bytes, hbytes⟩ := hencode (decode old)
  obtain ⟨w₂, happended⟩ := runOn_appendText hlocate hnot hdirectory hbytes
  have hempty : issues.isEmpty = false := by
    rw [List.isEmpty_eq_false_iff]
    exact hne
  rw [append, hempty]
  simp only [Bool.false_eq_true, if_false, ite_bind]
  rw [runOn_bind_of_ok hparent, runOn_bind_of_ok hexists, runOn_bind_of_ok hold, gap_decode,
    runOn_bind_of_ok happended]
  exact ⟨_, rfl⟩

/-! ## The document afterwards -/

theorem endsLine_eq_false_iff (old : Bytes) : endsLine old = false ↔
    old ≠ [] ∧ old.getLast? ≠ some 10 ∧ old.getLast? ≠ some 13 := by
  rw [endsLine]
  cases hlast : old.getLast? with
  | none => simp [List.getLast?_eq_none_iff.mp hlast]
  | some b =>
      have hne : old ≠ [] := by
        rintro rfl
        cases hlast
      simp [hne]

/-- A line feed has to stand before entries exactly if the bytes before them leave a line open. -/
theorem bytesOf_gap_append (old : Bytes) (t : Text) : bytesOf (Text.gap (decode old) ++ t) =
    (if old ≠ [] ∧ old.getLast? ≠ some 10 ∧ old.getLast? ≠ some 13 then [10] else []) ++
      bytesOf t := by
  rw [← gap_decode, bytesOf_append]
  by_cases hends : endsLine old = false
  · rw [if_pos ((endsLine_eq_false_iff old).mp hends), hends]
    rfl
  · rw [if_neg fun h => hends ((endsLine_eq_false_iff old).mpr h), Bool.not_eq_false _ |>.mp hends]
    rfl

/-- Adding issues to a document, of whatever text, adds what is read of their entries alone to what is
read of it. It succeeds wherever a file can be, and where a file operation fails it fails in no other
way. -/
theorem append_composes {r : Except Fault Nat} (hne : issues ≠ [])
    (hshown : List.Forall₂ (fun i j => readDocument i.render = .ok [j]) issues js)
    (hstable : ∀ i ∈ issues, ∃ bytes, encode i.render = .ok bytes ∧ decode bytes = i.render)
    (hrun : (append path issues).runOn w = (r, w')) :
    (r = .ok issues.length ∨ ∃ f, r = .error f ∧ f.IsOfFiles) ∧
    (IsPossible path w → r = .ok issues.length) ∧
    ∀ n, r = .ok n → ∃ new, w'.content path = .ok new ∧
      new = bytesAt path w ++
        ((if bytesAt path w ≠ [] ∧ (bytesAt path w).getLast? ≠ some 10 ∧
            (bytesAt path w).getLast? ≠ some 13 then [10] else []) ++
          bytesOf (issues.flatMap Issue.render)) ∧
      (∀ is, readDocument (decode (bytesAt path w)) = .ok is →
        readDocument (decode new) = .ok (is ++ js)) ∧
      ∀ fault, readDocument (decode (bytesAt path w)) = .error fault →
        ∃ fault', readDocument (decode new) = .error fault' := by
  have hwritten := Issue.isStable_flatMap_render hstable
  have hhead := Issue.head?_flatMap_render hne
  have hstart : ∀ c, (issues.flatMap Issue.render).head? = some c → isEscape c = false := by
    intro c hc
    rw [hhead] at hc
    obtain rfl := Option.some.inj hc
    decide
  have hadded := fun old => Text.isStable_gap_append hwritten hstart old
  refine ⟨?_, fun hpossible => ?_, fun n hn => ?_⟩
  · cases r with
    | ok n =>
        obtain ⟨rfl, -⟩ := content_of_append hne hrun
        exact Or.inl rfl
    | error f => exact Or.inr ⟨f, rfl, failsIn_append path issues w f w' hrun⟩
  · obtain ⟨v, happended⟩ :=
      @runOn_append path issues w hpossible hne fun old => ⟨_, (hadded old).1.encode⟩
    rw [happended] at hrun
    exact (Prod.mk.inj hrun).1.symm
  · subst hn
    obtain ⟨-, bytes, hencode, hcontent⟩ := content_of_append hne hrun
    obtain ⟨hstableAdded, hheadAdded⟩ := hadded (decode (bytesAt path w))
    obtain rfl := Except.ok.inj (hstableAdded.encode.symm.trans hencode)
    have htext := decode_append (bytesAt path w) hstableAdded hheadAdded
    refine ⟨_, hcontent, by rw [bytesOf_gap_append], fun is his => ?_, fun fault hfault => ?_⟩
    · rw [htext]
      exact readDocument_append_renders hshown hne his
    · rw [htext]
      cases hread : readDocument (decode (bytesAt path w) ++
          (Text.gap (decode (bytesAt path w)) ++ issues.flatMap Issue.render)) with
      | error fault' => exact ⟨fault', rfl⟩
      | ok is =>
          obtain ⟨before, hbefore⟩ := exists_readDocument_of_append hhead hread
          cases hfault.symm.trans hbefore

/-- Two issues, of which the second bears a title that no headline shows as it is. -/
def twoNotes : List Issue :=
  let moment : DateTime := (Workspace.ofFiles ["w"] []).clock.startOfMinute
  [{ id := "a", title := "b", description := "c\n* d", createdAt := moment, state := .todo,
     priority := .b, tags := ["e"], properties := .empty, level := 1 },
   { id := "f", title := "g :h:", description := [], createdAt := moment, state := .done,
     priority := .none, tags := [], properties := .ofList [("K", "l")], level := 2 }]

/-- What is read of the entries of the two issues, one by one. -/
def twoNotesRead : List Issue :=
  twoNotes.flatMap fun i => ((readDocument i.render).toOption).getD []

/-- A document whose last line is open. -/
def openDocument : Workspace :=
  .ofFiles ["w"] [("notes.org", "#+TITLE: n\n* TODO m\n:PROPERTIES:\n:ID: m\n" ++
    ":CREATED: <2025-12-18 Thu 14:30>\n:END:\nbody")]

theorem isPossible_openDocument : IsPossible ⟨.relative, ["notes.org"]⟩ openDocument := by
  have hplain : ∀ s ∈ [("notes.org" : Text)], Path.IsPlainName s := by decide +kernel
  have hroot : openDocument.tree.find? ["w"] = some .directory := by decide +kernel
  refine ⟨by simp, fun s hs => (hplain s hs).isFileName, ⟨hroot, by simp, ?_⟩, by decide +kernel⟩
  intro s hs bytes hfile
  obtain rfl := List.prefix_nil.mp hs
  cases hroot.symm.trans hfile

theorem append_composes_openDocument :
    ∃ w' new before, twoNotes ≠ [] ∧
      List.Forall₂ (fun i j => readDocument i.render = .ok [j]) twoNotes twoNotesRead ∧
      (∀ i ∈ twoNotes, ∃ bytes, encode i.render = .ok bytes ∧ decode bytes = i.render) ∧
      IsPossible ⟨.relative, ["notes.org"]⟩ openDocument ∧
      (append ⟨.relative, ["notes.org"]⟩ twoNotes).runOn openDocument = (.ok 2, w') ∧
      readDocument (decode (bytesAt ⟨.relative, ["notes.org"]⟩ openDocument)) = .ok [before] ∧
      w'.content ⟨.relative, ["notes.org"]⟩ = .ok new ∧
      readDocument (decode new) = .ok (before :: twoNotesRead) := by
  have hne : twoNotes ≠ [] := by decide +kernel
  have hshown : List.Forall₂ (fun i j => readDocument i.render = .ok [j]) twoNotes twoNotesRead := by
    decide +kernel
  have hstable : ∀ i ∈ twoNotes, ∃ bytes, encode i.render = .ok bytes ∧ decode bytes = i.render := by
    decide +kernel
  have hpossible := isPossible_openDocument
  obtain ⟨is, hread, hone⟩ : ∃ is,
      readDocument (decode (bytesAt ⟨.relative, ["notes.org"]⟩ openDocument)) = .ok is ∧
        is.length = 1 := by
    decide +kernel
  obtain ⟨before, rfl⟩ := List.length_eq_one_iff.mp hone
  rcases hrun : (append ⟨.relative, ["notes.org"]⟩ twoNotes).runOn openDocument with ⟨r, w'⟩
  obtain ⟨-, hreturns, hafter⟩ := append_composes hne hshown hstable hrun
  obtain rfl := hreturns hpossible
  obtain ⟨new, hcontent, -, hreads, -⟩ := hafter 2 rfl
  exact ⟨w', new, before, hne, hshown, hstable, hpossible, rfl, hread, hcontent, hreads _ hread⟩

end Document

end TodoLedger
