import TodoLedger.Proofs.Document.Composition
import TodoLedger.Proofs.Document.Parts
import TodoLedger.Proofs.Text.Reread
/-!
# Reading an issue that was added by hand

The title of an issue that somebody adds is written on one line, and its body is indented, so that no
text of these can disturb the document. Its tags are written as they are: a colon cuts one in two, and
a line end cuts the headline off. The issue is read back if there is no such tag, and if no escaped
bytes of the title and the tags make a character.
-/

namespace TodoLedger

open Utf8

/-! ## What can be read -/

/-- The text is read back from the tags of a headline. -/
structure Text.IsLegibleTag (t : Text) : Prop where
  isStable : IsStable t
  endFree : Text.EndFree t
  noColon : Rune.ofChar ':' ∉ t

/-- The title and the tags of an issue are such as are read of a document. -/
structure Issue.IsLegible (i : Issue) : Prop where
  title : IsStable i.title
  tags : ∀ t ∈ i.tags, Text.IsLegibleTag t

/-- Whatever is read of bytes is legible. -/
theorem isLegible_of_readDocument {bytes : Bytes} {issues : List Issue} {i : Issue}
    (hread : readDocument (decode bytes) = .ok issues) (hi : i ∈ issues) : i.IsLegible := by
  have hstable : ∀ line ∈ Text.bodies (Text.dropBom (decode bytes)), IsStable line := by
    intro line hline
    obtain ⟨l, hl, rfl⟩ := List.mem_map.mp hline
    have hdocument := isStable_decode bytes
    exact Text.isStable_of_mem_lines (hdocument.of_infix (Text.dropBom_suffix _).isInfix) hl
  obtain ⟨⟨line, hline, htitle⟩, htags⟩ := parts_of_readDocument hread hi
  refine ⟨IsStable.of_infix (hstable line hline) htitle, fun tag htag => ?_⟩
  obtain ⟨line, hline, hpart, hcolon⟩ := htags tag htag
  exact ⟨IsStable.of_infix (hstable line hline) hpart,
    Text.EndFree.of_infix hpart (Text.endFree_of_mem_bodies hline), hcolon⟩

/-! ## Issues that are added -/

/-- The issue is one that somebody adds by hand at a moment. -/
structure IsAdded (now : DateTime) (i : Issue) : Prop where
  id : i.id = "task-" ++ now.dateDigits ++ now.timeDigits
  title : i.title ≠ [] ∧ Text.singleLine i.title = i.title
  createdAt : i.createdAt = now.startOfMinute
  nodup : i.tags.Nodup
  tags : ∀ t ∈ i.tags, t ≠ [] ∧ Text.IsTrimmed t
  entries : i.properties.entries =
    [("ID".toText, i.id), ("TITLE".toText, i.title), ("CREATED".toText, Timestamp.encode now true)]

private theorem apart_properties : Properties.Apart ["ID", "TITLE", "CREATED"] := by
  decide +kernel

theorem isAdded_newIssue {title body : Text} {priority : Priority} {state : State} {tags : List Text}
    {now : DateTime} {i : Issue} (h : newIssue title priority state tags body now = .ok i) :
    IsAdded now i := by
  rw [newIssue] at h
  simp only at h
  split_ifs at h with hempty hgroup
  obtain rfl := Except.ok.inj h
  have hline := Text.isTrimmed_singleLine title
  refine ⟨rfl, ⟨by simpa using hempty, ?_⟩, rfl, nodup_distinct _, fun t ht => ?_, ?_⟩
  · exact Text.singleLine_eq_self_iff.mpr ⟨Text.breakFree_singleLine title, hline⟩
  · obtain ⟨hmem, hne⟩ := List.mem_filter.mp (mem_distinct.mp ht)
    obtain ⟨raw, -, rfl⟩ := List.mem_map.mp hmem
    exact ⟨by simpa using hne, Text.isTrimmed_trim raw⟩
  · exact congrArg Properties.entries (Properties.ofList_of_apart apart_properties)

namespace IsAdded

variable {now : DateTime} {i j : Issue} {Q : Text → Prop} {old : Bytes} {is : List Issue}

theorem withDescription (h : IsAdded now i) (description : Text) :
    IsAdded now { i with description } :=
  ⟨h.id, h.title, h.createdAt, h.nodup, h.tags, h.entries⟩

theorem isGroupTag (h : IsAdded now i) (hlegible : i.IsLegible) :
    ∀ t ∈ i.tags, Headline.IsGroupTag t := fun t ht =>
  ⟨(h.tags t ht).1, (h.tags t ht).2, (hlegible.tags t ht).noColon⟩

/-! ## What is written of them -/

/-- The id is a word without markup. -/
theorem isVisible_id (h : IsAdded now i) : ∀ c ∈ i.id, c.IsVisible ∧ Headline.isMarkup c = false := by
  have hdigit : ∀ c : Rune, c.IsDigit → c.IsVisible ∧ Headline.isMarkup c = false := by
    intro c hc
    have hcolon : c ≠ Rune.ofChar ':' := hc.ne (by decide)
    have hopen : c ≠ Rune.ofChar '[' := hc.ne (by decide)
    have hclose : c ≠ Rune.ofChar ']' := hc.ne (by decide)
    exact ⟨hc.isVisible, by simp [Headline.isMarkup, hcolon, hopen, hclose]⟩
  have htask : ∀ c ∈ ("task-" : Text), c.IsVisible ∧ Headline.isMarkup c = false := by decide
  rw [h.id]
  simp only [List.forall_mem_append]
  exact ⟨⟨htask, fun c hc => hdigit c (DateTime.isDigit_of_mem_dateDigits hc)⟩,
    fun c hc => hdigit c (DateTime.isDigit_of_mem_timeDigits hc)⟩

private theorem exists_front (h : IsAdded now i) : ∃ r, i.id = Rune.ofChar 't' :: r := by
  rw [h.id]
  exact ⟨_, rfl⟩

/-- The drawer shows three properties. -/
theorem settings_eq (h : IsAdded now i) (shown : Text) : i.settings shown =
    [("ID".toText, i.id), ("CREATED".toText, Timestamp.encode now true),
      ("TITLE".toText, i.title)] := by
  have htrimmed : Text.trim i.id = i.id :=
    (Text.isTrimmed_of_not_blank fun c hc => (h.isVisible_id c hc).1.isBlank).trim_eq
  have hmoment : Timestamp.encode i.createdAt true = Timestamp.encode now true := by
    rw [h.createdAt]
    rfl
  rw [Issue.settings_of_entries htrimmed hmoment h.entries (by simp), h.title.2, List.map_nil]

section Settings

variable {key value shown : Text}

private theorem apart_settings (h : IsAdded now i) :
    Properties.Apart ((i.settings shown).map Prod.fst) := by
  rw [h.settings_eq]
  show Properties.Apart ["ID", "CREATED", "TITLE"]
  decide +kernel

/-- What the drawer shows is found under its keys. -/
theorem get?_settings (h : IsAdded now i)
    (hmem : (key, value) ∈ [("ID".toText, i.id), ("CREATED".toText, Timestamp.encode now true),
      ("TITLE".toText, i.title)]) :
    (Properties.ofList (i.settings shown)).get? key = some value := by
  rw [← h.settings_eq shown] at hmem
  rw [Properties.ofList_of_apart h.apart_settings]
  exact Properties.get?_of_mem h.apart_settings hmem

/-- Nothing else of what is read of a drawer is found. -/
theorem get?_others (h : IsAdded now i) (hkey : key ∈ laterKeys) :
    (Properties.ofList (i.settings shown)).get? key = none := by
  rw [Properties.ofList_of_apart h.apart_settings, Properties.get?, List.find?_eq_none.mpr]
  · rfl
  · intro e he
    rw [h.settings_eq] at he
    rw [sameKey_frontKeys e.1 (List.mem_map_of_mem (f := Prod.fst) he) key hkey]
    decide

theorem complete (h : IsAdded now i) (hyear : 1000 ≤ now.year) :
    (Properties.ofList (i.settings shown)).Complete := by
  obtain ⟨r, hfront⟩ := h.exists_front
  have hcreated : (Properties.ofList (i.settings shown)).get? "CREATED" =
      some (Timestamp.encode now true) := h.get?_settings (by simp)
  constructor
  · refine ⟨i.id, h.get?_settings (by simp), ?_⟩
    rw [hfront]
    rfl
  · refine ⟨now.startOfMinute, Timestamp.encode now true, ?_, Timestamp.decode_encode hyear⟩
    rw [Properties.first?, createdKeys, List.findSome?_cons, hcreated]
  · left
    intro key hkey
    rw [Properties.has, h.get?_others (by simp [laterKeys, hkey])]
    rfl

end Settings

theorem isWritable (h : IsAdded now i) (hyear : 1000 ≤ now.year) (hQ : Text.LineClass Q)
    (htitle : Q i.title) (htags : ∀ t ∈ i.tags, Q t)
    (hdescription : ∀ p ∈ Text.pieces i.description, Q p) : i.IsWritable Q := by
  obtain ⟨r, hfront⟩ := h.exists_front
  have hid : Q i.id := hQ.of_basic fun c hc => (h.isVisible_id c hc).1.isBasic
  have hkeys : ∀ key ∈ ["ID".toText, "TITLE", "CREATED"], IsKey key ∧ ∀ c ∈ key, c.IsBasic := by
    decide +kernel
  refine ⟨hid, ⟨_, r, hfront, by decide, by decide⟩, by rwa [h.title.2], hdescription, htags, ?_,
    h.complete hyear⟩
  intro e he
  rw [h.entries] at he
  obtain ⟨hkey, hbasic⟩ := hkeys e.1 (List.mem_map_of_mem (f := Prod.fst) he)
  refine ⟨⟨hkey, hQ.of_basic hbasic⟩, ?_⟩
  simp only [List.mem_cons, List.not_mem_nil, or_false] at he
  rcases he with rfl | rfl | rfl
  · rwa [Text.singleLine_of_visible fun c hc => (h.isVisible_id c hc).1]
  · rwa [h.title.2]
  · have hbasic := Timestamp.isBasic_encode now
    rw [Text.singleLine_of_breakFree (Text.lineClass_breakFree.of_basic hbasic),
      Timestamp.trim_encode]
    exact hQ.of_basic hbasic

section Legible

variable (h : IsAdded now i) (hyear : 1000 ≤ now.year) (hlegible : i.IsLegible)

include h hyear hlegible

private theorem fits_of_legible (hQ : Text.LineClass Q)
    (hclass : ∀ t, IsStable t → Text.EndFree t → Q t)
    (hdescription : ∀ p ∈ Text.pieces i.description, Q p) : i.IsWritable Q := by
  refine h.isWritable hyear hQ (hclass _ hlegible.title ?_)
    (fun t ht => hclass t (hlegible.tags t ht).isStable (hlegible.tags t ht).endFree) hdescription
  rw [← h.title.2]
  exact (Text.breakFree_singleLine _).endFree

theorem isWritable_endFree : i.IsWritable Text.EndFree :=
  fits_of_legible h hyear hlegible Text.lineClass_endFree
    (fun _ _ hfree => hfree)
    fun p hp => ((Text.pieces_spec i.description).2 p hp).2.endFree

/-- All lines but those of the description are read back from their bytes. -/
theorem reread_of_mem_lines {line : Text}
    (hline : line ∈ ({ i with description := [] }.entryLines i.state).lines) :
    reread line = line := by
  have hQ := Text.lineClass_endFree.and_isStable
  have hwritable := fits_of_legible (h.withDescription []) hyear ⟨hlegible.title, hlegible.tags⟩ hQ
    (fun t hstable hfree => ⟨hstable, hfree⟩) (by simp [Text.pieces])
  exact reread_eq_self_iff.mpr (Issue.fits_of_mem_entryLines hQ hwritable i.state line hline).1

end Legible

end IsAdded

/-! ## What is read of them -/

/-- The lines that the entry of an issue is read back to: those of its description may hold other
characters. -/
def Issue.rereadLines (i : Issue) : EntryLines :=
  { i.entryLines i.state with body := (i.entryLines i.state).body.map reread }

/-- The two issues agree in their id, title, state, priority and tags. -/
structure Issue.Agrees (i j : Issue) : Prop where
  id : j.id = i.id
  title : j.title = i.title
  state : j.state = i.state
  priority : j.priority = i.priority
  tags : j.tags = i.tags

theorem reread_ofBodies (bodies : List Text) :
    reread (Text.ofBodies bodies) = Text.ofBodies (bodies.map reread) := by
  induction bodies with
  | nil => rfl
  | cons b bodies ih =>
      rw [Text.ofBodies_cons, reread_append_cons (by decide) (by decide), ih, List.map_cons,
        Text.ofBodies_cons]

/-- A character of the description that is not blank stands in the entry. -/
theorem Issue.mem_render_of_mem_description {i : Issue} {c : Rune} (hc : c.isBlank = false)
    (hmem : c ∈ i.description) : c ∈ i.render := by
  obtain ⟨p, hp, hpiece⟩ := Text.exists_mem_pieces hc hmem
  have hempty : i.description.isEmpty = false := by
    rw [List.isEmpty_eq_false_iff]
    exact List.ne_nil_of_mem hmem
  have hblank : Text.isBlank p = false := by
    by_contra h
    rw [Bool.not_eq_false, Text.isBlank_iff] at h
    rw [h c hpiece] at hc
    cases hc
  have hline : entryIndent ++ p ∈ i.bodyLines := by
    rw [bodyLines, hempty, if_neg (by simp), List.mem_append, List.mem_map]
    exact Or.inl ⟨p, hp, by rw [hblank]; rfl⟩
  rw [render_eq, Text.mem_ofBodies]
  refine ⟨entryIndent ++ p, ?_, Or.inl (List.mem_append_right _ hpiece)⟩
  simp [EntryLines.lines, entryLines, hline]

theorem isEncodable_of_isBlank {c : Rune} (h : c.isBlank = true) : isEncodable c = true := by
  have hcodes : ∀ n ∈ Rune.blankCodes, n < 0xD800 := by decide
  have hlow := hcodes _ (Rune.mem_blankCodes h)
  have hplain : isSurrogate c = false := by
    rw [isSurrogate, decide_eq_false (by omega), Bool.false_and]
  rw [isEncodable, hplain, Bool.not_false, Bool.or_true]

namespace IsAdded

section Legible

variable {now : DateTime} {i j : Issue} {old : Bytes} {is : List Issue} (h : IsAdded now i)
  (hyear : 1000 ≤ now.year) (hlegible : i.IsLegible)

include h hyear hlegible

theorem map_reread_lines : (i.entryLines i.state).lines.map reread = i.rereadLines.lines := by
  have hkept : ∀ line ∈ ({ i with description := [] }.entryLines i.state).lines, reread line = line :=
    fun line hline => reread_of_mem_lines h hyear hlegible hline
  have hdrawer : (i.entryLines i.state).drawer.map reread = (i.entryLines i.state).drawer := by
    refine (List.map_congr_left fun line hline => hkept line ?_).trans (List.map_id _)
    simp only [EntryLines.lines, List.mem_cons, List.mem_append]
    exact Or.inr (Or.inr (Or.inr (Or.inl hline)))
  have hheadline : reread (i.entryLines i.state).headline = (i.entryLines i.state).headline :=
    hkept _ List.mem_cons_self
  have hopening : reread (i.entryLines i.state).opening = (i.entryLines i.state).opening :=
    hkept _ (List.mem_cons_of_mem _ List.mem_cons_self)
  have hclosing : reread (i.entryLines i.state).closing = (i.entryLines i.state).closing := by
    refine hkept _ ?_
    simp only [EntryLines.lines, List.mem_cons, List.mem_append]
    exact Or.inr (Or.inr (Or.inr (Or.inr (Or.inl rfl))))
  have hblanks : (i.entryLines i.state).blanks = [] := rfl
  simp only [Issue.rereadLines, EntryLines.lines, List.map_cons, List.map_append, hheadline,
    hopening, hdrawer, hclosing, hblanks, List.map_nil]

theorem isEntry_rereadLines : i.rereadLines.IsEntry := by
  have hentry := Issue.isEntry_entryLines Text.lineClass_endFree
    (isWritable_endFree h hyear hlegible) i.state
  refine ⟨hentry.headline, hentry.blanks, hentry.opening, hentry.drawer, hentry.closing, ?_,
    hentry.complete⟩
  intro line hline
  obtain ⟨b, hb, rfl⟩ := List.mem_map.mp hline
  have hform : b = [] ∨ ∃ r, b = Rune.ofChar ' ' :: r := by
    rcases List.mem_cons.mp hb with rfl | hb
    · exact Or.inl rfl
    · exact Issue.form_of_mem_bodyLines hb
  -- Where a line is indented, the blank keeps what comes together behind it off the margin.
  rcases hform with rfl | ⟨r, rfl⟩
  · rfl
  · rw [reread_cons (by decide) (by decide)]
    rfl

/-- What is read of the entry agrees with the issue. -/
theorem agrees_of_yields (hyields : i.rereadLines.Yields j) : i.Agrees j := by
  have hQ := Text.lineClass_endFree
  have hwritable := isWritable_endFree h hyear hlegible
  obtain ⟨title, hshown⟩ := Headline.shown?_titleOf hQ hwritable.title
    (fun t ht => ⟨hwritable.tags t ht, h.isGroupTag hlegible t ht⟩)
    (Or.inr ⟨by obtain ⟨r, hfront⟩ := h.exists_front; simp [hfront],
      Text.isTrimmed_of_not_blank fun c hc => (h.isVisible_id c hc).1.isBlank,
      fun c hc => (h.isVisible_id c hc).2⟩)
  obtain ⟨priority, title', tags, hshown', hdecode⟩ :=
    Issue.headline_entryLines hQ hwritable i.state
  obtain ⟨rfl, rfl, rfl⟩ : i.priority = priority ∧ title = title' ∧ i.tags = tags := by
    simpa [hshown] using hshown'
  obtain ⟨headline, line, hheadline, hissue⟩ := hyields
  obtain rfl := Except.ok.inj (hdecode.symm.trans hheadline)
  obtain ⟨id, moment, hid, -, -, -, rfl⟩ := (Draft.toIssue_eq_ok_iff _ _).mp hissue
  have hproperties : i.rereadLines.properties = .ofList (i.settings (Headline.titleOf i)) := by
    rw [← Issue.filterMap_settingLines hQ hwritable]
    rfl
  have hget : ∀ key value, (key, value) ∈ [("ID".toText, i.id),
      ("CREATED".toText, Timestamp.encode now true), ("TITLE".toText, i.title)] →
      i.rereadLines.properties.get? key = some value := fun key value hmem => by
    rw [hproperties]
    exact h.get?_settings hmem
  have hothers : ∀ key ∈ laterKeys,
      i.rereadLines.properties.get? key = none := fun key hkey => by
    rw [hproperties]
    exact h.get?_others hkey
  refine ⟨Option.some.inj (hid.symm.trans (hget _ _ (by simp))),
    Draft.title_issueWith h.title.1 (hget _ _ (by simp)), rfl, ?_, ?_⟩
  -- The drawer says nothing of the priority and the tags, so that those of the headline count.
  · show ((i.rereadLines.properties.get? "PRIORITY").bind Priority.ofName?).getD i.priority = _
    rw [hothers _ (by simp [laterKeys])]
    rfl
  · show distinct (((i.rereadLines.properties.get? "TAGS").map Entry.tagsOf).getD i.tags) = _
    rw [hothers _ (by simp [laterKeys])]
    exact distinct_of_nodup h.nodup

/-- Behind any document that can be read the entry is read to an issue that agrees. -/
theorem readDocument_append_entry {added : Text}
    (hadded : added = Text.gap (decode old) ++ [i].flatMap Issue.render)
    (hread : readDocument (decode old) = .ok is) :
    ∃ j, readDocument (decode (old ++ bytesOf added)) = .ok (is ++ [j]) ∧ i.Agrees j := by
  have hrender : decode (bytesOf ([i].flatMap Issue.render)) = Text.ofBodies i.rereadLines.lines := by
    rw [List.flatMap_singleton, Issue.render_eq, ← map_reread_lines h hyear hlegible,
      ← reread_ofBodies]
    rfl
  have hfree : ∀ line ∈ i.rereadLines.lines, Text.EndFree line := by
    rw [← map_reread_lines h hyear hlegible]
    intro line hline
    obtain ⟨b, hb, rfl⟩ := List.mem_map.mp hline
    exact endFree_reread (Issue.fits_of_mem_entryLines Text.lineClass_endFree
      (isWritable_endFree h hyear hlegible) i.state b hb)
  obtain ⟨htext, hhead⟩ := @Issue.decode_append_render [i] (by simp) old
  rw [hrender] at htext hhead
  have hbodies : Text.bodies (Text.ofBodies i.rereadLines.lines) =
      [i.rereadLines].flatMap EntryLines.lines := by
    rw [Text.bodies_ofBodies hfree, List.flatMap_singleton]
  obtain ⟨js, hjs, hyields⟩ := readDocument_append_entries hbodies hhead
    (List.forall_mem_singleton.mpr (isEntry_rereadLines h hyear hlegible)) hread
  obtain ⟨j, rest, hj, hrest, rfl⟩ := List.forall₂_cons_left_iff.mp hyields
  obtain rfl := List.forall₂_nil_left_iff.mp hrest
  exact ⟨j, by rw [hadded, htext, hjs], agrees_of_yields h hyear hlegible hj⟩

/-- The entry has a written form if the description has. -/
theorem isEncodable_render_iff : (∀ c ∈ i.render, isEncodable c = true) ↔
    ∀ c ∈ i.description, isEncodable c = true := by
  constructor
  · intro hrender c hc
    cases hblank : c.isBlank with
    | true => exact isEncodable_of_isBlank hblank
    | false => exact hrender c (Issue.mem_render_of_mem_description hblank hc)
  · rw [Issue.render_eq]
    intro hdescription c hc
    obtain ⟨line, hline, hmem⟩ := Text.mem_ofBodies.mp hc
    have hQ := Text.lineClass_endFree.and_isEncodable
    have hwritable := fits_of_legible h hyear hlegible hQ
      (fun t hstable hfree => ⟨hstable.isEncodable, hfree⟩) fun p hp => by
        obtain ⟨hpart, hbreak⟩ := (Text.pieces_spec i.description).2 p hp
        exact ⟨fun c hc => hdescription c (hpart.subset hc), hbreak.endFree⟩
    rcases hmem with hmem | rfl
    · exact (Issue.fits_of_mem_entryLines hQ hwritable i.state line hline).1 c hmem
    · decide

end Legible

end IsAdded

/-! ## Adding an issue -/

namespace Document

open Work Workspace

variable {title body : Text} {priority : Priority} {state : State} {tags : List Text}
  {now : DateTime} {i : Issue} {is : List Issue} {document : Path} {w w' : Workspace}

/-- An issue that was added by hand is read behind the issues of the document exactly if it is
legible, that is if its tags hold no colon and no line end, and no escaped bytes of its title and its
tags make a character. Its body may be any text. Where a file can be, a legible issue is added exactly
if its body can be written. -/
theorem append_newIssue_reads_back_iff {r : Except Fault Nat}
    (hnew : newIssue title priority state tags body now = .ok i) (hyear : 1000 ≤ now.year)
    (hread : readDocument (decode (bytesAt document w)) = .ok is)
    (hrun : (append document [i]).runOn w = (r, w')) :
    (∀ f, r = .error f → f.IsOfFiles) ∧
    (IsPossible document w → i.IsLegible →
      (r = .ok 1 ↔ ∀ c ∈ i.description, isEncodable c = true)) ∧
    ∀ n, r = .ok n → n = 1 ∧ ∃ bytes, w'.content document = .ok bytes ∧
      ((∃ j, readDocument (decode bytes) = .ok (is ++ [j]) ∧ i.Agrees j) ↔ i.IsLegible) := by
  have hadded := isAdded_newIssue hnew
  have hsuccess : ∀ n, r = .ok n → n = 1 ∧
      ∃ bytes, encode (Text.gap (decode (bytesAt document w)) ++ [i].flatMap Issue.render) =
        .ok bytes ∧ w'.content document = .ok (bytesAt document w ++ bytes) := by
    rintro n rfl
    exact content_of_append (by simp) hrun
  refine ⟨?_, fun hpossible hlegible => ?_, fun n hn => ?_⟩
  · rintro f rfl
    exact failsIn_append document [i] w f w' hrun
  · rw [← hadded.isEncodable_render_iff hyear hlegible]
    constructor
    · intro hok
      obtain ⟨-, bytes, hencode, -⟩ := hsuccess 1 hok
      have hall := (encode_eq_ok_iff.mp hencode).1
      rw [List.flatMap_singleton] at hall
      exact (List.forall_mem_append.mp hall).2
    · intro hencodable
      have hgap : ∀ old, ∀ c ∈ Text.gap old, isEncodable c = true := by
        intro old c hc
        rcases Text.gap_cases old with hnil | hlf
        · rw [hnil] at hc
          cases hc
        · rw [hlf] at hc
          rw [List.mem_singleton.mp hc]
          decide
      obtain ⟨v, happended⟩ := @runOn_append document [i] w hpossible (by simp) fun old =>
        ⟨_, encode_eq (List.forall_mem_append.mpr
          ⟨hgap old, by rwa [List.flatMap_singleton]⟩)⟩
      exact (Prod.mk.inj (hrun.symm.trans happended)).1
  · obtain ⟨rfl, bytes, hencode, hcontent⟩ := hsuccess n hn
    obtain ⟨-, rfl⟩ := encode_eq_ok_iff.mp hencode
    refine ⟨rfl, _, hcontent, fun ⟨j, hj, hagrees⟩ => ?_, fun hlegible =>
      hadded.readDocument_append_entry hyear hlegible rfl hread⟩
    obtain ⟨htitle, htags⟩ := isLegible_of_readDocument hj (List.mem_append_right _ List.mem_cons_self)
    exact ⟨hagrees.title ▸ htitle, hagrees.tags ▸ htags⟩

/-- The title starts like a cookie and ends like tags, and the body holds a headline and the end of a
drawer. -/
theorem append_newIssue_reads_back_iff_openDocument :
    ∃ i before w' bytes j, newIssue "[#A] c :d:" .b .inProgress [" e ", "e", "f\u2028g"]
        "* TODO h\n:END:" openDocument.clock = .ok i ∧ 1000 ≤ openDocument.clock.year ∧
      IsPossible ⟨.relative, ["notes.org"]⟩ openDocument ∧ i.IsLegible ∧
      readDocument (decode (bytesAt ⟨.relative, ["notes.org"]⟩ openDocument)) = .ok [before] ∧
      (append ⟨.relative, ["notes.org"]⟩ [i]).runOn openDocument = (.ok 1, w') ∧
      w'.content ⟨.relative, ["notes.org"]⟩ = .ok bytes ∧
      readDocument (decode bytes) = .ok [before, j] ∧ i.Agrees j := by
  obtain ⟨i, hnew, hdescription, htitle, htags⟩ : ∃ i, newIssue "[#A] c :d:" .b .inProgress
      [" e ", "e", "f\u2028g"] "* TODO h\n:END:" openDocument.clock = .ok i ∧
      (∀ c ∈ i.description, isEncodable c = true) ∧ reread i.title = i.title ∧
      ∀ t ∈ i.tags, reread t = t ∧ (∀ c ∈ t, c.isLineEnd = false) ∧ Rune.ofChar ':' ∉ t := by
    decide +kernel
  have hlegible : i.IsLegible := by
    refine ⟨reread_eq_self_iff.mp htitle, fun t ht => ?_⟩
    obtain ⟨hstable, hfree, hcolon⟩ := htags t ht
    exact ⟨reread_eq_self_iff.mp hstable, hfree, hcolon⟩
  obtain ⟨is, hread, hone⟩ : ∃ is,
      readDocument (decode (bytesAt ⟨.relative, ["notes.org"]⟩ openDocument)) = .ok is ∧
        is.length = 1 := by
    decide +kernel
  obtain ⟨before, rfl⟩ := List.length_eq_one_iff.mp hone
  rcases hrun : (append ⟨.relative, ["notes.org"]⟩ [i]).runOn openDocument with ⟨r, w'⟩
  have hyear : 1000 ≤ openDocument.clock.year := by decide +kernel
  obtain ⟨-, hreturns, hafter⟩ := append_newIssue_reads_back_iff hnew hyear hread hrun
  obtain rfl := (hreturns isPossible_openDocument hlegible).mpr hdescription
  obtain ⟨-, bytes, hcontent, hiff⟩ := hafter 1 rfl
  obtain ⟨j, hj, hagrees⟩ := hiff.mpr hlegible
  exact ⟨i, before, w', bytes, j, hnew, hyear, isPossible_openDocument, hlegible, hread, hrun,
    hcontent, hj, hagrees⟩

/-- A tag with a colon is read as two, and one with a line feed makes the whole document unreadable. -/
theorem append_newIssue_cuts_tag :
    (∃ i, newIssue "c" .none .todo ["a:b"] [] openDocument.clock = .ok i ∧ i.tags = ["a:b".toText] ∧
      ∃ is, readDocument (((append ⟨.relative, ["notes.org"]⟩ [i]).runOn openDocument).2.textAt
        ⟨.relative, ["notes.org"]⟩) = .ok is ∧ is.map Issue.tags = [[], ["a".toText, "b"]]) ∧
    ∃ i, newIssue "c" .none .todo ["a\nb"] [] openDocument.clock = .ok i ∧
      ((append ⟨.relative, ["notes.org"]⟩ [i]).runOn openDocument).1 = .ok 1 ∧
      readDocument (((append ⟨.relative, ["notes.org"]⟩ [i]).runOn openDocument).2.textAt
        ⟨.relative, ["notes.org"]⟩) = .error (.document 8 (.noId "c :a")) := by
  decide +kernel

end Document

end TodoLedger
