import TodoLedger.Proofs.Document.Lone
/-!
# Reading what is written of one issue

What is written of an issue makes one entry, if its id and the keys of its properties can be set. The
drawer of the entry ends at its last line, or before it at a property that is written as the end of a
drawer. So the text of the issue is refused for its headline, or it is read to what the headline shows and
the drawer sets in front of its end.
-/

namespace TodoLedger

open Properties (sameKey)

/-! ## Keys -/

private theorem upper_of_sameKey {key word : Text} (hword : word ∈ frontKeys ++ laterKeys)
    (h : sameKey key word = true) : Text.upper key = word := by
  have hall : ∀ word ∈ frontKeys ++ laterKeys,
      (∀ d ∈ Text.fold word, d.code < 0x80 ∧ d ≠ Rune.ofChar 'k') ∧
        ¬"ss".toText <:+: Text.fold word ∧ Text.upper (Text.fold word) = word := by
    decide +kernel
  obtain ⟨hascii, hsharp, hupper⟩ := hall word hword
  rw [Text.upper_eq_of_fold hascii hsharp (of_decide_eq_true h), hupper]

theorem isLeadingKey_of_sameKey {key word : Text} (hword : word ∈ frontKeys ++ laterKeys)
    (h : sameKey key word = true) : isLeadingKey key = isLeadingKey word := by
  rw [isLeadingKey, isLeadingKey, upper_of_sameKey hword h,
    upper_of_sameKey hword (Properties.sameKey_self word)]

namespace Issue

variable {i j : Issue}

/-- What is written of the issue makes an entry, though a property may be taken for its end. -/
structure MakesEntry (i : Issue) : Prop where
  fits : i.Fits Text.EndFree
  trimmed : Text.IsTrimmed i.id
  notBlank : Text.isBlank i.id = false
  apart : Properties.Apart (i.properties.entries.map Prod.fst)
  setKeys : ∀ e ∈ i.properties.entries, IsSetKey e.1

/-! ## What is written -/

/-- The properties in front of a drawer. -/
def front (i : Issue) : List (Text × Text) :=
  [("ID".toText, i.id), ("CREATED".toText, Timestamp.encode i.createdAt true)] ++
  (if Headline.titleOf i ≠ Text.singleLine i.title && !i.properties.has "TITLE" then
    [("TITLE".toText, Text.singleLine i.title)] else [])

/-- The properties behind those in front. -/
def others (i : Issue) : List (Text × Text) :=
  (i.properties.entries.filter fun e => !isLeadingKey e.1).map fun e => (e.1, Text.singleLine e.2)

/-- The line of the property is taken for the end of the drawer. -/
def closes (e : Text × Text) : Bool := isMarkerLine endMarker (propertyLine e.1 e.2)

/-- The properties that stand in front of what is taken for the end of the drawer. -/
def kept (i : Issue) : Properties := ⟨i.others.takeWhile fun e => !closes e⟩

private def frontLine (e : Text × Text) : Text := propertyLine e.1 e.2

private def otherLine (e : Text × Text) : Text := Text.trimEnd (propertyLine e.1 e.2)

private theorem settingLines_eq (i : Issue) : i.settingLines (Headline.titleOf i) =
    i.front.map frontLine ++ i.others.map otherLine := by
  rw [settingLines, front, others, List.map_append, List.map_map]
  split_ifs
  · rfl
  · rfl

private theorem key_of_mem_front {e : Text × Text} (he : e ∈ i.front) :
    e.1 ∈ frontKeys ∧ (e.1 = "TITLE" → i.properties.has "TITLE" = false) := by
  have hleading : "ID".toText ≠ "TITLE" ∧ "CREATED".toText ≠ "TITLE" := by decide
  rw [front, List.mem_append, List.mem_cons, List.mem_singleton] at he
  rcases he with (rfl | rfl) | he
  · exact ⟨by simp [frontKeys], fun h => absurd h hleading.1⟩
  · exact ⟨by simp [frontKeys], fun h => absurd h hleading.2⟩
  · split_ifs at he with htitle
    · rw [List.mem_singleton.mp he]
      rw [Bool.and_eq_true, Bool.not_eq_true'] at htitle
      exact ⟨by simp [frontKeys], fun _ => htitle.2⟩
    · cases he

private theorem exists_of_mem_kept {e : Text × Text} (he : e ∈ i.kept.entries) :
    closes e = false ∧ ∃ v, (e.1, v) ∈ i.properties.entries ∧ isLeadingKey e.1 = false ∧
      e.2 = Text.singleLine v := by
  have hother : e ∈ i.others := (List.takeWhile_prefix _).subset he
  obtain ⟨d, hd, rfl⟩ := List.mem_map.mp hother
  obtain ⟨hmem, hleading⟩ := List.mem_filter.mp hd
  have hcloses := List.mem_takeWhile_imp he
  exact ⟨by simpa using hcloses, d.2, hmem, by simpa using hleading, rfl⟩

private theorem setting?_frontLine (h : i.MakesEntry) {e : Text × Text} (he : e ∈ i.front) :
    IsKey e.1 ∧ setting? (frontLine e) = some e := by
  rw [front, List.mem_append, List.mem_cons, List.mem_singleton] at he
  rcases he with (rfl | rfl) | he
  · refine ⟨isKey_leading.1, ?_⟩
    rw [frontLine, setting?_propertyLine isKey_leading.1.isSetKey h.fits.id.not_mem_lf,
      h.trimmed.trim_eq]
  · refine ⟨isKey_leading.2.1, ?_⟩
    have hbasic := Timestamp.isBasic_encode i.createdAt
    rw [frontLine, setting?_propertyLine isKey_leading.2.1.isSetKey
      (Text.lineClass_endFree.of_basic hbasic).not_mem_lf, Timestamp.trim_encode]
  · split_ifs at he
    · rw [List.mem_singleton.mp he]
      exact ⟨isKey_leading.2.2, setting?_singleLine isKey_leading.2.2.isSetKey i.title⟩
    · cases he

private theorem setting?_otherLine (h : i.MakesEntry) {e : Text × Text} (he : e ∈ i.kept.entries) :
    IsDrawerLine (otherLine e) ∧ setting? (otherLine e) = some e := by
  obtain ⟨hcloses, v, hmem, -, hvalue⟩ := exists_of_mem_kept he
  have hkey : IsSetKey e.1 := h.setKeys (e.1, v) hmem
  refine ⟨isDrawerLine_trimEnd hkey hcloses, ?_⟩
  rw [otherLine, setting?_trimEnd, hvalue, setting?_singleLine hkey, ← hvalue]

/-- Behind the lines that are kept a line ends the drawer, and none is a headline. -/
private theorem exists_closing (i : Issue) {es : List (Text × Text)}
    (hfirst : ∀ e r, es = e :: r → closes e = true) :
    ∃ closing body, es.map otherLine ++ (entryIndent ++ ":END:") :: [] :: i.bodyLines =
        closing :: body ∧
      isMarkerLine endMarker closing = true ∧
      ∀ line ∈ body, Reader.isHeadlineLine line = false := by
  have hdescription : ∀ line ∈ [] :: i.bodyLines, Reader.isHeadlineLine line = false :=
    List.forall_mem_cons.mpr ⟨rfl, fun line hline => isHeadlineLine_bodyLines hline⟩
  have hend : isMarkerLine endMarker (entryIndent ++ ":END:") = true := by decide +kernel
  cases es with
  | nil => exact ⟨_, _, rfl, hend, hdescription⟩
  | cons e r =>
      refine ⟨_, _, rfl, ?_, fun line hline => ?_⟩
      · rw [otherLine, isMarkerLine_trimEnd]
        exact hfirst e r rfl
      · rcases List.mem_append.mp hline with hline | hline
        · obtain ⟨d, -, rfl⟩ := List.mem_map.mp hline
          rw [otherLine, Reader.isHeadlineLine, head?_trimEnd_propertyLine]
          decide
        · rcases List.mem_cons.mp hline with rfl | hline
          · rfl
          · exact hdescription line hline

/-- What is written has the lines of an entry, whose drawer ends where it is taken to end. -/
private theorem exists_written (h : i.MakesEntry) : ∃ e : EntryLines,
    e.lines = (i.entryLines i.state).lines ∧ e.headline = i.renderHeadline ∧ e.HasShape ∧
      e.properties = .ofList (i.front ++ i.kept.entries) := by
  have hsplit : i.others = i.kept.entries ++ i.others.dropWhile fun e => !closes e :=
    List.takeWhile_append_dropWhile.symm
  obtain ⟨closing, body, hlines, hclosing, hbody⟩ :=
    @exists_closing i (i.others.dropWhile fun e => !closes e) fun e r her => by
      simpa using Span.not_of_dropWhile_eq_cons her
  refine ⟨⟨i.renderHeadline, [], entryIndent ++ ":PROPERTIES:",
    i.front.map frontLine ++ i.kept.entries.map otherLine, closing, body⟩, ?_, rfl, ?_, ?_⟩
  · simp only [EntryLines.lines, entryLines, settingLines_eq, List.append_assoc, ← hlines]
    rw [← List.append_assoc (List.map otherLine _), ← List.map_append, ← hsplit]
    rfl
  · refine ⟨by simp, ?_, fun line hline => ?_, hclosing, hbody⟩
    · show isMarkerLine drawerMarker (entryIndent ++ ":PROPERTIES:") = true
      decide +kernel
    · rcases List.mem_append.mp hline with hline | hline
      · obtain ⟨d, hd, rfl⟩ := List.mem_map.mp hline
        exact isDrawerLine_propertyLine (setting?_frontLine h hd).1 d.2
      · obtain ⟨d, hd, rfl⟩ := List.mem_map.mp hline
        exact (setting?_otherLine h hd).1
  · rw [EntryLines.properties, List.filterMap_append,
      filterMap_setting? fun d hd => (setting?_frontLine h hd).2,
      filterMap_setting? fun d hd => (setting?_otherLine h hd).2]

/-! ## What is set -/

/-- No key is written twice. -/
private theorem apart_written (h : i.MakesEntry) :
    Properties.Apart ((i.front ++ i.kept.entries).map Prod.fst) := by
  have hfront : Properties.Apart (i.front.map Prod.fst) := by
    rw [front]
    split_ifs
    · show Properties.Apart ["ID", "CREATED", "TITLE"]
      decide +kernel
    · show Properties.Apart ["ID", "CREATED"]
      decide +kernel
  have hkept : Properties.Apart (i.kept.entries.map Prod.fst) := by
    have hothers : i.others.map Prod.fst =
        (i.properties.entries.filter fun e => !isLeadingKey e.1).map Prod.fst := by
      rw [others, List.map_map]
      rfl
    have hsub : (i.kept.entries.map Prod.fst).Sublist (i.others.map Prod.fst) :=
      (List.takeWhile_sublist _).map _
    rw [hothers] at hsub
    exact h.apart.sublist (hsub.trans (List.filter_sublist.map _))
  rw [List.map_append]
  refine List.pairwise_append.mpr ⟨hfront, hkept, fun a ha b hb => ?_⟩
  obtain ⟨d, hd, rfl⟩ := List.mem_map.mp ha
  obtain ⟨e, he, rfl⟩ := List.mem_map.mp hb
  obtain ⟨-, v, hmem, hleading, -⟩ := exists_of_mem_kept he
  rw [Properties.sameKey_comm, Bool.eq_false_iff]
  intro hsame
  obtain ⟨hfrontKey, htitle⟩ := key_of_mem_front hd
  have hcases : ∀ word ∈ frontKeys, word = "TITLE" ∨ isLeadingKey word = true := by decide +kernel
  rcases hcases d.1 hfrontKey with hkey | hlead
  · have hnone := htitle hkey
    rw [Properties.has, ← hkey, ← Properties.get?_congr hsame,
      Properties.get?_of_mem h.apart hmem] at hnone
    cases hnone
  · rw [isLeadingKey_of_sameKey (List.mem_append_left _ hfrontKey) hsame, hlead] at hleading
    cases hleading

/-- What is read under the later keys is what is kept. -/
theorem get?_written {key : Text} (hkey : key ∈ laterKeys) :
    Properties.get? ⟨i.front ++ i.kept.entries⟩ key = i.kept.get? key := by
  have hnone : i.front.find? (fun e => sameKey e.1 key) = none := by
    rw [List.find?_eq_none]
    intro e he
    rw [sameKey_frontKeys e.1 (key_of_mem_front he).1 key hkey]
    exact Bool.false_ne_true
  rw [Properties.get?, List.find?_append, hnone, Option.none_or, Properties.get?]

/-- What is kept under a key was there, and is written on one line. -/
theorem of_get?_kept (h : i.MakesEntry) {key value : Text}
    (hget : i.kept.get? key = some value) :
    ∃ v, i.properties.get? key = some v ∧ value = Text.singleLine v := by
  obtain ⟨k, hmem, hsame⟩ := Properties.exists_mem_of_get? hget
  obtain ⟨-, v, hv, -, hvalue⟩ := exists_of_mem_kept hmem
  refine ⟨v, ?_, hvalue⟩
  rw [← Properties.get?_congr hsame, Properties.get?_of_mem h.apart hv]

/-- The issue that is made of what is written behind a headline. -/
private theorem toIssue_written (h : i.MakesEntry) (hyear : 1000 ≤ i.createdAt.year) {line : Int}
    {headline : Headline} {body : List Text} :
    (Draft.mk line headline ⟨i.front ++ i.kept.entries⟩ body).toIssue = .ok j ↔
      i.kept.HasNoOrFullSource ∧
        j = (Draft.mk line headline ⟨i.front ++ i.kept.entries⟩ body).issueWith i.id
          i.createdAt.startOfMinute := by
  have hapart := apart_written h
  have hid : Properties.get? ⟨i.front ++ i.kept.entries⟩ "ID" = some i.id :=
    Properties.get?_of_mem hapart (by simp [front])
  have hcreated : Properties.get? ⟨i.front ++ i.kept.entries⟩ "CREATED" =
      some (Timestamp.encode i.createdAt true) :=
    Properties.get?_of_mem hapart (by simp [front])
  have hmoment := Timestamp.decode_encode hyear
  have hsource : Properties.HasNoOrFullSource ⟨i.front ++ i.kept.entries⟩ ↔
      i.kept.HasNoOrFullSource :=
    Properties.hasNoOrFullSource_congr fun key hkey => get?_written (by simp [laterKeys, hkey])
  rw [Draft.toIssue_eq_ok_iff, ← hsource]
  constructor
  · rintro ⟨id, moment, hget, -, hfirst, hfull, rfl⟩
    obtain rfl := Option.some.inj (hid.symm.trans hget)
    obtain rfl := hfirst.eq hcreated hmoment
    exact ⟨hfull, rfl⟩
  · rintro ⟨hfull, rfl⟩
    refine ⟨i.id, i.createdAt.startOfMinute, hid, h.notBlank, ⟨_, ?_, hmoment⟩, hfull, rfl⟩
    rw [Properties.first?, createdKeys, List.findSome?_cons, hcreated]

/-- The written text is refused for its headline, or read to what is set and shown. -/
private theorem readDocument_render (h : i.MakesEntry) : ∃ body, readDocument i.render =
    match Headline.decode i.renderHeadline with
    | .error cause => .error (.document 1 (.headline cause))
    | .ok headline =>
      (Draft.mk 1 headline ⟨i.front ++ i.kept.entries⟩ body).toIssue.map fun j => [j] := by
  obtain ⟨e, hlines, hheadline, hshape, hproperties⟩ := exists_written h
  have hfree : ∀ line ∈ e.lines, Text.EndFree line := by
    rw [hlines]
    exact h.fits.of_mem_entryLines Text.lineClass_endFree i.state
  have hstar : Reader.isHeadlineLine e.headline = true := by
    rw [hheadline]
    exact isHeadlineLine_entryLines i i.state
  have hread := readDocument_lone hshape hstar hfree
  rw [hlines, ← render_eq, hheadline, hproperties,
    Properties.ofList_of_apart (apart_written h)] at hread
  exact ⟨e.body, hread⟩

/-- The issue that comes back under a headline. -/
def recovered (i : Issue) (headline : Headline) (body : List Text) : Issue :=
  (Draft.mk 1 headline ⟨i.front ++ i.kept.entries⟩ body).issueWith i.id i.createdAt.startOfMinute

theorem get?_recovered {headline : Headline} {body : List Text} {key : Text} (hkey : key ∈ laterKeys) :
    (i.recovered headline body).properties.get? key = i.kept.get? key :=
  get?_written hkey

/-- What is read of the written text. -/
theorem readDocument_render_iff (h : i.MakesEntry) (hyear : 1000 ≤ i.createdAt.year) :
    ∃ body, ∀ js, readDocument i.render = .ok js ↔
      ∃ headline, Headline.decode i.renderHeadline = .ok headline ∧ i.kept.HasNoOrFullSource ∧
        js = [i.recovered headline body] := by
  obtain ⟨body, hread⟩ := readDocument_render h
  refine ⟨body, fun js => ?_⟩
  rw [hread]
  cases hdecode : Headline.decode i.renderHeadline with
  | error cause => simp
  | ok headline =>
      simp only [Except.ok.injEq, exists_eq_left']
      constructor
      · intro hmap
        cases hissue : (Draft.mk 1 headline ⟨i.front ++ i.kept.entries⟩ body).toIssue with
        | error fault =>
            rw [hissue] at hmap
            cases hmap
        | ok j =>
            rw [hissue] at hmap
            obtain ⟨hfull, rfl⟩ := (toIssue_written h hyear).mp hissue
            exact ⟨hfull, (Except.ok.inj hmap).symm⟩
      · rintro ⟨hfull, rfl⟩
        rw [(toIssue_written h hyear).mpr ⟨hfull, rfl⟩]
        rfl

end Issue

end TodoLedger
