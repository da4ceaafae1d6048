import TodoLedger.Document.Writer
import TodoLedger.Proofs.Document.Acceptance
import TodoLedger.Proofs.Headline
import TodoLedger.Proofs.Properties
import TodoLedger.Proofs.Text.CaseImage
import TodoLedger.Proofs.Text.Stable
import TodoLedger.Proofs.Timestamp
/-!
# Reading a written document

The lines that an issue is written on are those of an entry: its drawer sets the properties that
were written, and its body starts with a blank line. So written issues make a document, which is
read to one issue for each.
-/

namespace TodoLedger

open Utf8

/-! ## A written property -/

/-- A key that is read back from a line of a drawer. -/
def IsKey (key : Text) : Prop :=
  (Rune.ofChar ':' ∉ key ∧ Text.isBlank key = false ∧ Text.trim key = key) ∧
    Rune.ofChar ':' ∉ Text.upper key ∧ Text.upper key ≠ "END"

instance (key : Text) : Decidable (IsKey key) := inferInstanceAs (Decidable (_ ∧ _))

/-- A key that a line of a drawer can set, if the line is not taken for the end of the drawer. -/
structure IsSetKey (key : Text) : Prop where
  noColon : Rune.ofChar ':' ∉ key
  notBlank : Text.isBlank key = false
  trim_eq : Text.trim key = key

theorem IsKey.isSetKey {key : Text} (h : IsKey key) : IsSetKey key := ⟨h.1.1, h.1.2.1, h.1.2.2⟩

section Setting

variable {key value line : Text}

theorem trim_propertyLine (key value : Text) : Text.trim (propertyLine key value) =
    Rune.ofChar ':' :: key ++ Rune.ofChar ':' :: Text.trimEnd (Rune.ofChar ' ' :: value) := by
  have hline : propertyLine key value =
      entryIndent ++ Rune.ofChar ':' :: (key ++ Rune.ofChar ':' :: Rune.ofChar ' ' :: value) := by
    simp [propertyLine, String.toText]
  rw [hline, Text.trim_append (by decide), Text.trim_cons (by decide),
    Text.trimEnd_append_cons (by decide)]
  rfl

theorem setting?_propertyLine (hkey : IsSetKey key) (hvalue : Rune.ofChar '\n' ∉ value) :
    setting? (propertyLine key value) = some (key, Text.trim value) := by
  have hend : Rune.ofChar '\n' ∉ Text.trimEnd (Rune.ofChar ' ' :: value) := by
    intro hmem
    have hpart : Text.trimEnd (Rune.ofChar ' ' :: value) <+: Rune.ofChar ' ' :: value := by
      exact List.rdropWhile_prefix Rune.isBlank _
    rcases List.mem_cons.mp (hpart.subset hmem) with h | h
    · exact absurd h (by decide)
    · exact hvalue h
  have htrim : Text.trim (Text.trimEnd (Rune.ofChar ' ' :: value)) = Text.trim value := by
    rw [Text.trim_trimEnd, ← List.singleton_append, Text.trim_append (by decide)]
  rw [setting?, trim_propertyLine, propertyOf?_of_form hkey.noColon hend, htrim, hkey.trim_eq]
  rfl

theorem setting?_trimEnd (line : Text) : setting? (Text.trimEnd line) = setting? line := by
  rw [setting?, setting?, Text.trim_trimEnd]

/-- A value on one line is set as it is. -/
theorem setting?_singleLine (hkey : IsSetKey key) (value : Text) :
    setting? (propertyLine key (Text.singleLine value)) = some (key, Text.singleLine value) := by
  rw [setting?_propertyLine hkey (Text.breakFree_singleLine value).endFree.not_mem_lf,
    (Text.isTrimmed_singleLine value).trim_eq]

/-- The line of a property is taken for the end of a drawer only if its key is `END` and its value is
blank. -/
theorem of_isMarkerLine_propertyLine (hkey : Rune.ofChar ':' ∉ key)
    (h : isMarkerLine endMarker (propertyLine key value) = true) :
    Text.upper key = "END" ∧ Text.isBlank value = true := by
  have hupper : Text.upper (Rune.ofChar ':' :: key ++
      Rune.ofChar ':' :: Text.trimEnd (Rune.ofChar ' ' :: value)) = endMarker := by
    rw [← trim_propertyLine]
    exact of_decide_eq_true h
  have hsplit : Text.upper key ++
      Rune.ofChar ':' :: Text.upper (Text.trimEnd (Rune.ofChar ' ' :: value)) =
      "END".toText ++ [Rune.ofChar ':'] := by
    rw [Text.upper_append] at hupper
    exact (List.cons.inj hupper).2
  obtain ⟨hend, hbehind⟩ := Span.split_at_first (Text.colon_not_mem_upper hkey) (by decide) hsplit
  refine ⟨hend, ?_⟩
  have hnil : Text.trimEnd (Rune.ofChar ' ' :: value) = [] := by
    by_contra hne
    obtain ⟨c, r, hcons⟩ := List.exists_cons_of_ne_nil hne
    rw [hcons] at hbehind
    exact absurd hbehind (by
      rw [Text.upper, List.flatMap_cons]
      exact fun h => Rune.upper_ne_nil c (List.append_eq_nil_iff.mp h).1)
  rw [Text.trimEnd_eq_nil_iff, Text.isBlank, List.all_cons, Bool.and_eq_true] at hnil
  exact hnil.2

theorem isDrawerLine_of_trim {rest : Text} (hkey : IsSetKey key)
    (hline : line.head? = some (Rune.ofChar ' '))
    (htrim : Text.trim line = Rune.ofChar ':' :: key ++ Rune.ofChar ':' :: rest)
    (hend : isMarkerLine endMarker line = false) : IsDrawerLine line where
  notHeadline := by
    rw [Reader.isHeadlineLine, hline]
    decide
  notEnd := hend
  setting _ := ⟨key, rest, htrim, hkey.noColon, hkey.notBlank⟩

private theorem not_isMarkerLine_propertyLine (hkey : IsKey key) (value : Text) :
    isMarkerLine endMarker (propertyLine key value) = false := by
  by_contra h
  rw [Bool.not_eq_false] at h
  exact hkey.2.2 (of_isMarkerLine_propertyLine hkey.1.1 h).1

theorem isDrawerLine_propertyLine (hkey : IsKey key) (value : Text) :
    IsDrawerLine (propertyLine key value) :=
  isDrawerLine_of_trim hkey.isSetKey rfl (trim_propertyLine key value)
    (not_isMarkerLine_propertyLine hkey value)

theorem isMarkerLine_trimEnd (marker line : Text) :
    isMarkerLine marker (Text.trimEnd line) = isMarkerLine marker line := by
  rw [isMarkerLine, isMarkerLine, Text.trim_trimEnd]

theorem head?_trimEnd_propertyLine (key value : Text) :
    (Text.trimEnd (propertyLine key value)).head? = some (Rune.ofChar ' ') := by
  have hline : propertyLine key value =
      entryIndent ++ Rune.ofChar ':' :: (key ++ ": " ++ value) := by
    simp [propertyLine, String.toText]
  rw [hline, Text.trimEnd_append_cons (by decide)]
  rfl

/-- A property line that is no end of a drawer sets its property, with or without blanks behind it. -/
theorem isDrawerLine_trimEnd (hkey : IsSetKey key)
    (hend : isMarkerLine endMarker (propertyLine key value) = false) :
    IsDrawerLine (Text.trimEnd (propertyLine key value)) := by
  have htrim := trim_propertyLine key value
  rw [← Text.trim_trimEnd] at htrim
  exact isDrawerLine_of_trim hkey (head?_trimEnd_propertyLine key value) htrim
    (by rw [isMarkerLine_trimEnd, hend])

end Setting

/-- The keys that are written in front are read back. -/
theorem isKey_leading : IsKey "ID" ∧ IsKey "CREATED" ∧ IsKey "TITLE" := by
  decide

/-- The keys that may be written in front. -/
def frontKeys : List Text := ["ID", "CREATED", "TITLE"]

/-- The keys that a reader looks up behind them. -/
def laterKeys : List Text := "PRIORITY".toText :: "TAGS".toText :: sourceKeys

theorem sameKey_frontKeys :
    ∀ word ∈ frontKeys, ∀ key ∈ laterKeys, Properties.sameKey word key = false := by
  decide +kernel

/-! ## The lines of an issue -/

namespace Issue

/-- The lines of an issue's drawer that set properties. -/
def settingLines (i : Issue) (shown : Text) : List Text :=
  [propertyLine "ID" i.id, propertyLine "CREATED" (Timestamp.encode i.createdAt true)] ++
  (if shown ≠ Text.singleLine i.title && !i.properties.has "TITLE" then
    [propertyLine "TITLE" (Text.singleLine i.title)] else []) ++
  (i.properties.entries.filter fun e => !isLeadingKey e.1).map
    (fun e => Text.trimEnd (propertyLine e.1 (Text.singleLine e.2)))

/-- The properties that these lines set. -/
def settings (i : Issue) (shown : Text) : List (Text × Text) :=
  [("ID".toText, Text.trim i.id),
    ("CREATED".toText, Text.trim (Timestamp.encode i.createdAt true))] ++
  (if shown ≠ Text.singleLine i.title && !i.properties.has "TITLE" then
    [("TITLE".toText, Text.singleLine i.title)] else []) ++
  (i.properties.entries.filter fun e => !isLeadingKey e.1).map fun e => (e.1, Text.singleLine e.2)

/-- The lines of an issue's entry, under any state. -/
def entryLines (i : Issue) (s : State) : EntryLines where
  headline := (Headline.ofIssue { i with state := s } (Headline.titleOf i)).encode
  blanks := []
  opening := entryIndent ++ ":PROPERTIES:"
  drawer := i.settingLines (Headline.titleOf i)
  closing := entryIndent ++ ":END:"
  body := [] :: i.bodyLines

/-- What the issue holds can be written on lines of a class and makes a complete entry. -/
structure IsWritable (Q : Text → Prop) (i : Issue) : Prop where
  id : Q i.id
  front : ∃ c r, i.id = c :: r ∧ c.isBlank = false ∧ Headline.isMarkup c = false
  title : Q (Text.singleLine i.title)
  description : ∀ p ∈ Text.pieces i.description, Q p
  tags : ∀ t ∈ i.tags, Q t
  properties : ∀ e ∈ i.properties.entries, (IsKey e.1 ∧ Q e.1) ∧ Q (Text.singleLine e.2)
  complete : (Properties.ofList (i.settings (Headline.titleOf i))).Complete

/-- All that is written of the issue is of a class of texts. -/
structure Fits (Q : Text → Prop) (i : Issue) : Prop where
  id : Q i.id
  title : Q (Text.singleLine i.title)
  description : ∀ p ∈ Text.pieces i.description, Q p
  tags : ∀ t ∈ i.tags, Q t
  properties : ∀ e ∈ i.properties.entries, Q e.1 ∧ Q (Text.singleLine e.2)

theorem IsWritable.fits {Q : Text → Prop} {i : Issue} (h : i.IsWritable Q) : i.Fits Q :=
  ⟨h.id, h.title, h.description, h.tags,
    fun e he => ⟨(h.properties e he).1.2, (h.properties e he).2⟩⟩

end Issue

/-- The text of lines that all end in a line feed. -/
def Text.ofBodies (bodies : List Text) : Text := ofLines (bodies.map fun b => ⟨b, .lf⟩)

section Bodies

variable {bodies : List Text}

theorem Text.bodies_ofBodies (h : ∀ b ∈ bodies, Text.EndFree b) :
    Text.bodies (Text.ofBodies bodies) = bodies := by
  have hcut := @Text.wellCut_map .lf bodies (by simp) h
  rw [Text.bodies, Text.ofBodies, Text.lines_ofLines hcut, List.map_map]
  exact bodies.map_id

theorem Text.isStable_ofBodies (h : ∀ b ∈ bodies, Text.FitsLine b) :
    IsStable (Text.ofBodies bodies) := by
  have hcut := @Text.wellCut_map .lf bodies (by simp) fun b hb => (h b hb).breakFree.endFree
  apply Text.isStable_ofLines
  · intro l hl
    obtain ⟨b, hb, rfl⟩ := List.mem_map.mp hl
    exact (h b hb).isStable
  · exact hcut.terminated

theorem Text.ofBodies_cons (b : Text) (bodies : List Text) :
    Text.ofBodies (b :: bodies) = b ++ Rune.ofChar '\n' :: Text.ofBodies bodies :=
  List.append_assoc b "\n".toText (Text.ofBodies bodies)

theorem Text.mem_ofBodies {c : Rune} : c ∈ Text.ofBodies bodies ↔
    ∃ b ∈ bodies, c ∈ b ∨ c = Rune.ofChar '\n' := by
  have htext : ∀ b : Text, c ∈ Line.text ⟨b, .lf⟩ ↔ c ∈ b ∨ c = Rune.ofChar '\n' := fun b => by
    rw [Line.text, Ending.text, List.mem_append]
    exact or_congr_right List.mem_singleton
  simp only [ofBodies, ofLines, List.flatMap_map, List.mem_flatMap, htext]

theorem Text.ofBodies_append (s t : List Text) :
    Text.ofBodies (s ++ t) = Text.ofBodies s ++ Text.ofBodies t := by
  rw [Text.ofBodies, List.map_append, Text.ofLines_append]
  rfl

theorem Text.join_append_lf (b : Text) (bodies : List Text) :
    Text.join "\n" (b :: bodies) ++ "\n" = Text.ofBodies (b :: bodies) := by
  induction bodies generalizing b with
  | nil => rw [Text.join, List.intercalate_singleton]; exact (List.append_nil _).symm
  | cons d bodies ih =>
      rw [Text.join_cons_cons, List.append_assoc, List.append_assoc, ih]
      exact (List.append_assoc b "\n".toText _).symm

end Bodies

namespace Issue

variable {Q : Text → Prop} {i j : Issue} {s : State}

theorem drawer_eq (i : Issue) (shown : Text) : i.drawer shown =
    (entryIndent ++ ":PROPERTIES:") :: (i.settingLines shown ++ [entryIndent ++ ":END:"]) := by
  simp only [drawer, settingLines, List.append_assoc, List.cons_append, List.nil_append]

theorem render_eq (i : Issue) : i.render = Text.ofBodies (i.entryLines i.state).lines := by
  rw [render]
  simp only [drawer_eq]
  rw [List.singleton_append, List.cons_append, List.cons_append, Text.join_append_lf]
  simp only [EntryLines.lines, entryLines, List.nil_append, List.append_assoc, List.cons_append]

/-- What an issue was made with first is what its drawer sets first: its id, its time of creation and
its title. -/
theorem settings_of_entries {created : Text} {others : List (Text × Text)}
    (hid : Text.trim i.id = i.id) (hcreated : Timestamp.encode i.createdAt true = created)
    (hentries : i.properties.entries =
      ("ID".toText, i.id) :: ("TITLE".toText, i.title) :: ("CREATED".toText, created) :: others)
    (hothers : ∀ e ∈ others, isLeadingKey e.1 = false) (shown : Text) :
    i.settings shown = ("ID".toText, i.id) :: ("CREATED".toText, created) ::
      ("TITLE".toText, Text.singleLine i.title) ::
      others.map fun e => (e.1, Text.singleLine e.2) := by
  have htitle : i.properties.has "TITLE" = true := by
    have hkeys : Properties.sameKey "ID" "TITLE" = false ∧
        Properties.sameKey "TITLE" "TITLE" = true := by
      decide +kernel
    simp [Properties.has, Properties.get?, hentries, hkeys]
  have hleading : isLeadingKey "ID" = true ∧ isLeadingKey "CREATED" = true ∧
      isLeadingKey "TITLE" = false := by
    decide +kernel
  have hkept : (others.filter fun e => !isLeadingKey e.1) = others :=
    List.filter_eq_self.mpr fun e he => by simp [hothers e he]
  rw [settings, hid, Timestamp.trim_encode, hcreated, htitle, hentries]
  simp only [List.filter_cons, hleading, hkept, Bool.not_true, Bool.not_false, Bool.and_false,
    Bool.false_eq_true, if_false, if_true, List.map_cons]
  rfl

theorem isHeadlineLine_entryLines (i : Issue) (s : State) :
    Reader.isHeadlineLine (i.entryLines s).headline = true := by
  obtain ⟨n, hn⟩ : ∃ n, (max i.level 1).toNat = n + 1 := ⟨(max i.level 1).toNat - 1, by omega⟩
  rw [Reader.isHeadlineLine_eq_true]
  simp only [entryLines, Headline.encode, Headline.ofIssue]
  rw [Text.join_cons_cons, hn]
  rfl

section LineClass

variable (hQ : Text.LineClass Q)

include hQ

/-- The lines of the drawer set what was written. -/
theorem filterMap_settingLines (h : i.IsWritable Q) (shown : Text) :
    (i.settingLines shown).filterMap setting? = i.settings shown := by
  have hid := @setting?_propertyLine "ID" _ isKey_leading.1.isSetKey
    (hQ.endFree h.id).not_mem_lf
  have hcreated := @setting?_propertyLine "CREATED" _ isKey_leading.2.1.isSetKey
    (Text.lineClass_endFree.of_basic (Timestamp.isBasic_encode i.createdAt)).not_mem_lf
  have htitle := setting?_singleLine isKey_leading.2.2.isSetKey i.title
  have hproperties : ((i.properties.entries.filter fun e => !isLeadingKey e.1).map
        (fun e => Text.trimEnd (propertyLine e.1 (Text.singleLine e.2)))).filterMap setting? =
      (i.properties.entries.filter fun e => !isLeadingKey e.1).map
        fun e => (e.1, Text.singleLine e.2) := by
    rw [List.filterMap_map]
    rw [List.filterMap_eq_map_iff_forall_eq_some]
    intro e he
    obtain ⟨⟨hkey, -⟩, -⟩ := h.properties e (List.mem_filter.mp he).1
    rw [Function.comp_apply, setting?_trimEnd, setting?_singleLine hkey.isSetKey]
  rw [settingLines, settings, List.filterMap_append, List.filterMap_append, hproperties]
  split_ifs with hshown
  · simp [hid, hcreated, htitle]
  · simp [hid, hcreated]

omit hQ in
private theorem isDrawerLine_settingLines (h : i.IsWritable Q) (shown : Text) :
    ∀ line ∈ i.settingLines shown, IsDrawerLine line := by
  intro line hline
  rw [settingLines, List.mem_append, List.mem_append, List.mem_map] at hline
  rcases hline with (hline | hline) | ⟨e, he, rfl⟩
  · rw [List.mem_cons, List.mem_singleton] at hline
    rcases hline with rfl | rfl
    · exact isDrawerLine_propertyLine isKey_leading.1 _
    · exact isDrawerLine_propertyLine isKey_leading.2.1 _
  · split_ifs at hline with hshown
    · rw [List.mem_singleton.mp hline]
      exact isDrawerLine_propertyLine isKey_leading.2.2 _
    · cases hline
  · have hkey := (h.properties e (List.mem_filter.mp he).1).1.1
    exact isDrawerLine_trimEnd hkey.isSetKey (not_isMarkerLine_propertyLine hkey _)

omit hQ in
/-- A line of the description is empty or indented. -/
theorem form_of_mem_bodyLines {line : Text} (hline : line ∈ i.bodyLines) :
    line = [] ∨ ∃ r, line = Rune.ofChar ' ' :: r := by
  rw [bodyLines] at hline
  split_ifs at hline with hempty
  · cases hline
  · rw [List.mem_append, List.mem_map, List.mem_singleton] at hline
    rcases hline with ⟨p, -, rfl⟩ | rfl
    · split_ifs with hblank
      · exact Or.inl rfl
      · exact Or.inr ⟨_, rfl⟩
    · exact Or.inl rfl

omit hQ in
theorem isHeadlineLine_bodyLines {line : Text} (hline : line ∈ i.bodyLines) :
    Reader.isHeadlineLine line = false := by
  rcases form_of_mem_bodyLines hline with rfl | ⟨r, rfl⟩
  · rfl
  · rfl

theorem headline_entryLines (h : i.IsWritable Q) (s : State) :
    ∃ priority title tags,
      Headline.shown? (Rune.ofChar ' ' :: (Headline.ofIssue i (Headline.titleOf i)).shown) =
        some (priority, title, tags) ∧
      Headline.decode (i.entryLines s).headline =
        .ok { level := max i.level 1, state := s, priority, title, tags } := by
  obtain ⟨c, r, hid, hblank, hmarkup⟩ := h.front
  obtain ⟨hfits, ⟨priority, title, tags⟩, hshown⟩ :=
    Headline.titleOf_spec hQ h.title h.tags h.id hid hblank hmarkup
  have hfree : Rune.ofChar '\n' ∉ (Headline.ofIssue i (Headline.titleOf i)).shown :=
    (hQ.endFree (Headline.fits_shown hQ hfits h.tags)).not_mem_lf
  refine ⟨priority, title, tags, hshown, ?_⟩
  have hdecode := @Headline.decode_encode
    (Headline.ofIssue { i with state := s } (Headline.titleOf i)) hfree
  have hsame : (Headline.ofIssue { i with state := s } (Headline.titleOf i)).shown =
      (Headline.ofIssue i (Headline.titleOf i)).shown := rfl
  rw [hsame, hshown] at hdecode
  exact hdecode

theorem isEntry_entryLines (h : i.IsWritable Q) (s : State) : (i.entryLines s).IsEntry where
  headline := by
    obtain ⟨priority, title, tags, -, hdecode⟩ := headline_entryLines hQ h s
    exact ⟨_, hdecode⟩
  blanks := by simp [entryLines]
  opening := by
    show isMarkerLine drawerMarker (entryIndent ++ ":PROPERTIES:") = true
    decide +kernel
  drawer := isDrawerLine_settingLines h _
  closing := by
    show isMarkerLine endMarker (entryIndent ++ ":END:") = true
    decide +kernel
  body := List.forall_mem_cons.mpr ⟨rfl, fun line hline => isHeadlineLine_bodyLines hline⟩
  complete := by
    rw [EntryLines.properties, entryLines, filterMap_settingLines hQ h]
    exact h.complete

/-! ## Lines that fit -/

theorem fits_propertyLine {key value : Text} (hkey : Q key) (hvalue : Q value) :
    Q (propertyLine key value) := by
  have hline : propertyLine key value =
      entryIndent ++ (":" : Text) ++ (key ++ Rune.ofChar ':' :: Rune.ofChar ' ' :: value) := by
    simp [propertyLine, String.toText]
  rw [hline]
  apply hQ.basic_append (by decide)
  exact hQ.append_cons hkey (by decide) (hQ.append_cons hQ.nil (by decide) hvalue)

private theorem fits_of_mem_settingLines (h : i.Fits Q) (shown : Text) :
    ∀ line ∈ i.settingLines shown, Q line := by
  intro line hline
  rw [settingLines, List.mem_append, List.mem_append, List.mem_map] at hline
  rcases hline with (hline | hline) | ⟨e, he, rfl⟩
  · rw [List.mem_cons, List.mem_singleton] at hline
    rcases hline with rfl | rfl
    · exact fits_propertyLine hQ (hQ.of_basic (by decide)) h.id
    · exact fits_propertyLine hQ (hQ.of_basic (by decide))
        (hQ.of_basic (Timestamp.isBasic_encode i.createdAt))
  · split_ifs at hline with hshown
    · rw [List.mem_singleton.mp hline]
      exact fits_propertyLine hQ (hQ.of_basic (by decide)) h.title
    · cases hline
  · obtain ⟨hkey, hvalue⟩ := h.properties e (List.mem_filter.mp he).1
    exact hQ.of_isInfix (List.rdropWhile_prefix Rune.isBlank _).isInfix
      (fits_propertyLine hQ hkey hvalue)

private theorem fits_of_mem_bodyLines (h : i.Fits Q) : ∀ line ∈ i.bodyLines, Q line := by
  intro line hline
  rw [bodyLines] at hline
  split_ifs at hline with hempty
  · cases hline
  · rw [List.mem_append, List.mem_map, List.mem_singleton] at hline
    rcases hline with ⟨p, hp, rfl⟩ | rfl
    · split_ifs with hblank
      · exact hQ.nil
      · exact hQ.basic_append (by decide) (h.description p hp)
    · exact hQ.nil

/-- The lines of an entry are of the class of what is written on them. -/
theorem Fits.of_mem_entryLines (h : i.Fits Q) (s : State) :
    ∀ line ∈ (i.entryLines s).lines, Q line := by
  have htitle := Headline.fits_titleOf hQ h.title h.id
  intro line hline
  rw [EntryLines.lines, entryLines, List.nil_append, List.mem_cons, List.mem_cons,
    List.mem_append, List.mem_cons, List.mem_cons] at hline
  rcases hline with rfl | rfl | hline | rfl | rfl | hline
  · exact Headline.fits_encode hQ htitle h.tags
  · show Q (entryIndent ++ ":PROPERTIES:")
    exact hQ.of_basic (by decide)
  · exact fits_of_mem_settingLines hQ h _ line hline
  · show Q (entryIndent ++ ":END:")
    exact hQ.of_basic (by decide)
  · exact hQ.nil
  · exact fits_of_mem_bodyLines hQ h line hline

theorem fits_of_mem_entryLines (h : i.IsWritable Q) (s : State) :
    ∀ line ∈ (i.entryLines s).lines, Q line := h.fits.of_mem_entryLines hQ s

/-! ## Reading written issues -/

/-- An entry that is read under one state is read under every other, to the same issue but for the
state. -/
theorem yields_entryLines (h : i.IsWritable Q) (hyields : (i.entryLines s).Yields j) (s' : State) :
    (i.entryLines s').Yields { j with state := s' } := by
  obtain ⟨priority, title, tags, hshown, hdecode⟩ := headline_entryLines hQ h s
  obtain ⟨priority', title', tags', hshown', hdecode'⟩ := headline_entryLines hQ h s'
  obtain ⟨rfl, rfl, rfl⟩ : priority = priority' ∧ title = title' ∧ tags = tags' := by
    simpa [hshown] using hshown'
  obtain ⟨headline, line, hheadline, hissue⟩ := hyields
  obtain rfl := Except.ok.inj (hdecode.symm.trans hheadline)
  obtain ⟨id, moment, hid, hblank, hcreated, hsource, rfl⟩ :=
    (Draft.toIssue_eq_ok_iff _ _).mp hissue
  refine ⟨_, line, hdecode', (Draft.toIssue_eq_ok_iff _ _).mpr
    ⟨id, moment, hid, hblank, hcreated, hsource, rfl⟩⟩

/-- The issue that is read has the state and the properties that were written. -/
theorem Yields.spec (h : i.IsWritable Q) (hyields : (i.entryLines s).Yields j) :
    j.state = s ∧ j.properties = .ofList (i.settings (Headline.titleOf i)) := by
  obtain ⟨priority, title, tags, -, hdecode⟩ := headline_entryLines hQ h s
  obtain ⟨headline, line, hheadline, hissue⟩ := hyields
  obtain rfl := Except.ok.inj (hdecode.symm.trans hheadline)
  obtain ⟨id, moment, hid, hblank, hcreated, hsource, rfl⟩ :=
    (Draft.toIssue_eq_ok_iff _ _).mp hissue
  refine ⟨rfl, ?_⟩
  show EntryLines.properties _ = _
  rw [EntryLines.properties, entryLines, filterMap_settingLines hQ h]

end LineClass

end Issue

/-- The lines of issues, each under a state. -/
def writtenLines (issues : List Issue) (states : Issue → State) : List Text :=
  issues.flatMap fun i => (i.entryLines (states i)).lines

theorem flatMap_render (issues : List Issue) :
    issues.flatMap Issue.render = Text.ofBodies (writtenLines issues Issue.state) := by
  induction issues with
  | nil => rfl
  | cons i issues ih =>
      rw [List.flatMap_cons, ih, Issue.render_eq, ← Text.ofBodies_append]
      rfl

section Document

variable {Q : Text → Prop} {issues : List Issue} {states : Issue → State}

theorem fits_of_mem_writtenLines (hQ : Text.LineClass Q) (h : ∀ i ∈ issues, i.IsWritable Q) :
    ∀ line ∈ writtenLines issues states, Q line := by
  intro line hline
  obtain ⟨i, hi, hline⟩ := List.mem_flatMap.mp hline
  exact Issue.fits_of_mem_entryLines hQ (h i hi) (states i) line hline

private theorem dropBom_writtenLines (hQ : Text.LineClass Q) (h : ∀ i ∈ issues, i.IsWritable Q) :
    Text.dropBom (Text.ofBodies (writtenLines issues states)) =
      Text.ofBodies (writtenLines issues states) := by
  cases issues with
  | nil => rfl
  | cons i issues =>
      obtain ⟨_, _, _, -, hdecode⟩ := Issue.headline_entryLines hQ (h i (by simp)) (states i)
      have hstar := Reader.isHeadlineLine_eq_true.mp (Reader.isHeadlineLine_of_decode hdecode)
      obtain ⟨r, hline⟩ : ∃ r, (i.entryLines (states i)).headline = Rune.ofChar '*' :: r :=
        List.head?_eq_some_iff.mp hstar
      have hbom : Rune.ofChar '*' ≠ Rune.bom := by decide
      obtain ⟨t, ht⟩ : ∃ t, Text.ofBodies (writtenLines (i :: issues) states) =
          Rune.ofChar '*' :: t := by
        rw [writtenLines, List.flatMap_cons, EntryLines.lines, hline]
        exact ⟨_, rfl⟩
      rw [ht, Text.dropBom, if_neg hbom]

/-- A document of written issues is read to one issue for each, in order. -/
theorem readDocument_writtenLines (hQ : Text.LineClass Q) (h : ∀ i ∈ issues, i.IsWritable Q) :
    ∃ js, readDocument (Text.ofBodies (writtenLines issues states)) = .ok js ∧
      List.Forall₂ (fun i j => (i.entryLines (states i)).Yields j) issues js := by
  have hfits := @fits_of_mem_writtenLines Q issues states hQ h
  have hbodies := Text.bodies_ofBodies fun b hb => hQ.endFree (hfits b hb)
  have hbom := @dropBom_writtenLines Q issues states hQ h
  have hdocument : IsDocument (writtenLines issues states) []
      (issues.map fun i => i.entryLines (states i)) := by
    refine ⟨?_, by simp, ?_⟩
    · rw [List.nil_append, List.flatMap_map]
      rfl
    · intro e he
      obtain ⟨i, hi, rfl⟩ := List.mem_map.mp he
      exact Issue.isEntry_entryLines hQ (h i hi) (states i)
  obtain ⟨r, hread, hyields⟩ := Reader.readAll_of_isDocument hdocument
    fun line hline => hQ.endFree (hfits line hline)
  refine ⟨r.issues, ?_, List.forall₂_map_left_iff.mp hyields⟩
  rw [readDocument_eq, hbom, hbodies, hread]
  rfl

/-- Under one other state all issues are read again, and nothing but their state has changed. -/
theorem readDocument_writtenLines_state (hQ : Text.LineClass Q) (h : ∀ i ∈ issues, i.IsWritable Q)
    (s : State) {js : List Issue}
    (hread : readDocument (Text.ofBodies (writtenLines issues states)) = .ok js) :
    readDocument (Text.ofBodies (writtenLines issues fun _ => s)) =
      .ok (js.map fun j => { j with state := s }) := by
  obtain ⟨js', hread', hall⟩ := @readDocument_writtenLines Q issues states hQ h
  obtain ⟨ks, hread'', hall'⟩ := @readDocument_writtenLines Q issues (fun _ => s) hQ h
  obtain rfl := Except.ok.inj (hread.symm.trans hread')
  have hchanged : List.Forall₂ (fun i j => (i.entryLines s).Yields j) issues
      (js.map fun j => { j with state := s }) :=
    List.forall₂_map_right_iff.mpr (((List.forall₂_and_left issues js).mpr ⟨h, hall⟩).imp
      fun i j hij => Issue.yields_entryLines hQ hij.1 hij.2 s)
  have hunique : Relator.RightUnique fun (i j : Issue) => (i.entryLines s).Yields j :=
    fun _ _ _ hj hk => hj.unique hk
  rw [hread'', List.right_unique_forall₂' hunique hall' hchanged]

end Document

end TodoLedger
