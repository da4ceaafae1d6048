import TodoLedger.Proofs.Document.Parts
import TodoLedger.Proofs.Document.Rendering
/-!
# What every issue that is read has in common

The properties of an issue that is read were set by lines of a drawer, so that each key stands once and
could be set again, and no value ends a line. Its id is not blank and is trimmed, its level is one or
more, and its tags are such as a headline can show.
-/

namespace TodoLedger

namespace Headline

variable {line : Text} {h : Headline}

/-- A headline has a star, and its tags are cut from a group. -/
theorem exists_group_of_decode (hdecode : decode line = .ok h) :
    1 ≤ h.level ∧ ∃ group, h.tags = Entry.tagsOf group := by
  obtain ⟨hlevel, t, -, hshown⟩ := form_of_decode hdecode
  exact ⟨hlevel, (shown?_spec hshown).2⟩

end Headline

namespace Issue

/-- What holds of an issue that is read. -/
structure IsRead (i : Issue) : Prop where
  id : i.properties.get? "ID" = some i.id
  notBlank : Text.isBlank i.id = false
  apart : Properties.Apart (i.properties.entries.map Prod.fst)
  entries : ∀ e ∈ i.properties.entries,
    (IsSetKey e.1 ∧ Text.EndFree e.1) ∧ Text.IsTrimmed e.2 ∧ Text.EndFree e.2
  source : i.properties.HasNoOrFullSource
  one_le_level : 1 ≤ i.level
  tags : ∀ t ∈ i.tags, Text.EndFree t ∧ Headline.IsGroupTag t
  nodup : i.tags.Nodup
  priority : ∀ p, (i.properties.get? "PRIORITY").bind Priority.ofName? = some p → i.priority = p
  setTags : ∀ v, i.properties.get? "TAGS" = some v → i.tags = distinct (Entry.tagsOf v)

variable {i : Issue}

theorem IsRead.of_get? (h : i.IsRead) {key value : Text} (hget : i.properties.get? key = some value) :
    Text.IsTrimmed value ∧ Text.EndFree value := by
  obtain ⟨k, hmem, -⟩ := Properties.exists_mem_of_get? hget
  exact (h.entries _ hmem).2

theorem IsRead.isTrimmed_id (h : i.IsRead) : Text.IsTrimmed i.id := (h.of_get? h.id).1

theorem IsRead.fits (h : i.IsRead) : i.Fits Text.EndFree where
  id := (h.of_get? h.id).2
  title := (Text.breakFree_singleLine _).endFree
  description := fun p hp => ((Text.pieces_spec i.description).2 p hp).2.endFree
  tags := fun t ht => (h.tags t ht).1
  properties := fun e he =>
    ⟨(h.entries e he).1.2, (Text.breakFree_singleLine e.2).endFree⟩

end Issue

/-! ## The lines that make an issue -/

/-- What a line of a drawer sets can be set again. -/
private theorem of_setting? {line : Text} {e : Text × Text} (hline : IsDrawerLine line)
    (hfree : Text.EndFree line) (h : setting? line = some e) :
    (IsSetKey e.1 ∧ Text.EndFree e.1) ∧ Text.IsTrimmed e.2 ∧ Text.EndFree e.2 := by
  rw [setting?] at h
  split_ifs at h with hcolon
  obtain ⟨key, value, hproperty, hne⟩ := exists_setting?_of_isSetting hfree (hline.setting hcolon)
  obtain rfl := Option.some.inj (hproperty.symm.trans h)
  obtain ⟨k, v, hform, hnot, rfl, rfl⟩ := form_of_propertyOf? hproperty
  have hpart : ∀ s, s <:+: Text.trim line → Text.EndFree (Text.trim s) := fun s hs =>
    hfree.of_infix (((Text.trim_isInfix s).trans hs).trans (Text.trim_isInfix line))
  have hkey : k <:+: Text.trim line := by
    rw [hform]
    exact (List.suffix_cons _ k).isInfix.trans (List.prefix_append _ _).isInfix
  have hvalue : v <:+: Text.trim line := by
    rw [hform]
    exact (List.suffix_cons _ v).isInfix.trans (List.suffix_append _ _).isInfix
  have hset : IsSetKey (Text.trim k) := by
    refine ⟨fun hmem => hnot ((Text.trim_isInfix k).subset hmem), ?_, (Text.isTrimmed_trim k).trim_eq⟩
    rw [Bool.eq_false_iff]
    intro hblank
    apply hne
    rw [← (Text.isTrimmed_trim k).trim_eq, Text.trim_eq_nil_iff]
    exact hblank
  exact ⟨⟨hset, hpart k hkey⟩, Text.isTrimmed_trim v, hpart v hvalue⟩

theorem EntryLines.Yields.isRead {e : EntryLines} {i : Issue} (he : e.IsEntry)
    (hfree : ∀ line ∈ e.lines, Text.EndFree line) (h : e.Yields i) : i.IsRead := by
  have hparts := h.parts.2
  obtain ⟨headline, line, hdecode, hissue⟩ := h
  obtain ⟨id, moment, hid, hblank, -, hsource, rfl⟩ := (Draft.toIssue_eq_ok_iff _ _).mp hissue
  obtain ⟨hlevel, group, hgroup⟩ := Headline.exists_group_of_decode hdecode
  have hentries : ∀ s ∈ e.drawer.filterMap setting?,
      (IsSetKey s.1 ∧ Text.EndFree s.1) ∧ Text.IsTrimmed s.2 ∧ Text.EndFree s.2 := by
    intro s hs
    obtain ⟨l, hl, hsetting⟩ := List.mem_filterMap.mp hs
    exact of_setting? (he.drawer l hl) (hfree l (by simp [EntryLines.lines, hl])) hsetting
  -- Whether they are set or shown, the tags are cut from a text.
  obtain ⟨text, htext⟩ : ∃ text,
      ((e.properties.get? "TAGS").map Entry.tagsOf).getD headline.tags = Entry.tagsOf text := by
    cases e.properties.get? "TAGS" with
    | none => exact ⟨group, hgroup⟩
    | some v => exact ⟨v, rfl⟩
  have hall := Properties.forall_ofList (P := fun k => IsSetKey k ∧ Text.EndFree k)
    (Q := fun v => Text.IsTrimmed v ∧ Text.EndFree v) hentries
  refine ⟨hid, hblank, Properties.apart_ofList _, hall, hsource, hlevel, fun t ht => ?_,
    nodup_distinct _, fun p hp => ?_, fun v hv => ?_⟩
  · obtain ⟨l, hl, hpart⟩ := hparts t ht
    have hcut : t ∈ Entry.tagsOf text := htext ▸ mem_distinct.mp ht
    obtain ⟨hmem, hne⟩ := List.mem_filter.mp hcut
    obtain ⟨raw, -, rfl⟩ := List.mem_map.mp hmem
    exact ⟨Text.EndFree.of_infix hpart.part (hfree l hl), by simpa using hne, Text.isTrimmed_trim raw,
      hpart.noColon⟩
  · show ((e.properties.get? "PRIORITY").bind Priority.ofName?).getD headline.priority = p
    rw [show (e.properties.get? "PRIORITY").bind Priority.ofName? = some p from hp]
    rfl
  · show distinct (((e.properties.get? "TAGS").map Entry.tagsOf).getD headline.tags) = _
    rw [show e.properties.get? "TAGS" = some v from hv]
    rfl

theorem isRead_of_readDocument {text : Text} {issues : List Issue} {i : Issue}
    (hread : readDocument text = .ok issues) (hi : i ∈ issues) : i.IsRead := by
  obtain ⟨preamble, entries, hdocument, hyields⟩ := exists_document_of_readDocument hread
  obtain ⟨e, he, hmakes⟩ := exists_of_mem_right hyields i hi
  refine hmakes.isRead (hdocument.entries e he) fun line hline => ?_
  refine Text.endFree_of_mem_bodies (t := Text.dropBom text) ?_
  rw [hdocument.lines_eq]
  exact List.mem_append_right _ (List.mem_flatMap.mpr ⟨e, he, hline⟩)

end TodoLedger
