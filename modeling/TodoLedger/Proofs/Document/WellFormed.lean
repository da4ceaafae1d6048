import TodoLedger.Proofs.Document.Made
import TodoLedger.Proofs.Document.Rerendering
import TodoLedger.Proofs.Text.Numeral
/-!
# Every issue that is read is well-formed

The id and the title of an issue that is read are trimmed and not empty, wherever they came from. Of the
reference to a source there is nothing, or there is all of it, and then the line and the column are the
numbers that their properties write in decimal. So the check of the reader, which takes digits alone,
and the reading of the issue, which takes signs, blanks and low lines too, agree on every such issue.
-/

namespace TodoLedger

namespace Issue

variable {i : Issue} {key : Text}

/-- The property of the key writes a number above zero in decimal, and this number is what is read. -/
def HasPosition (i : Issue) (key : Text) (read : Option Nat) : Prop :=
  ∃ value n, i.properties.get? key = some value ∧ value.IsDecimalOf n ∧ 1 ≤ n ∧ read = some n

/-- All of the reference to a source is there, and its positions are those that are written. -/
structure HasReference (i : Issue) : Prop where
  keys : ∀ key ∈ sourceKeys, i.properties.has key = true
  line : i.HasPosition sourceLineKey i.sourceLine?
  column : i.HasPosition sourceColumnKey i.sourceColumn?

structure IsWellFormed (i : Issue) : Prop where
  id : i.id ≠ [] ∧ Text.IsTrimmed i.id
  title : i.title ≠ [] ∧ Text.IsTrimmed i.title
  one_le_level : 1 ≤ i.level
  nodup : i.tags.Nodup
  tags : ∀ tag ∈ i.tags, Headline.IsGroupTag tag
  source : (∀ key ∈ sourceKeys, i.properties.has key = false) ∨ i.HasReference
  linked : i.isLinked = true ↔ (∀ key ∈ sourceKeys, i.properties.has key = true) ∧
    ∃ file, i.properties.get? sourceFileKey = some file ∧ Text.isBlank file = false

/-! ## The reference to a source -/

/-- A position that passes the check of the reader is the number that is read of the property. -/
theorem IsRead.hasPosition (h : i.IsRead) (hhas : i.properties.has key = true)
    (hpos : IsPosition (i.properties.valueOf key)) :
    i.HasPosition key ((i.properties.get? key).bind positive?) := by
  obtain ⟨value, hget⟩ := Option.isSome_iff_exists.mp hhas
  rw [Properties.valueOf, hget, Option.getD_some] at hpos
  have hread := Text.positive?_of_isDecimal hpos.isDecimal hpos.length_le hpos.pos
  have hdecimal := hpos.isDecimal
  have hone := hpos.pos
  rw [(h.of_get? hget).1.trim_eq] at hread hdecimal hone
  refine ⟨value, Text.digitsValue value, hget, Text.isDecimalOf_iff.mpr ⟨hdecimal, rfl⟩, hone, ?_⟩
  rw [hget]
  exact hread

theorem IsRead.hasReference (h : i.IsRead) :
    (∀ key ∈ sourceKeys, i.properties.has key = false) ∨ i.HasReference := by
  rcases h.source with hnone | ⟨hall, hline, hcolumn⟩
  · exact Or.inl hnone
  · right
    constructor
    · exact hall
    · exact h.hasPosition (hall sourceLineKey (by decide)) hline
    · exact h.hasPosition (hall sourceColumnKey (by decide)) hcolumn

theorem HasPosition.isSome {read : Option Nat} (h : i.HasPosition key read) : read.isSome = true := by
  obtain ⟨value, n, -, -, -, hread⟩ := h
  rw [hread]
  rfl

/-- Where the reference is there as a whole or not at all, its keys and the file decide. -/
theorem isLinked_iff (h : (∀ key ∈ sourceKeys, i.properties.has key = false) ∨ i.HasReference) :
    i.isLinked = true ↔ (∀ key ∈ sourceKeys, i.properties.has key = true) ∧
      ∃ file, i.properties.get? sourceFileKey = some file ∧ Text.isBlank file = false := by
  rw [isLinked]
  simp only [Bool.and_eq_true, List.all_eq_true, Bool.not_eq_true']
  constructor
  · rintro ⟨⟨hall, hblank⟩, -⟩
    obtain ⟨file, hget⟩ := Option.isSome_iff_exists.mp (hall sourceFileKey (by decide))
    rw [sourceFile?, hget] at hblank
    exact ⟨hall, file, hget, hblank⟩
  · rintro ⟨hall, file, hget, hblank⟩
    have hreference : i.HasReference := by
      apply h.resolve_left
      intro hnone
      have hclash := hall sourceFileKey (by decide)
      rw [hnone sourceFileKey (by decide)] at hclash
      cases hclash
    rw [sourceFile?, hget]
    exact ⟨⟨hall, hblank⟩, hreference.line.isSome⟩

/-! ## The title -/

/-- The title is a property of its own, or the one that the headline shows. -/
theorem title_issueWith_spec {d : Draft} {id line : Text} {moment : DateTime}
    (hdecode : Headline.decode line = .ok d.headline)
    (hread : (d.issueWith id moment).IsRead) :
    (d.issueWith id moment).title ≠ [] ∧ Text.IsTrimmed (d.issueWith id moment).title := by
  obtain ⟨-, shown, -, hshown⟩ := Headline.form_of_decode hdecode
  have hheadline := (Headline.shown?_spec hshown).1
  by_cases hset : d.properties.valueOf "TITLE" = []
  · have htitle : (d.issueWith id moment).title = d.headline.title := by
      rw [Draft.issueWith, hset]
      rfl
    rw [htitle]
    exact hheadline
  · obtain ⟨title, hget⟩ : ∃ title, d.properties.get? "TITLE" = some title := by
      rw [← Option.isSome_iff_exists, Option.isSome_iff_ne_none]
      intro hnone
      rw [Properties.valueOf, hnone] at hset
      exact hset rfl
    have hne : title ≠ [] := by
      rwa [Properties.valueOf, hget] at hset
    rw [Draft.title_issueWith hne hget]
    exact ⟨hne, (hread.of_get? hget).1⟩

end Issue

theorem EntryLines.Yields.title_spec {e : EntryLines} {i : Issue} (h : e.Yields i) (hread : i.IsRead) :
    i.title ≠ [] ∧ Text.IsTrimmed i.title := by
  obtain ⟨headline, line, hdecode, hissue⟩ := h
  obtain ⟨id, moment, -, -, -, -, rfl⟩ := (Draft.toIssue_eq_ok_iff _ _).mp hissue
  exact Issue.title_issueWith_spec hdecode hread

/-! ## The document -/

/-- Every issue that is read of a document is well-formed. -/
theorem isWellFormed_of_readDocument {text : Text} {issues : List Issue}
    (hread : readDocument text = .ok issues) : ∀ i ∈ issues, i.IsWellFormed := by
  intro i hi
  have h := isRead_of_readDocument hread hi
  obtain ⟨preamble, entries, hdocument, hyields⟩ := exists_document_of_readDocument hread
  obtain ⟨e, he, hmakes⟩ := exists_of_mem_right hyields i hi
  have hid : i.id ≠ [] := by
    intro hid
    have hblank := h.notBlank
    rw [hid] at hblank
    cases hblank
  constructor
  case id => exact ⟨hid, h.isTrimmed_id⟩
  case title => exact hmakes.title_spec h
  case one_le_level => exact h.one_le_level
  case nodup => exact h.nodup
  case tags => exact fun tag htag => (h.tags tag htag).2
  case source => exact h.hasReference
  case linked => exact Issue.isLinked_iff h.hasReference

/-- The line and the column may stand in the digits of another script, and the title and the tags in
properties. -/
theorem isWellFormed_of_foreignDigits : ∃ issues,
    readDocument (loneDocument "a" [":TITLE:  b c ", ":TAGS: d: d ::e", ":SOURCE_FILE: f.py",
      ":SOURCE_LINE: \u0663\u0664", ":SOURCE_COLUMN: \u0966\u0967", ":SOURCE_UUID:"]) = .ok issues ∧
    (issues.map fun i => (i.sourceLine?, i.sourceColumn?, i.isLinked)) = [(some 34, some 1, true)] ∧
      ∀ i ∈ issues, i.IsWellFormed := by
  obtain ⟨issues, hread, hplace⟩ : ∃ issues,
      readDocument (loneDocument "a" [":TITLE:  b c ", ":TAGS: d: d ::e", ":SOURCE_FILE: f.py",
        ":SOURCE_LINE: \u0663\u0664", ":SOURCE_COLUMN: \u0966\u0967", ":SOURCE_UUID:"]) =
          .ok issues ∧
      (issues.map fun i => (i.sourceLine?, i.sourceColumn?, i.isLinked)) =
        [(some 34, some 1, true)] := by
    decide +kernel
  exact ⟨issues, hread, hplace, isWellFormed_of_readDocument hread⟩

end TodoLedger
