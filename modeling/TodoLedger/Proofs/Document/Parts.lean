import TodoLedger.Proofs.Document.Acceptance
import TodoLedger.Proofs.Headline
import TodoLedger.Proofs.Properties
import TodoLedger.Proofs.Sorted
import TodoLedger.Proofs.Text.Stable
/-!
# What is read stands in the text

The title and the tags of an issue that is read of a document are parts of its lines. So they break no
line, and bytes spell them. A tag holds no colon, because the text of the tags is cut at colons.
-/

namespace TodoLedger

open Utf8

/-- The text is a part of a line. A tag is one without colons. -/
structure Text.IsTagOf (line tag : Text) : Prop where
  part : tag <:+: line
  noColon : Rune.ofChar ':' ∉ tag

theorem Entry.isTagOf_of_mem_tagsOf {t tag : Text} (h : tag ∈ Entry.tagsOf t) : Text.IsTagOf t tag := by
  obtain ⟨p, hp, rfl⟩ := List.mem_map.mp (List.mem_filter.mp h).1
  obtain ⟨hpart, hfree⟩ := (Text.splitAt_spec ':' t).2 p hp
  have htrim := Text.trim_isInfix p
  exact ⟨htrim.trans hpart, fun hmem => hfree (htrim.subset hmem)⟩

theorem Text.IsTagOf.within {t line tag : Text} (h : Text.IsTagOf t tag) (ht : t <:+: line) :
    Text.IsTagOf line tag := ⟨h.part.trans ht, h.noColon⟩

theorem Text.trimStart_isSuffix (t : Text) : Text.trimStart t <:+ t := List.dropWhile_suffix _

/-! ## Headlines -/

namespace Headline

variable {t line : Text} {h : Headline} {priority : Priority} {title : Text} {tags : List Text}

private theorem isSuffix_of_cookie? {r : Text} (hcookie : cookie? t = some (priority, r)) :
    r <:+ t := by
  obtain ⟨-, c, rfl⟩ := form_of_cookie? hcookie
  exact List.suffix_append [_, _, _, _] _

theorem parts_of_shown? (hshown : shown? t = some (priority, title, tags)) :
    title <:+: t ∧ ∀ tag ∈ tags, Text.IsTagOf t tag := by
  have hstart := Text.trimStart_isSuffix t
  obtain ⟨first, rest, hread, hrest⟩ : ∃ first rest,
      (cookie? (Text.trimStart t)).getD (.none, Text.trimStart t) = (first, rest) ∧ rest <:+ t := by
    cases hcookie : cookie? (Text.trimStart t) with
    | none => exact ⟨_, _, rfl, hstart⟩
    | some read => exact ⟨read.1, read.2, rfl, (isSuffix_of_cookie? hcookie).trans hstart⟩
  have htrim : Text.trim rest <:+: t := (Text.trim_isInfix rest).trans hrest.isInfix
  have hcut := (cutTags_eq_iff (t := Text.trim rest).mp rfl).1.symm
  simp only [shown?, hread] at hshown
  split_ifs at hshown with hempty
  simp only [Option.some.injEq, Prod.mk.injEq] at hshown
  obtain ⟨-, rfl, rfl⟩ := hshown
  have hfront : (cutTags true (Text.trim rest)).1 <:+: Text.trim rest := by
    conv_rhs => rw [← hcut]
    exact (List.prefix_append _ _).isInfix
  have hgroup : (cutTags true (Text.trim rest)).2 <:+: Text.trim rest := by
    conv_rhs => rw [← hcut]
    exact (List.suffix_append _ _).isInfix
  exact ⟨((Text.trim_isInfix _).trans hfront).trans htrim,
    fun tag htag => (Entry.isTagOf_of_mem_tagsOf htag).within (hgroup.trans htrim)⟩

private theorem isInfix_of_rest? {rest : Text} (hrest : rest? line = some rest) : rest <:+: line := by
  have hstars : line.dropWhile isStar <:+ line := List.dropWhile_suffix _
  simp only [rest?] at hrest
  split_ifs at hrest
  obtain rfl := Option.some.inj hrest
  exact (List.takeWhile_prefix _).isInfix.trans hstars.isInfix

/-- What a headline shows stands behind the stars and the state of its line. -/
theorem form_of_decode (hdecode : decode line = .ok h) : 1 ≤ h.level ∧
    ∃ t, t <:+: line ∧ shown? t = some (h.priority, h.title, h.tags) := by
  have hstar := Reader.isHeadlineLine_eq_true.mp (Reader.isHeadlineLine_of_decode hdecode)
  rw [decode] at hdecode
  cases hrest : rest? line with
  | none => simp [hrest] at hdecode
  | some rest =>
      simp only [hrest] at hdecode
      split_ifs at hdecode
      split at hdecode
      · cases hdecode
      · split at hdecode
        · cases hdecode
        · rename_i hshown
          obtain rfl := Except.ok.inj hdecode
          constructor
          · obtain ⟨r, rfl⟩ := List.head?_eq_some_iff.mp hstar
            show (1 : Int) ≤ ((Rune.ofChar '*' :: r).takeWhile isStar).length
            rw [List.takeWhile_cons_of_pos (by decide), List.length_cons]
            omega
          · have hbehind : (Text.trimStart rest).drop
                ((Text.trimStart rest).takeWhile fun c => !endsStateWord c).length <:+: line :=
              ((List.drop_suffix _ _).trans (Text.trimStart_isSuffix rest)).isInfix.trans
                (isInfix_of_rest? hrest)
            exact ⟨_, hbehind, hshown⟩

/-- The title of a headline is trimmed and not empty, and its tags are cut from a group. -/
theorem shown?_spec (hshown : shown? t = some (priority, title, tags)) :
    (title ≠ [] ∧ Text.IsTrimmed title) ∧ ∃ group, tags = Entry.tagsOf group := by
  simp only [shown?] at hshown
  split_ifs at hshown with hempty
  simp only [Option.some.injEq, Prod.mk.injEq] at hshown
  obtain ⟨-, rfl, rfl⟩ := hshown
  exact ⟨⟨by simpa using hempty, Text.isTrimmed_trim _⟩, _, rfl⟩

/-- What is read of a headline is a part of it. -/
theorem parts_of_decode (hdecode : decode line = .ok h) :
    h.title <:+: line ∧ ∀ tag ∈ h.tags, Text.IsTagOf line tag := by
  obtain ⟨-, t, ht, hshown⟩ := form_of_decode hdecode
  obtain ⟨htitle, htags⟩ := parts_of_shown? hshown
  exact ⟨htitle.trans ht, fun tag htag => (htags tag htag).within ht⟩

end Headline

/-! ## Properties -/

namespace Properties

/-- What is found under a key was set. -/
theorem mem_of_get?_ofList {key v : Text} {pairs : List (Text × Text)}
    (h : (ofList pairs).get? key = some v) : v ∈ pairs.map Prod.snd := by
  obtain ⟨k, hmem, -⟩ := exists_mem_of_get? h
  exact (forall_ofList (P := fun _ => True) (Q := (· ∈ pairs.map Prod.snd))
    (fun e he => ⟨trivial, List.mem_map_of_mem he⟩) _ hmem).2

end Properties

/-! ## Issues -/

private theorem isInfix_of_setting? {line key value : Text} (h : setting? line = some (key, value)) :
    value <:+: line := by
  rw [setting?] at h
  split_ifs at h
  obtain ⟨k, v, hline, -, -, rfl⟩ := form_of_propertyOf? h
  have hvalue : v <:+: Text.trim line := by
    rw [hline]
    exact (List.suffix_cons _ v).isInfix.trans (List.suffix_append _ _).isInfix
  exact ((Text.trim_isInfix v).trans hvalue).trans (Text.trim_isInfix line)

/-- A property of an entry is a part of a line of its drawer. -/
theorem EntryLines.exists_of_get? {e : EntryLines} {key value : Text}
    (h : e.properties.get? key = some value) : ∃ line ∈ e.lines, value <:+: line := by
  obtain ⟨⟨k, v⟩, hmem, rfl⟩ := List.mem_map.mp (Properties.mem_of_get?_ofList h)
  obtain ⟨line, hline, hsetting⟩ := List.mem_filterMap.mp hmem
  exact ⟨line, by simp [EntryLines.lines, hline], isInfix_of_setting? hsetting⟩

/-- The title and the tags of an issue are parts of the lines that make it. -/
theorem EntryLines.Yields.parts {e : EntryLines} {i : Issue} (h : e.Yields i) :
    (∃ line ∈ e.lines, i.title <:+: line) ∧ ∀ tag ∈ i.tags, ∃ line ∈ e.lines, Text.IsTagOf line tag := by
  obtain ⟨headline, line, hdecode, hissue⟩ := h
  obtain ⟨id, moment, -, -, -, -, rfl⟩ := (Draft.toIssue_eq_ok_iff _ _).mp hissue
  obtain ⟨htitle, htags⟩ := Headline.parts_of_decode hdecode
  have hfirst : e.headline ∈ e.lines := by simp [EntryLines.lines]
  constructor
  · show ∃ line ∈ e.lines, (if (e.properties.valueOf "TITLE").isEmpty then headline.title
      else e.properties.valueOf "TITLE") <:+: line
    split_ifs with hempty
    · exact ⟨_, hfirst, htitle⟩
    · rw [Properties.valueOf] at hempty ⊢
      cases hget : e.properties.get? "TITLE" with
      | none => simp [hget] at hempty
      | some title => exact EntryLines.exists_of_get? hget
  · intro tag htag
    have hread : tag ∈ ((e.properties.get? "TAGS").map Entry.tagsOf).getD headline.tags :=
      mem_distinct.mp htag
    cases hget : e.properties.get? "TAGS" with
    | none =>
        rw [hget] at hread
        exact ⟨_, hfirst, htags tag hread⟩
    | some tags =>
        rw [hget] at hread
        obtain ⟨line, hline, hpart⟩ := EntryLines.exists_of_get? hget
        exact ⟨line, hline, (Entry.isTagOf_of_mem_tagsOf hread).within hpart⟩

/-- The title and the tags of an issue are parts of the lines of the document. -/
theorem parts_of_readDocument {t : Text} {issues : List Issue} {i : Issue}
    (hread : readDocument t = .ok issues) (hi : i ∈ issues) :
    (∃ line ∈ Text.bodies (Text.dropBom t), i.title <:+: line) ∧
      ∀ tag ∈ i.tags, ∃ line ∈ Text.bodies (Text.dropBom t), Text.IsTagOf line tag := by
  obtain ⟨preamble, entries, hdocument, hyields⟩ := exists_document_of_readDocument hread
  obtain ⟨e, he, hmakes⟩ := exists_of_mem_right hyields i hi
  have hlines : ∀ line ∈ e.lines, line ∈ Text.bodies (Text.dropBom t) := by
    intro line hline
    rw [hdocument.lines_eq]
    exact List.mem_append_right _ (List.mem_flatMap.mpr ⟨e, he, hline⟩)
  obtain ⟨⟨line, hline, htitle⟩, htags⟩ := hmakes.parts
  refine ⟨⟨line, hlines line hline, htitle⟩, fun tag htag => ?_⟩
  obtain ⟨line, hline, hpart⟩ := htags tag htag
  exact ⟨line, hlines line hline, hpart⟩

end TodoLedger
