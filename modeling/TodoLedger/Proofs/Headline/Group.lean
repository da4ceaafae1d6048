import TodoLedger.Headline
import TodoLedger.Proofs.Text.OneLine
import TodoLedger.Proofs.Text.Search
import TodoLedger.Proofs.Text.Trim
/-!
# The tags of a headline

The tags are cut off at the first place where a group of them may begin and the text ends as a group
does. `cutTags_eq_iff` says so without the scan. What is cut off is read part by part, so that nothing is
read of colons and blanks alone.
-/

namespace TodoLedger

namespace Entry

theorem tagsOf_append_cons (s t : Text) :
    tagsOf (s ++ Rune.ofChar ':' :: t) = tagsOf s ++ tagsOf t := by
  rw [tagsOf, tagsOf, tagsOf, Text.splitAt_append_cons, List.map_append, List.filter_append]

/-- No tag is read of colons and blanks, and of every other text some is. -/
theorem tagsOf_eq_nil_iff {t : Text} :
    tagsOf t = [] ↔ ∀ c ∈ t, c = Rune.ofChar ':' ∨ c.isBlank = true := by
  have hparts : tagsOf t = [] ↔ ∀ p ∈ Text.splitAt ':' t, Text.isBlank p = true := by
    rw [tagsOf, List.filter_eq_nil_iff, List.forall_mem_map]
    simp only [Bool.not_eq_true', Bool.not_eq_false, Text.trim_isEmpty]
  rw [hparts]
  constructor
  · intro h c hc
    rw [← Text.join_splitAt ':' t] at hc
    rcases Text.mem_join hc with hcolon | ⟨p, hp, hc⟩
    · exact Or.inl (List.mem_singleton.mp hcolon)
    · exact Or.inr (Text.isBlank_iff.mp (h p hp) c hc)
  · intro h p hp
    obtain ⟨hpart, hfree⟩ := (Text.splitAt_spec ':' t).2 p hp
    refine Text.isBlank_iff.mpr fun c hc => (h c (hpart.subset hc)).resolve_left ?_
    rintro rfl
    exact hfree hc

end Entry

namespace Headline

/-! ## Tags that can be read -/

/-- A text that is read back from a group of tags. -/
structure IsGroupTag (tag : Text) : Prop where
  ne_nil : tag ≠ []
  trimmed : Text.IsTrimmed tag
  noColon : Rune.ofChar ':' ∉ tag

instance (tag : Text) : Decidable (IsGroupTag tag) :=
  decidable_of_iff (tag ≠ [] ∧ Text.IsTrimmed tag ∧ Rune.ofChar ':' ∉ tag)
    ⟨fun ⟨hne, htrimmed, hcolon⟩ => ⟨hne, htrimmed, hcolon⟩,
      fun h => ⟨h.ne_nil, h.trimmed, h.noColon⟩⟩

theorem tagsOf_join {tags : List Text} (h : ∀ tag ∈ tags, IsGroupTag tag) (hne : tags ≠ []) :
    Entry.tagsOf (Text.join ":" tags) = tags := by
  have hsplit : Text.splitAt ':' (Text.join ":" tags) = tags :=
    Text.splitAt_join (fun tag htag => (h tag htag).noColon) hne
  have htrim : tags.map Text.trim = tags := by
    rw [List.map_congr_left (g := id) fun tag htag => (h tag htag).trimmed.trim_eq, List.map_id]
  rw [Entry.tagsOf, hsplit, htrim, List.filter_eq_self]
  intro tag htag
  simpa using (h tag htag).ne_nil

theorem tagGroup_eq (tags : List Text) : Issue.tagGroup tags =
    Rune.ofChar ':' :: (Text.join ":" tags ++ [Rune.ofChar ':']) := rfl

theorem tagsOf_tagGroup {tags : List Text} (h : ∀ tag ∈ tags, IsGroupTag tag) (hne : tags ≠ []) :
    Entry.tagsOf (Issue.tagGroup tags) = tags := by
  have hnil : Entry.tagsOf [] = [] := rfl
  rw [tagGroup_eq, ← List.nil_append (Rune.ofChar ':' :: _), Entry.tagsOf_append_cons,
    Entry.tagsOf_append_cons, hnil, List.nil_append, List.append_nil, tagsOf_join h hne]

/-! ## Where they are cut off -/

theorem isTagGroup_iff {t : Text} :
    isTagGroup t = true ↔ ∃ r, t = Rune.ofChar ':' :: (r ++ [Rune.ofChar ':']) := by
  constructor
  · intro h
    simp only [isTagGroup, Bool.and_eq_true, decide_eq_true_eq] at h
    obtain ⟨⟨hlength, hhead⟩, hlast⟩ := h
    obtain ⟨u, rfl⟩ := List.head?_eq_some_iff.mp hhead
    obtain ⟨r, hr⟩ := List.getLast?_eq_some_iff.mp hlast
    cases r with
    | nil =>
        rw [hr] at hlength
        simp at hlength
    | cons c r =>
        obtain ⟨rfl, rfl⟩ := List.cons.inj hr
        exact ⟨r, rfl⟩
  · rintro ⟨r, rfl⟩
    rw [isTagGroup, ← List.cons_append, List.getLast?_concat]
    simp

theorem isTagGroup_tagGroup (tags : List Text) : isTagGroup (Issue.tagGroup tags) = true :=
  isTagGroup_iff.mpr ⟨_, tagGroup_eq tags⟩

/-- A group may begin behind the text. -/
def Opens (before : Text) : Prop := ∀ c, before.getLast? = some c → c.isBlank = true

theorem opens_concat {before : Text} {c : Rune} : Opens (before ++ [c]) ↔ c.isBlank = true := by
  rw [Opens, List.getLast?_concat]
  exact ⟨fun h => h c rfl, fun h _ hd => Option.some.inj hd ▸ h⟩

/-- Behind `before` the text has a group at its end, or none, and no longer one. -/
structure IsCut (before title group : Text) : Prop where
  found : group = [] ∨ Opens (before ++ title) ∧ isTagGroup group = true
  longest : ∀ x y, title = x ++ y → y ≠ [] → Opens (before ++ x) → isTagGroup (y ++ group) = false

variable {t title group before : Text}

private theorem isCut_cutTags {mayBegin : Bool} (hbefore : mayBegin = true ↔ Opens before) (t : Text) :
    t = (cutTags mayBegin t).1 ++ (cutTags mayBegin t).2 ∧
      IsCut before (cutTags mayBegin t).1 (cutTags mayBegin t).2 := by
  induction t generalizing mayBegin before with
  | nil => exact ⟨rfl, Or.inl rfl, fun x y hxy hy => absurd (List.append_eq_nil_iff.mp hxy.symm).2 hy⟩
  | cons c t ih =>
      rw [cutTags]
      split_ifs with hgroup
      · rw [Bool.and_eq_true, hbefore] at hgroup
        refine ⟨rfl, Or.inr ?_, fun x y hxy hy => absurd (List.append_eq_nil_iff.mp hxy.symm).2 hy⟩
        rwa [List.append_nil]
      · obtain ⟨htext, hfound, hlongest⟩ := @ih (before ++ [c]) c.isBlank opens_concat.symm
        refine ⟨congrArg (c :: ·) htext, ?_, fun x y hxy hy hopens => ?_⟩
        · rwa [List.append_assoc] at hfound
        · cases x with
          | nil =>
              rw [List.append_nil, ← hbefore] at hopens
              rw [List.nil_append] at hxy
              rw [← hxy, List.cons_append, ← htext]
              simpa [hopens] using hgroup
          | cons d x =>
              obtain ⟨rfl, hrest⟩ := List.cons.inj hxy
              refine hlongest x y hrest hy ?_
              rwa [List.append_assoc]

/-- Two such cuts of one text are at one place. -/
private theorem IsCut.length_le {title' group' : Text} (h : IsCut before title group)
    (h' : IsCut before title' group') (hsame : title ++ group = title' ++ group') :
    title'.length ≤ title.length := by
  by_contra hlong
  rw [Nat.not_le] at hlong
  obtain ⟨y, rfl, rfl⟩ | ⟨y, rfl, -⟩ := List.append_eq_append_iff.mp hsame
  · have hy : y ≠ [] := by
      rintro rfl
      simp at hlong
    have hnone : y ++ group' ≠ [] := fun h => hy (List.append_eq_nil_iff.mp h).1
    obtain ⟨hopens, hgroup⟩ := h.found.resolve_left hnone
    rw [h'.longest title y rfl hy hopens] at hgroup
    cases hgroup
  · rw [List.length_append] at hlong
    omega

/-- The scan stops at the first place where a group may begin and the text ends as a group does. -/
theorem cutTags_eq_iff :
    cutTags true t = (title, group) ↔ t = title ++ group ∧ IsCut [] title group := by
  have hnone : Opens [] := by simp [Opens]
  obtain ⟨htext, hcut⟩ := @isCut_cutTags [] true (by simp [hnone]) t
  constructor
  · intro h
    rw [h] at htext hcut
    exact ⟨htext, hcut⟩
  · rintro ⟨htext', hcut'⟩
    have hsame : title ++ group = (cutTags true t).1 ++ (cutTags true t).2 := htext'.symm.trans htext
    have hlength := Nat.le_antisymm (hcut.length_le hcut' hsame.symm) (hcut'.length_le hcut hsame)
    obtain ⟨htitle, hgroup⟩ := List.append_inj hsame hlength
    exact Prod.ext htitle.symm hgroup.symm

/-- A text without colons has no tags. -/
theorem cutTags_of_noColon (ht : Rune.ofChar ':' ∉ t) : cutTags true t = (t, []) := by
  refine cutTags_eq_iff.mpr ⟨(List.append_nil t).symm, Or.inl rfl, fun x y hxy hy _ => ?_⟩
  rw [Bool.eq_false_iff, ne_eq, isTagGroup_iff]
  rintro ⟨r, hr⟩
  rw [List.append_nil] at hr
  exact ht (by simp [hxy, hr])

/-- Behind a text without colons and a blank a group is found. -/
theorem cutTags_append (ht : Rune.ofChar ':' ∉ t) (hgroup : isTagGroup group = true) :
    cutTags true (t ++ Rune.ofChar ' ' :: group) = (t ++ [Rune.ofChar ' '], group) := by
  refine cutTags_eq_iff.mpr ⟨by simp, Or.inr ⟨?_, hgroup⟩, fun x y hxy hy _ => ?_⟩
  · rw [List.nil_append, opens_concat]
    decide
  · obtain ⟨d, r, rfl⟩ := List.exists_cons_of_ne_nil hy
    have hd : d ∈ t ++ [Rune.ofChar ' '] := by simp [hxy]
    have hcolon : d ≠ Rune.ofChar ':' := by
      rintro rfl
      rcases List.mem_append.mp hd with hd | hd
      · exact ht hd
      · exact absurd (List.mem_singleton.mp hd) (by decide)
    simp [isTagGroup, hcolon]

end Headline

end TodoLedger
