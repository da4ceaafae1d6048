import TodoLedger.Document.Writer
import TodoLedger.Proofs.Headline
/-!
# The title that a headline shows

A headline shows the title of its issue if its priority and its tags have been read back behind it. So
they always are, for a title that cannot be read is shown without its markup. That the title itself is
read back is not tried. A title may end in colons from which no tag is read: these are cut off, and
nothing else ever is (`eq_or_losesEnd`).
-/

namespace TodoLedger

/-- The id and the tags of the issue are as a headline takes them. -/
structure Issue.FitsHeadline (i : Issue) : Prop where
  ne_nil : i.id ≠ []
  endFree : Text.EndFree i.id
  trimmed : Text.IsTrimmed i.id
  plain : ∀ c ∈ i.id, Headline.isMarkup c = false
  tags : ∀ t ∈ i.tags, Text.EndFree t ∧ Headline.IsGroupTag t

namespace Headline

variable {h : Headline} {i : Issue} {t title group front rest : Text} {tags : List Text}

/-! ## What is read behind a title -/

/-- Where tags are shown, behind a text of colons and blanks no other tags are read than those. -/
private theorem tagsOf_append_tagsShown_iff (htags : ∀ tag ∈ tags, IsGroupTag tag) :
    Entry.tagsOf (t ++ tagsShown tags) = tags ↔ ∀ c ∈ t, c = Rune.ofChar ':' ∨ c.isBlank = true := by
  by_cases hnone : tags = []
  · rw [hnone, tagsShown, List.isEmpty_nil, if_pos rfl, List.append_nil, Entry.tagsOf_eq_nil_iff]
  · have hblank : (Rune.ofChar ' ').isBlank = true := by decide
    have htext : t ++ tagsShown tags = (t ++ [Rune.ofChar ' ']) ++
        Rune.ofChar ':' :: (Text.join ":" tags ++ Rune.ofChar ':' :: []) := by
      rw [tagsShown, if_neg (by simpa using hnone), tagGroup_eq]
      simp
    have hnil : Entry.tagsOf [] = [] := rfl
    rw [htext, Entry.tagsOf_append_cons, Entry.tagsOf_append_cons, hnil, List.append_nil,
      tagsOf_join htags hnone, List.append_left_eq_self, Entry.tagsOf_eq_nil_iff]
    simp [or_imp, forall_and, hblank]

/-- The end of the title is taken for tags, and no tag is read of it: the first colon that may begin
a group stands behind `front`, and there are only colons and blanks behind it. -/
structure LosesEnd (h : Headline) (front rest : Text) : Prop where
  title : h.title = front ++ Rune.ofChar ':' :: rest
  ne_nil : front ≠ []
  opens : Opens front
  first : ∀ x y, front = x ++ Rune.ofChar ':' :: y → ¬Opens x
  noTag : ∀ c ∈ rest, c = Rune.ofChar ':' ∨ c.isBlank = true
  group : h.tags = [] → rest ≠ []
  cookie : h.priority = .none → cookie? h.title = none

/-- What is lost together with the tags that are shown is a group. -/
theorem LosesEnd.isTagGroup (hlost : h.LosesEnd front rest) (htrimmed : Text.IsTrimmed h.title) :
    isTagGroup (Rune.ofChar ':' :: rest ++ tagsShown h.tags) = true := by
  rw [isTagGroup_iff, tagsShown]
  split_ifs with hnone
  · obtain hnil | ⟨r, c, rfl⟩ := rest.eq_nil_or_concat'
    · exact absurd hnil (hlost.group (by simpa using hnone))
    · have hlast : c.isBlank = false := by
        refine htrimmed.last c ?_
        rw [hlost.title, ← List.cons_append, ← List.append_assoc, List.getLast?_concat]
      have hcolon := (hlost.noTag c (by simp)).resolve_right (by simp [hlast])
      exact ⟨r, by simp [hcolon]⟩
  · exact ⟨rest ++ Rune.ofChar ' ' :: Rune.ofChar ':' :: Text.join ":" h.tags, by simp [tagGroup_eq]⟩

private theorem trim_front_ne_nil (htrimmed : Text.IsTrimmed (front ++ t)) (hne : front ≠ []) :
    Text.trim front ≠ [] := by
  obtain ⟨c, r, rfl⟩ := List.exists_cons_of_ne_nil hne
  rw [Text.trim_cons (htrimmed.head c rfl)]
  exact List.cons_ne_nil _ _

/-- A title that loses its end is read without it, with all tags. -/
theorem shown?_of_losesEnd (htrimmed : Text.IsTrimmed h.title)
    (htags : ∀ tag ∈ h.tags, IsGroupTag tag) (hlost : h.LosesEnd front rest) :
    shown? (Rune.ofChar ' ' :: h.shown) = some (h.priority, Text.trim front, h.tags) := by
  have hne : h.title ≠ [] := by simp [hlost.title]
  have hcut : cutTags true (h.title ++ tagsShown h.tags) =
      (front, Rune.ofChar ':' :: rest ++ tagsShown h.tags) := by
    refine cutTags_eq_iff.mpr ⟨by rw [hlost.title, List.append_assoc],
      Or.inr ⟨hlost.opens, hlost.isTagGroup htrimmed⟩, fun x y hxy hy hopens => ?_⟩
    rw [Bool.eq_false_iff, ne_eq, isTagGroup_iff]
    rintro ⟨u, hu⟩
    obtain ⟨c, y, rfl⟩ := List.exists_cons_of_ne_nil hy
    obtain ⟨rfl, -⟩ := List.cons.inj hu
    exact hlost.first x y hxy hopens
  have htagsOf : Entry.tagsOf (Rune.ofChar ':' :: rest ++ tagsShown h.tags) = h.tags := by
    rw [tagsOf_append_tagsShown_iff htags]
    exact List.forall_mem_cons.mpr ⟨Or.inl rfl, hlost.noTag⟩
  have hempty : (Text.trim front).isEmpty = false := by
    rw [List.isEmpty_eq_false_iff]
    exact trim_front_ne_nil (hlost.title ▸ htrimmed) hlost.ne_nil
  obtain ⟨c, r, htitle⟩ := List.exists_cons_of_ne_nil hne
  rw [shown?_eq htitle (htrimmed.head c (by rw [htitle]; rfl)) hlost.cookie,
    trim_append_tagsShown hne htrimmed]
  simp only [hcut, hempty, Bool.false_eq_true, if_false, htagsOf]

/-- A title that is read behind no priority starts with no cookie. -/
private theorem cookie?_eq_none_of_shown? {priority : Priority} (hne : h.title ≠ [])
    (htrimmed : Text.IsTrimmed h.title)
    (hshown : shown? (Rune.ofChar ' ' :: h.shown) = some (priority, title, tags))
    (hpriority : h.priority = .none) (hread : priority = .none) : cookie? h.title = none := by
  refine Option.eq_none_iff_forall_ne_some.mpr fun read hcookie => ?_
  obtain ⟨c, r, htitle⟩ := List.exists_cons_of_ne_nil hne
  have hfront := trimStart_shown htitle (htrimmed.head c (by rw [htitle]; rfl))
  have hsome : cookie? h.shown = some (read.1, read.2 ++ tagsShown h.tags) := by
    rw [shown_eq, hpriority, cookieShown, if_pos rfl, List.nil_append, cookie?_append_tagsShown,
      hcookie]
    rfl
  simp only [shown?, hfront, hsome, Option.getD_some] at hshown
  split_ifs at hshown
  obtain ⟨hsame, -⟩ := Prod.mk.inj (Option.some.inj hshown)
  exact (form_of_cookie? hcookie).1 (hsame.trans hread)

/-- A cut within the title loses its end. -/
private theorem losesEnd_of_isCut (htags : ∀ tag ∈ h.tags, IsGroupTag tag)
    (htitle : h.title = front ++ Rune.ofChar ':' :: rest) (hne : front ≠ [])
    (hcut : IsCut [] front (Rune.ofChar ':' :: rest ++ tagsShown h.tags))
    (hread : Entry.tagsOf (Rune.ofChar ':' :: rest ++ tagsShown h.tags) = h.tags)
    (hcookie : h.priority = .none → cookie? h.title = none) : h.LosesEnd front rest := by
  obtain ⟨hopens, hgroup⟩ := hcut.found.resolve_left (by simp)
  obtain ⟨u, hu⟩ := isTagGroup_iff.mp hgroup
  rw [tagsOf_append_tagsShown_iff htags, List.forall_mem_cons] at hread
  refine ⟨htitle, hne, hopens, fun x y hxy hx => ?_, hread.2, fun hnone => ?_, hcookie⟩
  · have hlonger := hcut.longest x _ hxy (List.cons_ne_nil _ _) hx
    rw [Bool.eq_false_iff, ne_eq, isTagGroup_iff] at hlonger
    exact hlonger ⟨y ++ Rune.ofChar ':' :: u, by simp [hu]⟩
  · rintro rfl
    simp [tagsShown, hnone] at hu

/-- A cut behind the title stands directly in front of the tags that are shown. -/
private theorem isBlank_of_isCut {behind : Text} (hcut : IsCut [] (t ++ behind) group)
    (hshown : tagsShown tags = behind ++ group) : Text.isBlank behind = true := by
  rw [tagsShown] at hshown
  split_ifs at hshown
  · rw [(List.append_eq_nil_iff.mp hshown.symm).1]
    rfl
  · cases behind with
    | nil => rfl
    | cons d y =>
        obtain ⟨rfl, hgroup⟩ := List.cons.inj hshown
        by_cases hy : y = []
        · rw [hy]
          decide
        · have hopens : Opens ([] ++ (t ++ [Rune.ofChar ' '])) := by
            rw [List.nil_append, opens_concat]
            decide
          have hlonger := hcut.longest (t ++ [Rune.ofChar ' ']) y (by simp) hy hopens
          have hgroup' : Issue.tagGroup tags = y ++ group := hgroup
          rw [← hgroup', isTagGroup_tagGroup] at hlonger
          cases hlonger

/-- With the priority and the tags the whole title is read, or it loses its end. -/
theorem eq_or_losesEnd (hne : h.title ≠ []) (htrimmed : Text.IsTrimmed h.title)
    (htags : ∀ tag ∈ h.tags, IsGroupTag tag)
    (hshown : shown? (Rune.ofChar ' ' :: h.shown) = some (h.priority, title, h.tags)) :
    title = h.title ∨ ∃ front rest, h.LosesEnd front rest := by
  obtain ⟨c, r, htitle⟩ := List.exists_cons_of_ne_nil hne
  have hcookie : h.priority = .none → cookie? h.title = none := fun hpriority =>
    cookie?_eq_none_of_shown? hne htrimmed hshown hpriority hpriority
  rw [shown?_eq htitle (htrimmed.head c (by rw [htitle]; rfl)) hcookie,
    trim_append_tagsShown hne htrimmed] at hshown
  obtain ⟨⟨front, group⟩, hcut⟩ : ∃ cut, cutTags true (h.title ++ tagsShown h.tags) = cut := ⟨_, rfl⟩
  rw [hcut] at hshown
  simp only at hshown
  split_ifs at hshown with hempty
  simp only [Option.some.injEq, Prod.mk.injEq, true_and] at hshown
  obtain ⟨rfl, hread⟩ := hshown
  have hfront : front ≠ [] := by
    rintro rfl
    exact hempty rfl
  obtain ⟨htext, hcut⟩ := cutTags_eq_iff.mp hcut
  obtain ⟨behind, rfl, hshown⟩ | ⟨within, htitle, rfl⟩ := List.append_eq_append_iff.mp htext
  -- The cut stands behind the title: no more than the blank in front of the group comes with it.
  · have hblank := isBlank_of_isCut hcut hshown
    rw [← Text.trim_trimEnd, Text.trimEnd_append hblank, Text.trim_trimEnd, htrimmed.trim_eq]
    exact Or.inl rfl
  -- The cut stands at the end of the title or within it.
  · cases hcases : within with
    | nil =>
        rw [hcases, List.append_nil] at htitle
        rw [← htitle, htrimmed.trim_eq]
        exact Or.inl rfl
    | cons d rest =>
        subst hcases
        obtain ⟨u, hu⟩ := isTagGroup_iff.mp (hcut.found.resolve_left (by simp)).2
        obtain ⟨rfl, -⟩ := List.cons.inj hu
        exact Or.inr ⟨front, rest, losesEnd_of_isCut htags htitle hfront hcut hread hcookie⟩

/-! ## What is read of an issue's headline -/

/-- The headline shows the level and the state, and what can be read of it behind them. -/
theorem decode_renderHeadline (hid : Text.EndFree i.id) (htags : ∀ t ∈ i.tags, Text.EndFree t) :
    decode i.renderHeadline =
      match shown? (Rune.ofChar ' ' :: (ofIssue i (titleOf i)).shown) with
      | none => .error (.noTitle i.renderHeadline)
      | some (priority, title, tags) =>
        .ok { level := max i.level 1, state := i.state, priority, title, tags } := by
  have hQ := Text.lineClass_endFree
  have htitle := fits_titleOf hQ (Text.breakFree_singleLine i.title).endFree hid
  have hfree := (fits_shown (h := ofIssue i (titleOf i)) hQ htitle htags).not_mem_lf
  rw [Issue.renderHeadline, decode_encode hfree]
  cases shown? (Rune.ofChar ' ' :: (ofIssue i (titleOf i)).shown) with
  | none => rfl
  | some parts => rfl

private theorem exists_shown?_titleOf (hi : i.FitsHeadline) : ∃ title,
    shown? (Rune.ofChar ' ' :: (ofIssue i (titleOf i)).shown) = some (i.priority, title, i.tags) :=
  shown?_titleOf Text.lineClass_endFree (Text.breakFree_singleLine i.title).endFree hi.tags
    (Or.inr ⟨hi.ne_nil, hi.trimmed, hi.plain⟩)

/-- Whatever its title is, the headline of an issue is read back to its level, its state, its priority
and its tags. -/
theorem renderHeadline_reads_back (hi : i.FitsHeadline) : ∃ title, decode i.renderHeadline = .ok
    { level := max i.level 1, state := i.state, priority := i.priority, title, tags := i.tags } := by
  obtain ⟨title, hshown⟩ := exists_shown?_titleOf hi
  refine ⟨title, ?_⟩
  rw [decode_renderHeadline hi.endFree fun t ht => (hi.tags t ht).1, hshown]

/-- An issue with an id, a title and tags and with nothing else. -/
def titled (title : Text) (tags : List Text) : Issue :=
  ⟨"a", title, [], ⟨2026, 1, 2, 9, 15, 0, 0, by decide, by decide⟩, .todo, .none, tags, .empty, 1⟩

theorem fitsHeadline_titled (htags : ∀ t ∈ tags, Text.EndFree t ∧ IsGroupTag t) :
    (titled title tags).FitsHeadline where
  ne_nil := List.cons_ne_nil _ _
  endFree := (by decide : Text.EndFree "a")
  trimmed := (by decide : Text.IsTrimmed "a")
  plain := (by decide : ∀ c ∈ ("a" : Text), isMarkup c = false)
  tags := htags

/-- The title would be read as a cookie, a word and a tag, and it is shown without its markup. -/
theorem renderHeadline_reads_back_markup :
    (titled "[#A] x :b:" ["c d"]).FitsHeadline ∧ ∃ title,
      decode (titled "[#A] x :b:" ["c d"]).renderHeadline =
        .ok { level := 1, state := .todo, priority := .none, title, tags := ["c d"] } := by
  have hfits : (titled "[#A] x :b:" ["c d"]).FitsHeadline := fitsHeadline_titled (by decide)
  exact ⟨hfits, renderHeadline_reads_back hfits⟩

/-- The title that is read is the one that is shown, or it has lost its end. -/
theorem title_of_decode (hi : i.FitsHeadline) (hne : Text.singleLine i.title ≠ []) :
    ∃ title, decode i.renderHeadline = .ok
        { level := max i.level 1, state := i.state, priority := i.priority, title, tags := i.tags } ∧
      (titleOf i = Text.singleLine i.title → title = Text.singleLine i.title ∨
        ∃ front rest, (ofIssue i (Text.singleLine i.title)).LosesEnd front rest) ∧
      ∀ front rest, (ofIssue i (Text.singleLine i.title)).LosesEnd front rest →
        titleOf i = Text.singleLine i.title ∧ title = Text.trim front := by
  obtain ⟨title, hshown⟩ := exists_shown?_titleOf hi
  have hdecode := decode_renderHeadline hi.endFree fun t ht => (hi.tags t ht).1
  rw [hshown] at hdecode
  have htags : ∀ t ∈ i.tags, IsGroupTag t := fun t ht => (hi.tags t ht).2
  have htrimmed := Text.isTrimmed_singleLine i.title
  refine ⟨title, hdecode, fun hsame => ?_, fun front rest hlost => ?_⟩
  · rw [hsame] at hshown
    exact eq_or_losesEnd (h := ofIssue i (Text.singleLine i.title)) hne htrimmed htags hshown
  · have hread := shown?_of_losesEnd (h := ofIssue i (Text.singleLine i.title)) htrimmed htags hlost
    have hfree := (fits_shown (h := ofIssue i (Text.singleLine i.title)) Text.lineClass_endFree
      (Text.breakFree_singleLine i.title).endFree fun t ht => (hi.tags t ht).1).not_mem_lf
    have hempty : (Text.singleLine i.title).isEmpty = false := by simpa using hne
    have hsame : titleOf i = Text.singleLine i.title := by
      simp only [titleOf, hempty, (readsBack_iff hfree).mpr ⟨_, hread⟩, Bool.not_false, Bool.and_self,
        if_true]
    rw [hsame, hread] at hshown
    simp only [Option.some.injEq, Prod.mk.injEq] at hshown
    obtain ⟨-, rfl, -⟩ := hshown
    exact ⟨hsame, rfl⟩

end Headline

end TodoLedger
