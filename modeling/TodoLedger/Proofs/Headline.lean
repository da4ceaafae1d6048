import TodoLedger.Proofs.Headline.Group
import TodoLedger.Proofs.Text.Span
/-!
# Reading a written headline

The state of a written headline is read back whatever it is, and what stands behind it is read apart
from it. The title under which an issue is shown is chosen so that it can be read: either it has been
tried, or it starts with a character that opens neither a cookie nor tags. Then the priority and the
tags are read back as well, provided that no tag holds a colon.
-/

namespace TodoLedger

open Utf8

namespace State

theorem ofKeyword?_keyword (s : State) : ofKeyword? s.keyword = some s := by
  cases s <;> decide

theorem keyword_spec (s : State) : s.keyword ≠ [] ∧ (∀ c ∈ s.keyword, c.IsBasic) ∧
    ∀ c ∈ s.keyword, c.isBlank = false ∧ Headline.endsStateWord c = false := by
  cases s <;> decide

end State

namespace Headline

variable {h : Headline} {i : Issue} {title : Text} {c : Rune} {r : Text}

/-! ## The parts of a headline -/

/-- What a headline shows behind its state. -/
def shown (h : Headline) : Text := Text.join " " h.shownParts

private theorem exists_shownParts (h : Headline) : ∃ p ps, h.shownParts = p :: ps := by
  cases hparts : h.shownParts with
  | nil => simp [shownParts] at hparts
  | cons p ps => exact ⟨p, ps, rfl⟩

theorem encode_eq (h : Headline) : h.encode =
    List.replicate (max h.level 1).toNat (Rune.ofChar '*') ++
      (Rune.ofChar ' ' :: (h.state.keyword ++ (Rune.ofChar ' ' :: h.shown))) := by
  obtain ⟨p, ps, hparts⟩ := exists_shownParts h
  rw [encode, shown, hparts, Text.join_cons_cons, Text.join_cons_cons]
  rfl

/-- A headline on one line is read back up to what it shows behind its state. -/
theorem decode_encode (hfree : Rune.ofChar '\n' ∉ h.shown) : decode h.encode =
    match shown? (Rune.ofChar ' ' :: h.shown) with
    | none => .error (.noTitle h.encode)
    | some (priority, title, tags) =>
      .ok { level := max h.level 1, state := h.state, priority, title, tags } := by
  have hkeyword := h.state.keyword_spec
  set rest := Rune.ofChar ' ' :: (h.state.keyword ++ (Rune.ofChar ' ' :: h.shown)) with hrest
  have hstars : ∀ c ∈ List.replicate (max h.level 1).toNat (Rune.ofChar '*'), isStar c = true := by
    intro c hc
    rw [List.eq_of_mem_replicate hc]
    decide
  have htake : h.encode.takeWhile isStar =
      List.replicate (max h.level 1).toNat (Rune.ofChar '*') := by
    rw [encode_eq]
    exact Span.takeWhile_append_cons hstars (by decide)
  have hdrop : h.encode.dropWhile isStar = rest := by
    rw [encode_eq]
    exact Span.dropWhile_append_cons hstars (by decide)
  have hlong : rest.length ≠ h.encode.length := by
    have hlength := congrArg List.length (List.takeWhile_append_dropWhile (p := isStar) (l := h.encode))
    rw [htake, hdrop, List.length_append, List.length_replicate] at hlength
    omega
  have hbody : rest.takeWhile (fun c => c ≠ Rune.ofChar '\n') = rest := by
    rw [List.takeWhile_eq_self_iff]
    intro c hc
    rw [decide_eq_true_eq]
    rintro rfl
    rw [hrest, List.mem_cons, List.mem_append, List.mem_cons] at hc
    rcases hc with hc | hc | hc | hc
    · exact absurd hc (by decide)
    · exact absurd (hkeyword.2.2 _ hc).1 (by decide)
    · exact absurd hc (by decide)
    · exact hfree hc
  have hline : rest? h.encode = some rest := by
    rw [rest?]
    simp only [hdrop, hlong, if_false, hbody, decide_true, Bool.true_or, if_true]
  have htrim : Text.trimStart rest = h.state.keyword ++ Rune.ofChar ' ' :: h.shown := by
    rw [hrest, Text.trimStart, List.dropWhile_cons_of_pos (by decide)]
    cases hword : h.state.keyword with
    | nil => exact absurd hword hkeyword.1
    | cons c word => exact Text.trimStart_cons (hkeyword.2.2 c (by simp [hword])).1
  have hword : (h.state.keyword ++ Rune.ofChar ' ' :: h.shown).takeWhile
      (fun c => !endsStateWord c) = h.state.keyword :=
    Span.takeWhile_append_cons (fun c hc => by simp [(hkeyword.2.2 c hc).2]) (by decide)
  have hne : h.state.keyword.isEmpty = false := by simpa using hkeyword.1
  have hlevel : ((max h.level 1).toNat : Int) = max h.level 1 := by omega
  cases hshown : shown? (Rune.ofChar ' ' :: h.shown) with
  | none =>
      simp only [decode, hline, htrim, hword, hne, Bool.false_eq_true, if_false,
        State.ofKeyword?_keyword, List.drop_left, hshown]
  | some parts =>
      simp only [decode, hline, htrim, hword, hne, Bool.false_eq_true, if_false,
        State.ofKeyword?_keyword, List.drop_left, hshown, htake, List.length_replicate, hlevel]

/-- What has been tried is read back behind the state. -/
theorem readsBack_iff (hfree : Rune.ofChar '\n' ∉ h.shown) : h.readsBack = true ↔
    ∃ title, shown? (Rune.ofChar ' ' :: h.shown) = some (h.priority, title, h.tags) := by
  rw [readsBack, decode_encode hfree]
  cases hshown : shown? (Rune.ofChar ' ' :: h.shown) with
  | none => simp
  | some read =>
      obtain ⟨priority, title, tags⟩ := read
      simp only [Bool.and_eq_true, decide_eq_true_eq, Option.some.injEq, Prod.mk.injEq]
      constructor
      · rintro ⟨rfl, rfl⟩
        exact ⟨title, rfl, rfl, rfl⟩
      · rintro ⟨_, hpriority, -, htags⟩
        exact ⟨hpriority, htags⟩

/-! ## Titles that can be read -/

/-- What stands in front of the title. -/
def cookieShown (p : Priority) : Text := if p = .none then [] else "[#" ++ p.name ++ "] "

/-- What stands behind the title. -/
def tagsShown (tags : List Text) : Text :=
  if tags.isEmpty then [] else Rune.ofChar ' ' :: Issue.tagGroup tags

theorem shown_eq (h : Headline) :
    h.shown = cookieShown h.priority ++ (h.title ++ tagsShown h.tags) := by
  have hbehind : Text.join " " (h.title :: if h.tags.isEmpty then [] else [Issue.tagGroup h.tags]) =
      h.title ++ tagsShown h.tags := by
    rw [tagsShown]
    split_ifs
    · rw [Text.join, List.intercalate_singleton, List.append_nil]
    · rw [Text.join_cons_cons, Text.join, List.intercalate_singleton]
      simp [String.toText]
  rw [shown, shownParts, cookieShown]
  by_cases hpriority : h.priority = .none
  · rw [if_pos hpriority, if_pos hpriority, List.nil_append, List.nil_append, hbehind]
  · have hblank : ("] " : Text) = "]" ++ " " := rfl
    rw [if_neg hpriority, if_neg hpriority, List.singleton_append, Text.join_cons_cons, hbehind, hblank]
    simp only [List.append_assoc]

private theorem cookie?_cookieShown {p : Priority} (hp : p ≠ .none) (t : Text) :
    cookie? (cookieShown p ++ t) = some (p, Rune.ofChar ' ' :: t) := by
  cases p with
  | none => exact absurd rfl hp
  | a => rfl
  | b => rfl
  | c => rfl

/-- A cookie is a letter between brackets, and it gives a priority. -/
theorem form_of_cookie? {t : Text} {read : Priority × Text} (h : cookie? t = some read) :
    read.1 ≠ .none ∧
      ∃ c, t = Rune.ofChar '[' :: Rune.ofChar '#' :: c :: Rune.ofChar ']' :: read.2 := by
  unfold cookie? at h
  split at h
  · simp only [Bool.and_eq_true, decide_eq_true_eq] at h
    split_ifs at h with hmarks
    all_goals
      obtain ⟨⟨rfl, rfl⟩, rfl⟩ := hmarks
      obtain rfl := Option.some.inj h
      exact ⟨by simp, _, rfl⟩
  · cases h

theorem cookie?_cons (hc : c ≠ Rune.ofChar '[') (r : Text) : cookie? (c :: r) = none := by
  refine Option.eq_none_iff_forall_ne_some.mpr fun read hread => ?_
  obtain ⟨-, d, hform⟩ := form_of_cookie? hread
  exact hc (List.cons.inj hform).1

/-- What stands behind a title makes no cookie of its characters. -/
theorem cookie?_append_tagsShown (t : Text) (tags : List Text) : cookie? (t ++ tagsShown tags) =
    (cookie? t).map fun read => (read.1, read.2 ++ tagsShown tags) := by
  have hmarks : Rune.ofChar ' ' ≠ Rune.ofChar '[' ∧ Rune.ofChar ' ' ≠ Rune.ofChar '#' ∧
      Rune.ofChar ' ' ≠ Rune.ofChar ']' ∧ Rune.ofChar ':' ≠ Rune.ofChar ']' := by decide
  rw [tagsShown]
  split_ifs
  · simp
  · match t with
    | a :: b :: d :: e :: r =>
      simp only [List.cons_append, cookie?]
      split_ifs <;> rfl
    | [] | [a] | [a, b] | [a, b, d] =>
      refine Option.eq_none_iff_forall_ne_some.mpr fun read hread => ?_
      obtain ⟨-, _, hform⟩ := form_of_cookie? hread
      simp [tagGroup_eq, hmarks] at hform

theorem trimStart_shown (htitle : h.title = c :: r) (hblank : c.isBlank = false) :
    Text.trimStart (Rune.ofChar ' ' :: h.shown) = h.shown := by
  rw [Text.trimStart, List.dropWhile_cons_of_pos (by decide), shown_eq, cookieShown]
  split_ifs
  · rw [List.nil_append, htitle]
    exact Text.trimStart_cons hblank
  · exact Text.trimStart_cons (by decide)

/-- Where the title starts with no cookie, or stands behind one, what is read is what the cut of the
tags leaves. -/
theorem shown?_eq (htitle : h.title = c :: r) (hblank : c.isBlank = false)
    (hcookie : h.priority = .none → cookie? h.title = none) :
    shown? (Rune.ofChar ' ' :: h.shown) =
      match cutTags true (Text.trim (h.title ++ tagsShown h.tags)) with
      | (title, group) =>
        if (Text.trim title).isEmpty then none
        else some (h.priority, Text.trim title, Entry.tagsOf group) := by
  obtain ⟨rest, hrest, htrim⟩ : ∃ rest,
      (cookie? h.shown).getD (.none, h.shown) = (h.priority, rest) ∧
        Text.trim rest = Text.trim (h.title ++ tagsShown h.tags) := by
    rw [shown_eq]
    by_cases hpriority : h.priority = .none
    · rw [hpriority, cookieShown, if_pos rfl, List.nil_append, cookie?_append_tagsShown,
        hcookie hpriority]
      exact ⟨_, rfl, rfl⟩
    · rw [cookie?_cookieShown hpriority]
      exact ⟨_, rfl, Text.trim_append (s := [Rune.ofChar ' ']) (by decide)⟩
  simp only [shown?, trimStart_shown htitle hblank, hrest, htrim]

/-- A title whose first character is no blank, colon or bracket can be read. -/
theorem exists_shown?_of_plain (htitle : h.title = c :: r) (hblank : c.isBlank = false)
    (hc : isMarkup c = false) : ∃ shown, shown? (Rune.ofChar ' ' :: h.shown) = some shown := by
  simp only [isMarkup, Bool.or_eq_false_iff, decide_eq_false_iff_not] at hc
  have hcut : ∀ t, cutTags true (c :: t) =
      (c :: (cutTags c.isBlank t).1, (cutTags c.isBlank t).2) := fun t => by
    simp [cutTags, isTagGroup, hc.1.1]
  have htrim : ∀ t, (Text.trim (c :: t)).isEmpty = false := fun t => by
    rw [Text.trim_cons hblank, List.isEmpty_cons]
  rw [shown?_eq htitle hblank fun _ => by rw [htitle, cookie?_cons hc.1.2], htitle, List.cons_append,
    Text.trim_cons hblank, hcut]
  simp only [htrim, Bool.false_eq_true, if_false]
  exact ⟨_, rfl⟩

/-- The title is trimmed, and behind it stands nothing or a colon. -/
theorem trim_append_tagsShown {t : Text} (hne : t ≠ []) (htrimmed : Text.IsTrimmed t)
    (tags : List Text) : Text.trim (t ++ tagsShown tags) = t ++ tagsShown tags := by
  rw [tagsShown]
  split_ifs
  · rw [List.append_nil, htrimmed.trim_eq]
  · refine Text.IsTrimmed.trim_eq ⟨fun d hd => ?_, fun d hd => ?_⟩
    · obtain ⟨c, r, rfl⟩ := List.exists_cons_of_ne_nil hne
      exact htrimmed.head d hd
    · rw [tagGroup_eq, ← List.cons_append, ← List.cons_append, ← List.append_assoc,
        List.getLast?_concat] at hd
      obtain rfl := Option.some.inj hd
      decide

/-- A title without markup is read back, with its priority and its tags. -/
theorem shown?_of_plain (hne : h.title ≠ []) (htrimmed : Text.IsTrimmed h.title)
    (hplain : ∀ c ∈ h.title, isMarkup c = false) (htags : ∀ tag ∈ h.tags, IsGroupTag tag) :
    shown? (Rune.ofChar ' ' :: h.shown) = some (h.priority, h.title, h.tags) := by
  obtain ⟨c, r, htitle⟩ := List.exists_cons_of_ne_nil hne
  have hblank : c.isBlank = false := htrimmed.head c (by rw [htitle]; rfl)
  have hbracket : c ≠ Rune.ofChar '[' := by
    rintro rfl
    exact absurd (hplain _ (by rw [htitle]; exact List.mem_cons_self)) (by decide)
  have hcolon : Rune.ofChar ':' ∉ h.title := fun hmem => absurd (hplain _ hmem) (by decide)
  have hempty : h.title.isEmpty = false := by simpa using hne
  rw [shown?_eq htitle hblank fun _ => by rw [htitle, cookie?_cons hbracket],
    trim_append_tagsShown hne htrimmed]
  by_cases hnone : h.tags = []
  · have htagless : Entry.tagsOf [] = [] := rfl
    simp only [tagsShown, hnone, List.isEmpty_nil, if_true, List.append_nil, cutTags_of_noColon hcolon,
      htrimmed.trim_eq, hempty, Bool.false_eq_true, if_false, htagless]
  · have hshown : tagsShown h.tags = Rune.ofChar ' ' :: Issue.tagGroup h.tags :=
      if_neg (by simpa using hnone)
    have hbehind : Text.trim (h.title ++ [Rune.ofChar ' ']) = h.title := by
      rw [← Text.trim_trimEnd, Text.trimEnd_concat (by decide), Text.trim_trimEnd, htrimmed.trim_eq]
    simp only [hshown, cutTags_append hcolon (isTagGroup_tagGroup h.tags), hbehind, hempty,
      Bool.false_eq_true, if_false, tagsOf_tagGroup htags hnone]

/-! ## The title of an issue -/

section LineClass

variable {Q : Text → Prop} (hQ : Text.LineClass Q)

include hQ

private theorem fits_of_mem_shownParts {p : Text} (htitle : Q h.title) (htags : ∀ t ∈ h.tags, Q t)
    (hp : p ∈ h.shownParts) : Q p := by
  rw [shownParts, List.mem_append, List.mem_cons] at hp
  rcases hp with hp | rfl | hp
  · split_ifs at hp with hpriority
    · cases hp
    · rw [List.mem_singleton.mp hp]
      apply hQ.of_basic
      cases h.priority <;> decide
  · exact htitle
  · split_ifs at hp with hempty
    · cases hp
    · rw [List.mem_singleton.mp hp, Issue.tagGroup]
      have hjoin : Q (Text.join ":" h.tags) := hQ.join (by decide) htags
      exact hQ.append_basic (hQ.basic_append (by decide) hjoin) (by decide)

theorem fits_shown (htitle : Q h.title) (htags : ∀ t ∈ h.tags, Q t) : Q h.shown :=
  hQ.join (by decide) fun _ hp => fits_of_mem_shownParts hQ htitle htags hp

theorem fits_encode (htitle : Q h.title) (htags : ∀ t ∈ h.tags, Q t) : Q h.encode := by
  apply hQ.join (by decide)
  intro p hp
  rw [List.mem_cons, List.mem_cons] at hp
  rcases hp with rfl | rfl | hp
  · apply hQ.of_basic
    intro c hc
    rw [List.eq_of_mem_replicate hc]
    decide
  · exact hQ.of_basic h.state.keyword_spec.2.1
  · exact fits_of_mem_shownParts hQ htitle htags hp

end LineClass

/-- The words of an unmarked title are parts of the title without markup. -/
private theorem of_mem_words_unmarked {w : Text}
    (hw : w ∈ Text.words (title.map fun c => if isMarkup c then Rune.ofChar ' ' else c)) :
    w <:+: title ∧ w ≠ [] ∧ ∀ c ∈ w, c.isBlank = false ∧ isMarkup c = false := by
  obtain ⟨hpart, hne, hblank⟩ := Text.of_mem_words hw
  obtain ⟨s, hs, hmap⟩ := List.infix_map_iff.mp hpart
  have hplain : ∀ c ∈ s, isMarkup c = false := by
    intro c hc
    by_contra hmarkup
    have hspace : Rune.ofChar ' ' ∈ w := by
      rw [hmap, List.mem_map]
      exact ⟨c, hc, if_pos (by simpa using hmarkup)⟩
    exact absurd (hblank _ hspace) (by decide)
  have hsame : s.map (fun c => if isMarkup c then Rune.ofChar ' ' else c) = s := by
    refine (List.map_congr_left fun c hc => ?_).trans s.map_id
    simp [hplain c hc]
  rw [hsame] at hmap
  subst hmap
  exact ⟨hs, hne, fun c hc => ⟨hblank c hc, hplain c hc⟩⟩

/-- The title under which an issue is shown is made of its title, or it is the id. -/
theorem fits_titleOf {Q : Text → Prop} (hQ : Text.LineClass Q) (htitle : Q (Text.singleLine i.title))
    (hid : Q i.id) : Q (titleOf i) := by
  rw [titleOf]
  simp only
  split_ifs
  · exact htitle
  · exact hid
  · exact hQ.join (by decide) fun w hw => hQ.of_isInfix (of_mem_words_unmarked hw).1 htitle

/-- The title under which an issue is shown fits on a line, and it can be read. -/
theorem titleOf_spec {Q : Text → Prop} (hQ : Text.LineClass Q) (htitle : Q (Text.singleLine i.title))
    (htags : ∀ t ∈ i.tags, Q t) (hfits : Q i.id) (hid : i.id = c :: r) (hblank : c.isBlank = false)
    (hmarkup : isMarkup c = false) : Q (titleOf i) ∧
      ∃ shown, shown? (Rune.ofChar ' ' :: (ofIssue i (titleOf i)).shown) = some shown := by
  refine ⟨fits_titleOf hQ htitle hfits, ?_⟩
  rw [titleOf]
  set title := Text.singleLine i.title
  simp only
  split_ifs with hreads hempty
  · have hfree := (hQ.endFree (fits_shown (h := ofIssue i title) hQ htitle htags)).not_mem_lf
    obtain ⟨shownTitle, hshown⟩ := (readsBack_iff hfree).mp (Bool.and_eq_true _ _ ▸ hreads).2
    exact ⟨_, hshown⟩
  · exact exists_shown?_of_plain hid hblank hmarkup
  · set words := Text.words (title.map fun c => if isMarkup c then Rune.ofChar ' ' else c) with hwords
    cases hlist : words with
    | nil => simp [hlist, Text.join] at hempty
    | cons w ws =>
        have hw : w ∈ words := by simp [hlist]
        obtain ⟨-, hne, hchars⟩ := of_mem_words_unmarked hw
        cases w with
        | nil => exact absurd rfl hne
        | cons d w =>
            obtain ⟨hd, hplain⟩ := hchars d (by simp)
            obtain ⟨t, ht⟩ : ∃ t, Text.join " " ((d :: w) :: ws) = d :: t := by
              rw [Text.join, List.intercalate_cons_cons_left]
              exact ⟨_, rfl⟩
            exact exists_shown?_of_plain (h := ofIssue i _) ht hd hplain

/-- The title has something to show besides markup, or the id holds none. -/
def IsShowable (i : Issue) : Prop :=
  (∃ c ∈ i.title, c.isBlank = false ∧ isMarkup c = false) ∨
    i.id ≠ [] ∧ Text.IsTrimmed i.id ∧ ∀ c ∈ i.id, isMarkup c = false

private theorem words_unmarked_ne_nil (hc : c.isBlank = false) (hmarkup : isMarkup c = false)
    (hmem : c ∈ i.title) : Text.join " " (Text.words
      ((Text.singleLine i.title).map fun c => if isMarkup c then Rune.ofChar ' ' else c)) ≠ [] := by
  have hline : c ∈ Text.singleLine i.title := by
    rw [← List.count_pos_iff, Text.count_singleLine hc, List.count_pos_iff]
    exact hmem
  have hkept : c ∈ (Text.singleLine i.title).map fun c => if isMarkup c then Rune.ofChar ' ' else c :=
    List.mem_map.mpr ⟨c, hline, by simp [hmarkup]⟩
  obtain ⟨w, ws, hlist⟩ := List.exists_cons_of_ne_nil (Text.words_ne_nil hc hkept)
  obtain ⟨-, hne, -⟩ := of_mem_words_unmarked (w := w) (by rw [hlist]; exact List.mem_cons_self)
  obtain ⟨d, r, rfl⟩ := List.exists_cons_of_ne_nil hne
  rw [hlist, Text.join, List.intercalate_cons_cons_left]
  exact List.cons_ne_nil _ _

/-- The headline of an issue is read back to its priority and its tags. -/
theorem shown?_titleOf {Q : Text → Prop} (hQ : Text.LineClass Q) (htitle : Q (Text.singleLine i.title))
    (htags : ∀ t ∈ i.tags, Q t ∧ IsGroupTag t) (hshowable : IsShowable i) :
    ∃ title, shown? (Rune.ofChar ' ' :: (ofIssue i (titleOf i)).shown) =
      some (i.priority, title, i.tags) := by
  rw [titleOf]
  set title := Text.singleLine i.title with hsingle
  simp only
  split_ifs with hreads hempty
  · have hfree := (hQ.endFree
      (fits_shown (h := ofIssue i title) hQ htitle fun t ht => (htags t ht).1)).not_mem_lf
    exact (readsBack_iff hfree).mp (Bool.and_eq_true _ _ ▸ hreads).2
  · rcases hshowable with ⟨c, hmem, hc, hmarkup⟩ | ⟨hid, htrimmed, hplain⟩
    · exact absurd (by simpa using hempty) (words_unmarked_ne_nil hc hmarkup hmem)
    · exact ⟨i.id, shown?_of_plain (h := ofIssue i i.id) hid htrimmed hplain
        fun t ht => (htags t ht).2⟩
  · set words := Text.words (title.map fun c => if isMarkup c then Rune.ofChar ' ' else c) with hwords
    have hword : ∀ w ∈ words, w ≠ [] ∧ ∀ c ∈ w, c.isBlank = false ∧ isMarkup c = false :=
      fun w hw => (of_mem_words_unmarked hw).2
    have hne : Text.join " " words ≠ [] := by simpa using hempty
    refine ⟨Text.join " " words, shown?_of_plain (h := ofIssue i (Text.join " " words)) hne
      (Text.isTrimmed_join fun w hw => ⟨(hword w hw).1, fun c hc => ((hword w hw).2 c hc).1⟩)
      (fun c hc => ?_) fun t ht => (htags t ht).2⟩
    rcases Text.mem_join hc with hspace | ⟨w, hw, hc⟩
    · rw [List.mem_singleton.mp hspace]
      decide
    · exact ((hword w hw).2 c hc).2

end Headline

end TodoLedger
