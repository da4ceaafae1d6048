import TodoLedger.Proofs.Document.Written
import TodoLedger.Proofs.Headline.Title
/-!
# The title of a written issue

A drawer holds the exact title wherever the headline shows another one. So the title is read back, from
the one or from the other, but for one case: the headline shows a title that loses its end when it is
read, and the drawer does not hold it.
-/

namespace TodoLedger

namespace Issue

variable {i : Issue}

/-- An issue without properties makes an entry if it fits a headline. -/
theorem FitsHeadline.makesEntry (h : i.FitsHeadline) (hnone : i.properties = .empty) :
    i.MakesEntry := by
  have hentries : i.properties.entries = [] := by rw [hnone]; rfl
  refine ⟨⟨h.endFree, (Text.breakFree_singleLine _).endFree, ?_, fun t ht => (h.tags t ht).1, ?_⟩,
    h.trimmed, ?_, ?_, ?_⟩
  · exact fun p hp => ((Text.pieces_spec i.description).2 p hp).2.endFree
  · simp [hentries]
  · rw [← Text.trim_isEmpty, h.trimmed.trim_eq, List.isEmpty_eq_false_iff]
    exact h.ne_nil
  · rw [hentries]
    exact List.Pairwise.nil
  · simp [hentries]

private theorem kept_eq_empty (hnone : i.properties = .empty) : i.kept = .empty := by
  rw [kept, others, hnone]
  rfl

/-- The drawer holds the title if the headline shows another one. -/
private theorem valueOf_front (hnone : i.properties = .empty) :
    Properties.valueOf ⟨i.front ++ i.kept.entries⟩ "TITLE" =
      if Headline.titleOf i = Text.singleLine i.title then [] else Text.singleLine i.title := by
  have hkeys : Properties.sameKey "ID" "TITLE" = false ∧
      Properties.sameKey "CREATED" "TITLE" = false ∧ Properties.sameKey "TITLE" "TITLE" = true := by
    decide +kernel
  have htitle : i.properties.has "TITLE" = false := by rw [hnone]; rfl
  have hkept : i.kept.entries = [] := by rw [kept_eq_empty hnone]; rfl
  rw [Properties.valueOf, Properties.get?, hkept, List.append_nil, front, htitle]
  by_cases hshown : Headline.titleOf i = Text.singleLine i.title
  · simp [hshown, hkeys]
  · simp [hshown, hkeys]

/-- The title that comes back is the exact one, or the headline has shown it. -/
private theorem title_recovered (hnone : i.properties = .empty) (hne : Text.singleLine i.title ≠ [])
    (headline : Headline) (body : List Text) : (i.recovered headline body).title =
      if Headline.titleOf i = Text.singleLine i.title then headline.title
      else Text.singleLine i.title := by
  have hempty : (Text.singleLine i.title).isEmpty = false := by simpa using hne
  simp only [recovered, Draft.issueWith, valueOf_front hnone]
  by_cases hshown : Headline.titleOf i = Text.singleLine i.title
  · simp only [hshown, if_true, List.isEmpty_nil]
  · simp only [hshown, if_false, hempty, Bool.false_eq_true]

end Issue

open Headline in
/-- The title of an issue without properties is read back on one line, unless it loses its end. -/
theorem title_of_readDocument_render {i : Issue} (hfits : i.FitsHeadline)
    (hnone : i.properties = .empty) (hyear : 1000 ≤ i.createdAt.year)
    (hne : Text.singleLine i.title ≠ []) :
    ∃ j, readDocument i.render = .ok [j] ∧
      (j.title = Text.singleLine i.title ↔
        ∀ front rest, ¬(ofIssue i (Text.singleLine i.title)).LosesEnd front rest) ∧
      ∀ front rest, (ofIssue i (Text.singleLine i.title)).LosesEnd front rest →
        j.title = Text.trim front := by
  obtain ⟨title, hdecode, hsame, hlost⟩ := title_of_decode hfits hne
  obtain ⟨body, hread⟩ := Issue.readDocument_render_iff (hfits.makesEntry hnone) hyear
  have hfull : i.kept.HasNoOrFullSource := by
    rw [Issue.kept_eq_empty hnone]
    exact Or.inl fun _ _ => rfl
  refine ⟨_, (hread _).mpr ⟨_, hdecode, hfull, rfl⟩, ?_, fun front rest hfront => ?_⟩
  · rw [Issue.title_recovered hnone hne]
    constructor
    · intro htitle front rest hfront
      obtain ⟨hshown, rfl⟩ := hlost front rest hfront
      rw [if_pos hshown] at htitle
      have hwhole : Text.trim front = front ++ Rune.ofChar ':' :: rest := htitle.trans hfront.title
      have hlength := congrArg List.length hwhole
      have hshort := (Text.trim_isInfix front).length_le
      rw [List.length_append, List.length_cons] at hlength
      omega
    · intro hnot
      split_ifs with hshown
      · exact (hsame hshown).resolve_right fun ⟨front, rest, hfront⟩ => hnot front rest hfront
      · rfl
  · obtain ⟨hshown, rfl⟩ := hlost front rest hfront
    rw [Issue.title_recovered hnone hne, if_pos hshown]

/-- The title would be read as a tag and a word behind it, so that the drawer holds it. -/
theorem title_of_readDocument_render_held :
    (Headline.titled "x :b: y :" ["c"]).FitsHeadline ∧
      (Headline.titled "x :b: y :" ["c"]).properties = .empty ∧
      1000 ≤ (Headline.titled "x :b: y :" ["c"]).createdAt.year ∧
      Text.singleLine (Headline.titled "x :b: y :" ["c"]).title ≠ [] ∧
      ∃ j, readDocument (Headline.titled "x :b: y :" ["c"]).render = .ok [j] ∧
        (j.title = Text.singleLine "x :b: y :" ↔ ∀ front rest, ¬(Headline.ofIssue
          (Headline.titled "x :b: y :" ["c"]) (Text.singleLine "x :b: y :")).LosesEnd front rest) ∧
        ∀ front rest, (Headline.ofIssue (Headline.titled "x :b: y :" ["c"])
          (Text.singleLine "x :b: y :")).LosesEnd front rest → j.title = Text.trim front := by
  have hfits : (Headline.titled "x :b: y :" ["c"]).FitsHeadline :=
    Headline.fitsHeadline_titled (by decide)
  have hyear : 1000 ≤ (Headline.titled "x :b: y :" ["c"]).createdAt.year := by decide
  have hne : Text.singleLine (Headline.titled "x :b: y :" ["c"]).title ≠ [] := by decide
  exact ⟨hfits, rfl, hyear, hne, title_of_readDocument_render hfits rfl hyear hne⟩

/-- Two colons at the end of a title are taken for tags, and the drawer does not hold them. -/
theorem title_of_readDocument_render_lost :
    (Headline.titled "x ::" []).FitsHeadline ∧ Text.singleLine "x ::" = "x ::" ∧
      (readDocument (Headline.titled "x ::" []).render).map (·.map Issue.title) = .ok ["x".toText] :=
  ⟨Headline.fitsHeadline_titled (by decide), by decide, by decide +kernel⟩

end TodoLedger
