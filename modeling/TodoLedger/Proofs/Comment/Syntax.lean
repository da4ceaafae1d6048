import TodoLedger.Proofs.Comment.Exchange
/-!
# Comments of the known languages

Openers and closers of comments are made of punctuation. So a marker never closes a comment, and the
keyword of a comment is the first one behind the column at which the comment is opened.
-/

namespace TodoLedger

/-- What closes a comment of a form, if anything does. -/
def CommentForm.closers : CommentForm → List Text
  | .toLineEnd _ => []
  | .block _ closer => [closer]

/-- A text that no closer can begin in is inside a comment as a whole. -/
theorem CommentForm.inside_append {form : CommentForm} {u : Text}
    (h : ∀ closer ∈ form.closers, Text.Apart closer u) (t : Text) :
    form.inside (u ++ t) = u ++ form.inside t := by
  cases form with
  | toLineEnd opener => rfl
  | block opener closer =>
      rw [inside, inside, (h closer (List.mem_singleton_self _)).cut?_append]
      cases Text.cut? closer t with
      | none => rfl
      | some found => rfl

/-- What the openers and closers of comments have in common. Openers hold no colon and no character
of a word; closers hold no blank and end in characters that markers do not have. -/
structure CommentForm.IsKnown (form : CommentForm) : Prop where
  opener_ne_nil : form.opener ≠ []
  opener : ∀ c ∈ form.opener,
    c ≠ Rune.ofChar ':' ∧ c.isWord = false ∧ Scan.isKeywordRune c = false
  closer : ∀ closer ∈ form.closers, closer ≠ [] ∧ ∀ c ∈ closer, c.isSpaceOrTab = false
  last : ∀ closer ∈ form.closers, ∀ c ∈ closer.getLast?.toList,
    c ≠ Rune.ofChar '-' ∧ c.isAlphanumeric = false ∧ c ∉ (" [orgi:] " : Text)

theorem CommentSyntax.exists_family (path : Path) : ∃ f ∈ families, f.1 = ofPath path := by
  rw [ofPath, ofExtension?]
  cases hfind : families.find? fun f => f.2.any fun e => e.toText = extensionOf path with
  | none => exact ⟨_, List.mem_cons_self, rfl⟩
  | some f => exact ⟨f, List.mem_of_find?_eq_some hfind, rfl⟩

theorem CommentSyntax.isKnown_of_mem_ofPath {path : Path} {form : CommentForm}
    (h : form ∈ (ofPath path).forms) : form.IsKnown := by
  have hopener : ∀ f ∈ families, ∀ form ∈ f.1.forms, form.opener ≠ [] ∧ ∀ c ∈ form.opener,
      c ≠ Rune.ofChar ':' ∧ c.isWord = false ∧ Scan.isKeywordRune c = false := by
    decide +kernel
  have hcloser : ∀ f ∈ families, ∀ form ∈ f.1.forms, ∀ closer ∈ form.closers,
      closer ≠ [] ∧ ∀ c ∈ closer, c.isSpaceOrTab = false := by
    decide +kernel
  have hlast : ∀ f ∈ families, ∀ form ∈ f.1.forms, ∀ closer ∈ form.closers,
      ∀ c ∈ closer.getLast?.toList,
        c ≠ Rune.ofChar '-' ∧ c.isAlphanumeric = false ∧ c ∉ (" [orgi:] " : Text) := by
    decide +kernel
  obtain ⟨f, hf, hsyntax⟩ := exists_family path
  rw [← hsyntax] at h
  obtain ⟨hne, hplain⟩ := hopener f hf form h
  exact ⟨hne, hplain, hcloser f hf form h, hlast f hf form h⟩

theorem CommentForm.IsKnown.apart_blanks {form : CommentForm} (h : form.IsKnown) {blanks : Text}
    (hblanks : ∀ c ∈ blanks, c.isSpaceOrTab = true) :
    ∀ closer ∈ form.closers, Text.Apart closer blanks := by
  intro closer hcloser
  obtain ⟨hne, hspace⟩ := h.closer closer hcloser
  have hdisjoint : ∀ c ∈ closer, c ∉ blanks := by
    intro c hc hmem
    have htrue := hblanks c hmem
    rw [hspace c hc] at htrue
    cases htrue
  constructor
  · exact hne
  · exact fun c hc => hdisjoint c (List.mem_of_mem_getLast? hc)
  · exact fun c hc hmem => hdisjoint c hmem (List.mem_of_mem_getLast? hc)

/-! ## The keyword behind an opener -/

theorem mayBegin_of_getLast? {flag : Bool} {s : Text} {c : Rune} (h : s.getLast? = some c)
    (hc : c.isWord = false) : mayBegin flag s = true := by
  rw [mayBegin, h]
  simp [hc]

namespace CommentForm.IsKnown

variable {form : CommentForm} {gap word lead : Text}

private theorem front_spec (h : form.IsKnown) (hlead : Scan.IsLead form.opener gap word lead) :
    ∀ c ∈ form.opener ++ gap, c.isWord = false ∧ Scan.isKeywordRune c = false := by
  intro c hc
  rcases List.mem_append.mp hc with hc | hc
  · exact (h.opener c hc).2
  · have hblank := Text.isBlank_iff.mp hlead.gap c hc
    exact ⟨Rune.isWord_of_isBlank hblank, Scan.isKeywordRune_of_isBlank hblank⟩

/-- The keyword of a comment is the first one behind the column of the comment, also where one more
character stands in front of the line. -/
theorem isFirstKeyword (h : form.IsKnown) (hlead : Scan.IsLead form.opener gap word lead)
    {mark : Text} (hmark : mark.length ≤ 1) (before rest : Text) :
    IsFirstKeyword before.length (mark ++ (before ++ (lead ++ rest)))
      (mark ++ (before ++ (form.opener ++ gap))) word rest := by
  have hfront := h.front_spec hlead
  have hsplit : mark ++ (before ++ (lead ++ rest)) =
      mark ++ (before ++ (form.opener ++ gap)) ++ (word ++ Rune.ofChar ':' :: rest) := by
    rw [hlead.split]
    simp
  have hne : form.opener ++ gap ≠ [] := by simp [h.opener_ne_nil]
  constructor
  · refine ⟨hsplit, hlead.keyword, ?_⟩
    have hlast := List.getLast?_eq_some_getLast hne
    rw [mayBegin_append, mayBegin_append]
    exact mayBegin_of_getLast? hlast (hfront _ (List.getLast_mem hne)).1
  · simp only [List.length_append]
    omega
  · intro s v r hs hle
    by_contra hlt
    -- a character that lies in such a keyword and in what opens the comment
    obtain ⟨i, hi⟩ : ∃ i, i = max s.length (mark ++ before).length := ⟨_, rfl⟩
    have hlength := hs.isKeyword.shape.1
    have hopener := List.length_pos_iff.mpr h.opener_ne_nil
    simp only [List.length_append] at hlt hi
    have hv : (mark ++ (before ++ (lead ++ rest)))[i]? = v[i - s.length]? := by
      rw [hs.split, List.getElem?_append_right (by omega), List.getElem?_append_left (by omega)]
    have ho : (mark ++ (before ++ (lead ++ rest)))[i]? =
        (form.opener ++ gap)[i - (mark ++ before).length]? := by
      rw [hsplit, ← List.append_assoc mark, List.append_assoc (mark ++ before),
        List.getElem?_append_right (by simp only [List.length_append]; omega),
        List.getElem?_append_left (by simp only [List.length_append]; omega)]
    have hinside : i - s.length < v.length := by omega
    have hmem : v[i - s.length] ∈ form.opener ++ gap := by
      apply List.mem_of_getElem?
      rw [← ho, hv]
      exact List.getElem?_eq_getElem hinside
    have hrune := hs.isKeyword.isKeywordRune (List.getElem_mem hinside)
    rw [(hfront _ hmem).2] at hrune
    cases hrune

end CommentForm.IsKnown

end TodoLedger
