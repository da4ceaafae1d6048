import TodoLedger.Proofs.Comment.Keyword
/-!
# Exchanging what a keyword is followed by

Whether a comment is found depends on the line up to the colon behind its keyword. When the rest of
the line is exchanged, the comment is still found there, with the text of the new rest.
-/

namespace TodoLedger

/-- What opens a comment of a form. -/
def CommentForm.opener : CommentForm → Text
  | .toLineEnd opener => opener
  | .block opener _ => opener

/-- The part of a rest of a line that belongs to a comment. -/
def CommentForm.inside : CommentForm → Text → Text
  | .toLineEnd _, rest => rest
  | .block _ closer, rest => ((Text.cut? closer rest).getD (rest, [])).1

namespace Scan

variable {opener closer t s rest rest' word line : Text} {offset skip : Nat} {f : Found}

/-- What stands in front of the rest: an opener, a gap of blanks, a keyword and its colon. -/
structure IsLead (opener gap word lead : Text) : Prop where
  split : lead = opener ++ (gap ++ (word ++ [Rune.ofChar ':']))
  gap : Text.isBlank gap = true
  keyword : IsKeyword word

theorem IsLead.ne_nil {gap lead : Text} (h : IsLead opener gap word lead) : lead ≠ [] := by
  rw [h.split]
  simp

theorem IsLead.mem_colon {gap lead : Text} (h : IsLead opener gap word lead) :
    Rune.ofChar ':' ∈ lead := by
  rw [h.split]
  simp

theorem opened?_eq_some_iff : opened? opener t = some (word, rest) ↔
    ∃ gap lead, IsLead opener gap word lead ∧ t = lead ++ rest := by
  simp only [opened?, bind, Option.bind_eq_some_iff, Text.dropLeading?_eq_some_iff,
    keyword?_eq_some_iff]
  constructor
  · rintro ⟨r, rfl, hsplit, hword⟩
    refine ⟨Text.indent r, _, ⟨rfl, Text.isBlank_indent r, hword⟩, ?_⟩
    conv_lhs => rw [← Text.indent_append_trimStart r, hsplit]
    simp
  · rintro ⟨gap, lead, ⟨rfl, hgap, hword⟩, rfl⟩
    refine ⟨gap ++ (word ++ Rune.ofChar ':' :: rest), by simp, ?_, hword⟩
    obtain ⟨c, r, rfl⟩ := List.exists_cons_of_ne_nil hword.ne_nil
    have hc : c.isBlank = false := hword.isBlank List.mem_cons_self
    exact Span.dropWhile_append_cons (Text.isBlank_iff.mp hgap) hc

/-- A lead opens its comment, whatever stands behind it. -/
theorem IsLead.opens {gap lead : Text} (h : IsLead opener gap word lead) (rest : Text) :
    opened? opener (lead ++ rest) = some (word, rest) :=
  opened?_eq_some_iff.mpr ⟨gap, lead, h, rfl⟩

theorem IsLead.noColon {gap lead : Text} (h : IsLead opener gap word lead)
    (hopener : Rune.ofChar ':' ∉ opener) : Rune.ofChar ':' ∉ opener ++ (gap ++ word) := by
  have hgap : Rune.ofChar ':' ∉ gap := fun hmem => by
    have hblank := Text.isBlank_iff.mp h.gap _ hmem
    revert hblank
    decide
  simp [hopener, hgap, h.keyword.noColon]

/-- A lead is settled by a part of the text that has a colon. -/
theorem IsLead.exists_of_append {gap lead : Text} (h : IsLead opener gap word lead)
    (hopener : Rune.ofChar ':' ∉ opener) (hs : Rune.ofChar ':' ∈ s) (hsplit : s ++ t = lead ++ rest) :
    ∃ inner, s = lead ++ inner ∧ rest = inner ++ t := by
  obtain ⟨u, v, rfl, hu⟩ := List.eq_append_cons_of_mem hs
  have hlead : lead = opener ++ (gap ++ word) ++ [Rune.ofChar ':'] := by
    rw [h.split]
    simp
  have hsame : u ++ Rune.ofChar ':' :: (v ++ t) =
      opener ++ (gap ++ word) ++ Rune.ofChar ':' :: rest := by
    rw [hlead] at hsplit
    simpa using hsplit
  obtain ⟨rfl, rfl⟩ := Span.split_at_first hu (h.noColon hopener) hsame
  refine ⟨v, ?_, rfl⟩
  rw [hlead]
  simp

/-- A comment that is opened in front of a text with a colon is opened whatever follows. -/
theorem opened?_append (hopener : Rune.ofChar ':' ∉ opener) (hs : Rune.ofChar ':' ∈ s) (t : Text) :
    opened? opener (s ++ t) = (opened? opener s).map fun found => (found.1, found.2 ++ t) := by
  cases hfound : opened? opener (s ++ t) with
  | some found =>
      obtain ⟨word, rest⟩ := found
      obtain ⟨gap, lead, hlead, hsplit⟩ := opened?_eq_some_iff.mp hfound
      obtain ⟨inner, rfl, rfl⟩ := hlead.exists_of_append hopener hs hsplit
      rw [opened?_eq_some_iff.mpr ⟨gap, lead, hlead, rfl⟩]
      rfl
  | none =>
      cases hshort : opened? opener s with
      | none => rfl
      | some found =>
          obtain ⟨word, rest⟩ := found
          obtain ⟨gap, lead, hlead, rfl⟩ := opened?_eq_some_iff.mp hshort
          have hsome := hlead.opens (rest ++ t)
          rw [← List.append_assoc, hfound] at hsome
          cases hsome

/-- Whether a comment is opened in front of a lead does not hang on what the lead is followed by. -/
theorem IsLead.opened?_append_lead {opener' gap lead : Text} (h : IsLead opener' gap word lead)
    (hopener : Rune.ofChar ':' ∉ opener) (before rest : Text) :
    opened? opener (before ++ (lead ++ rest)) =
      (opened? opener (before ++ lead)).map fun found => (found.1, found.2 ++ rest) := by
  rw [← List.append_assoc]
  exact opened?_append hopener (by simp [h.mem_colon]) rest

/-! ## Comments that stay found -/

/-- A comment is found behind a part of the line. It stays found there when its rest is exchanged
for another that is not empty. -/
structure Stands (scan : Text → List Found) (form : CommentForm) (start : Nat) (line : Text)
    (f : Found) (before lead rest : Text) : Prop where
  split : line = before ++ (lead ++ rest)
  offset : f.offset = start + before.length
  isLead : ∃ gap, IsLead form.opener gap f.keyword lead
  text : f.text = Text.trim (form.inside rest)
  exchange : ∀ rest', rest' ≠ [] →
    { f with text := Text.trim (form.inside rest') } ∈ scan (before ++ (lead ++ rest'))

/-- A scan that goes on behind the first character finds what is found there. -/
theorem Stands.cons {scan scan' : Text → List Found} {form : CommentForm} {start : Nat}
    {before lead : Text} (c : Rune) (h : Stands scan form (start + 1) line f before lead rest)
    (hscan : ∀ rest', rest' ≠ [] → ∀ g ∈ scan (before ++ (lead ++ rest')),
      g ∈ scan' (c :: (before ++ (lead ++ rest')))) :
    Stands scan' form start (c :: line) f (c :: before) lead rest where
  split := by rw [h.split, List.cons_append]
  offset := by
    rw [h.offset, List.length_cons]
    omega
  isLead := h.isLead
  text := h.text
  exchange := fun rest' hrest' => hscan rest' hrest' _ (h.exchange rest' hrest')

theorem stands_of_mem_toLineEnd (hopener : Rune.ofChar ':' ∉ opener)
    (hf : f ∈ toLineEnd opener offset line) :
    ∃ before lead rest, Stands (toLineEnd opener offset) (.toLineEnd opener) offset line f before
      lead rest ∧ rest ≠ [] := by
  induction line generalizing offset with
  | nil => cases hf
  | cons c r ih =>
      rw [toLineEnd] at hf
      split at hf
      · rename_i word a rest hopened
        obtain rfl := List.mem_singleton.mp hf
        obtain ⟨gap, lead, hlead, hsplit⟩ := opened?_eq_some_iff.mp hopened
        refine ⟨[], lead, a :: rest, ⟨hsplit, rfl, ⟨gap, hlead⟩, rfl, ?_⟩, List.cons_ne_nil _ _⟩
        intro rest' hrest'
        obtain ⟨d, lead', rfl⟩ := List.exists_cons_of_ne_nil hlead.ne_nil
        obtain ⟨b, rest'', rfl⟩ := List.exists_cons_of_ne_nil hrest'
        have hopened' := hlead.opens (b :: rest'')
        rw [List.cons_append] at hopened'
        rw [List.nil_append, List.cons_append, toLineEnd, hopened']
        exact List.mem_singleton_self _
      · rename_i hnone
        obtain ⟨before, lead, rest, h, hrest⟩ := ih hf
        obtain ⟨gap, hlead⟩ := h.isLead
        refine ⟨c :: before, lead, rest, h.cons c fun rest' _ g hg => ?_, hrest⟩
        -- nothing is opened here: it would have been found before the exchange
        have hshut : opened? opener (c :: before ++ lead) = none := by
          rw [Option.eq_none_iff_forall_ne_some]
          intro found hfound
          obtain ⟨a, tail, htail⟩ :=
            List.exists_cons_of_ne_nil (List.append_ne_nil_of_right_ne_nil found.2 hrest)
          have hlong := hlead.opened?_append_lead hopener (c :: before) rest
          rw [hfound, Option.map_some, htail, List.cons_append, ← h.split] at hlong
          exact hnone found.1 a tail hlong
        have hshut' := hlead.opened?_append_lead hopener (c :: before) rest'
        rw [hshut, List.cons_append] at hshut'
        rw [toLineEnd, hshut']
        exact hg

/-- The characters that are skipped hold no comment. -/
theorem le_offset_of_mem_blocks (hf : f ∈ blocks opener closer offset skip line) :
    offset + skip ≤ f.offset := by
  induction line generalizing offset skip with
  | nil =>
      rw [blocks] at hf
      cases hf
  | cons c r ih =>
      cases skip with
      | succ skip =>
          have hle := @ih (offset + 1) skip hf
          omega
      | zero => exact (isOn_of_mem_blocks hf).offset_le

/-- The rest behind a comment, as far as it is behind the exchanged text too. -/
private theorem exists_cut_of_length_lt {rest₀ behind inner : Text}
    (h : ((Text.cut? closer (inner ++ rest₀)).getD (inner ++ rest₀, [])).2 = behind)
    (hlt : rest₀.length < behind.length) (rest' : Text) :
    ∃ b text, behind = b ++ rest₀ ∧ Text.cut? closer (inner ++ rest₀) = some (text, b ++ rest₀) ∧
      Text.cut? closer (inner ++ rest') = some (text, b ++ rest') := by
  cases hcut : Text.cut? closer (inner ++ rest₀) with
  | none =>
      rw [hcut] at h
      subst h
      simp at hlt
  | some found =>
      obtain ⟨text, after⟩ := found
      rw [hcut] at h
      obtain rfl : after = behind := h
      have hsplit := Text.of_cut?_eq_some hcut
      have hsuffix : rest₀ <:+ after := by
        have hwhole : after <:+ inner ++ rest₀ := by
          rw [hsplit, ← List.append_assoc]
          exact List.suffix_append _ _
        exact List.suffix_of_suffix_length_le (List.suffix_append _ _) hwhole (Nat.le_of_lt hlt)
      obtain ⟨b, rfl⟩ := hsuffix
      have hinner : inner = text ++ (closer ++ b) := by
        have : inner ++ rest₀ = text ++ (closer ++ b) ++ rest₀ := by
          rw [hsplit]
          simp
        exact List.append_cancel_right this
      refine ⟨b, text, rfl, rfl, ?_⟩
      rw [hsplit] at hcut
      rw [hinner, List.append_assoc, List.append_assoc]
      exact Text.cut?_exchange (b ++ rest') hcut

/-- A comment that is opened at the beginning of the line stands. -/
private theorem stands_blocks_nil {gap lead : Text} (hlead : IsLead opener gap word lead)
    (hline : line = lead ++ rest) :
    Stands (blocks opener closer offset 0) (.block opener closer) offset line
      ⟨offset, word, Text.trim ((Text.cut? closer rest).getD (rest, [])).1⟩ [] lead rest := by
  refine ⟨hline, rfl, ⟨gap, hlead⟩, rfl, ?_⟩
  intro rest' _
  obtain ⟨d, lead', rfl⟩ := List.exists_cons_of_ne_nil hlead.ne_nil
  have hopened := hlead.opens rest'
  rw [List.cons_append] at hopened
  rw [List.nil_append, List.cons_append, blocks, hopened]
  exact List.mem_cons_self

/-- A comment behind the first character stands where none is opened at this. -/
private theorem stands_blocks_of_shut {c : Rune} {r before lead : Text}
    (hopener : Rune.ofChar ':' ∉ opener) (hshut : opened? opener (c :: r) = none)
    (h : Stands (blocks opener closer (offset + 1) 0) (.block opener closer) (offset + 1) r f before
      lead rest) :
    Stands (blocks opener closer offset 0) (.block opener closer) offset (c :: r) f (c :: before)
      lead rest := by
  obtain ⟨gap, hlead⟩ := h.isLead
  refine h.cons c fun rest' _ g hg => ?_
  have hfront := hlead.opened?_append_lead hopener (c :: before)
  have hnone : opened? opener (c :: before ++ lead) = none := by
    have hlong := hfront rest
    rw [List.cons_append, ← h.split, hshut] at hlong
    exact Option.map_eq_none_iff.mp hlong.symm
  have hshut' := hfront rest'
  rw [hnone, List.cons_append] at hshut'
  rw [blocks, hshut']
  exact hg

/-- A comment behind the end of one that is opened at the first character stands. -/
private theorem stands_blocks_of_opened {c : Rune} {r rest₀ before lead : Text}
    (hopener : Rune.ofChar ':' ∉ opener) (hopened : opened? opener (c :: r) = some (word, rest₀))
    (hf : f ∈ blocks opener closer (offset + 1)
      (r.length - ((Text.cut? closer rest₀).getD (rest₀, [])).2.length) r)
    (h : Stands (blocks opener closer (offset + 1)
        (r.length - ((Text.cut? closer rest₀).getD (rest₀, [])).2.length)) (.block opener closer)
      (offset + 1) r f before lead rest) :
    Stands (blocks opener closer offset 0) (.block opener closer) offset (c :: r) f (c :: before)
      lead rest := by
  have hoffset := le_offset_of_mem_blocks hf
  obtain ⟨gap, hlead⟩ := h.isLead
  refine h.cons c fun rest' _ g hg => ?_
  have hfront := hlead.opened?_append_lead hopener (c :: before)
  obtain ⟨inner, hshort, rfl⟩ : ∃ inner,
      opened? opener (c :: before ++ lead) = some (word, inner) ∧ rest₀ = inner ++ rest := by
    have hlong := hfront rest
    rw [List.cons_append, ← h.split, hopened] at hlong
    obtain ⟨found, hfound, hpair⟩ := Option.map_eq_some_iff.mp hlong.symm
    cases hpair
    exact ⟨found.2, hfound, rfl⟩
  generalize hbehind :
    ((Text.cut? closer (inner ++ rest)).getD (inner ++ rest, [])).2 = behind at hoffset hg
  -- the comment is behind the end of the first one, so the exchanged rest is too
  have hlt : rest.length < behind.length := by
    have hlead' := List.length_pos_iff.mpr hlead.ne_nil
    rw [h.offset, h.split, List.length_append, List.length_append] at hoffset
    omega
  obtain ⟨b, text, rfl, -, hcut⟩ := exists_cut_of_length_lt hbehind hlt rest'
  have hopened' := hfront rest'
  rw [hshort, List.cons_append] at hopened'
  rw [blocks, hopened']
  simp only [Option.map_some, hcut, Option.getD_some]
  apply List.mem_cons_of_mem
  have hskip : (before ++ (lead ++ rest')).length - (b ++ rest').length =
      r.length - (b ++ rest).length := by
    rw [h.split]
    simp only [List.length_append]
    omega
  rwa [hskip]

theorem stands_of_mem_blocks (hopener : Rune.ofChar ':' ∉ opener)
    (hf : f ∈ blocks opener closer offset skip line) :
    ∃ before lead rest, Stands (blocks opener closer offset skip) (.block opener closer) offset line
      f before lead rest := by
  induction line generalizing offset skip with
  | nil =>
      rw [blocks] at hf
      cases hf
  | cons c r ih =>
      cases skip with
      | succ skip =>
          obtain ⟨before, lead, rest, h⟩ := @ih (offset + 1) skip hf
          exact ⟨c :: before, lead, rest, h.cons c fun rest' _ g hg => hg⟩
      | zero =>
          rw [blocks] at hf
          cases hopened : opened? opener (c :: r) with
          | none =>
              rw [hopened] at hf
              obtain ⟨before, lead, rest, h⟩ := ih hf
              exact ⟨c :: before, lead, rest, stands_blocks_of_shut hopener hopened h⟩
          | some found =>
              obtain ⟨word, rest₀⟩ := found
              rw [hopened] at hf
              simp only [List.mem_cons] at hf
              rcases hf with rfl | hf
              · obtain ⟨gap, lead, hlead, hsplit⟩ := opened?_eq_some_iff.mp hopened
                exact ⟨[], lead, rest₀, stands_blocks_nil hlead hsplit⟩
              · obtain ⟨before, lead, rest, h⟩ := ih hf
                exact ⟨c :: before, lead, rest, stands_blocks_of_opened hopener hopened hf h⟩

theorem stands_of_mem_ofForm {form : CommentForm} (hopener : Rune.ofChar ':' ∉ form.opener)
    (hf : f ∈ ofForm line form) :
    ∃ before lead rest, Stands (fun t => ofForm t form) form 0 line f before lead rest := by
  cases form with
  | toLineEnd opener =>
      obtain ⟨before, lead, rest, h, -⟩ := stands_of_mem_toLineEnd hopener hf
      exact ⟨before, lead, rest, h⟩
  | block opener closer => exact stands_of_mem_blocks hopener hf

end Scan

end TodoLedger
