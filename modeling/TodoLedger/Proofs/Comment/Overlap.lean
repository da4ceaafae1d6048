import TodoLedger.Proofs.Comment.Found
import TodoLedger.Proofs.Comment.Syntax
/-!
# One keyword, one task

A marker goes behind the keyword that is found from the column of a task. The tasks of a line stand at
different keywords as far as no opener of their language ends in another one. This is so in all
languages but one, whose opener of a block ends in its opener of a comment up to the end of the line.
-/

namespace TodoLedger

/-- How many characters stand before the keyword that a marker for a column goes behind. -/
def markedPlace? (column : Int) (body : Text) : Option Nat :=
  ((findKeywordFrom? (column - 1).toNat body).or (findKeyword? true body)).map fun found =>
    found.1.length

/-! ## Openers -/

namespace CommentSyntax

theorem isBlank_of_mem_opener {path : Path} {form : CommentForm} (h : form ∈ (ofPath path).forms) :
    ∀ c ∈ form.opener, c.isBlank = false := by
  have hall : ∀ f ∈ families, ∀ form ∈ f.1.forms, ∀ c ∈ form.opener, c.isBlank = false := by
    decide +kernel
  obtain ⟨f, hf, hfamily⟩ := exists_family path
  exact hall f hf form (hfamily ▸ h)

/-- No opener of a language ends in another one, with one exception. -/
theorem openers_apart (path : Path) : (ofPath path).forms.Pairwise fun a b =>
    ¬b.opener <:+ a.opener ∧ (ofPath path ≠ powershell → ¬a.opener <:+ b.opener) ∧
      (ofPath path = powershell → a.opener = ("#" : Text) ∧ b.opener = ("<#" : Text)) := by
  have hall : ∀ f ∈ families, f.1.forms.Pairwise fun a b =>
      ¬b.opener <:+ a.opener ∧ (f.1 ≠ powershell → ¬a.opener <:+ b.opener) ∧
        (f.1 = powershell → a.opener = ("#" : Text) ∧ b.opener = ("<#" : Text)) := by
    decide +kernel
  obtain ⟨f, hf, hfamily⟩ := exists_family path
  exact hfamily ▸ hall f hf

end CommentSyntax

/-! ## The keywords of what is found -/

namespace Scan

variable {opener closer line mark before gap word rest : Text} {n : Nat} {found : List Found}
  {form : CommentForm} {f : Found}

theorem Blocks.opens (h : Blocks opener closer line n found) :
    ∀ f ∈ found, n ≤ f.offset ∧ ∃ rest, OpensAt opener line f.offset f.keyword rest := by
  induction h with
  | none hall => simp
  | @next n p word rest inside behind found hp hopens hfirst hends hrest ih =>
      have hlt := hopens.length_lt
      have hle := hends.length_le
      intro f hf
      rcases List.mem_cons.mp hf with rfl | hf
      · exact ⟨hp, rest, hopens⟩
      · obtain ⟨hlater, hopened⟩ := ih f hf
        exact ⟨by omega, hopened⟩

theorem Blocks.ordered (h : Blocks opener closer line n found) :
    found.Pairwise fun f f' => f.offset < f'.offset := by
  induction h with
  | none hall => exact .nil
  | @next n p word rest inside behind found hp hopens hfirst hends hrest ih =>
      have hlt := hopens.length_lt
      have hle := hends.length_le
      refine .cons (fun f hf => ?_) ih
      have hlater := (hrest.opens f hf).1
      simp only
      omega

theorem Finds.opens (h : Finds line form found) :
    ∀ f ∈ found, ∃ rest, OpensAt form.opener line f.offset f.keyword rest := by
  cases form with
  | toLineEnd opener =>
      cases h with
      | none hall => simp
      | one hopens hrest hfirst =>
          intro f hf
          obtain rfl := List.mem_singleton.mp hf
          exact ⟨_, hopens⟩
  | block opener closer => exact fun f hf => (Blocks.opens h f hf).2

theorem Finds.ordered (h : Finds line form found) :
    found.Pairwise fun f f' => f.offset < f'.offset := by
  cases form with
  | toLineEnd opener =>
      cases h with
      | none hall => exact .nil
      | one hopens hrest hfirst => exact List.pairwise_singleton _ _
  | block opener closer => exact Blocks.ordered h

/-- Without the blanks behind it a text ends in the opener that it ended in. -/
theorem trimEnd_opener (hne : opener ≠ []) (hopener : ∀ c ∈ opener, c.isBlank = false)
    (hgap : Text.isBlank gap = true) :
    Text.trimEnd (before ++ (opener ++ gap)) = before ++ opener := by
  have hlast := hopener _ (List.getLast_mem hne)
  have hsplit : before ++ (opener ++ gap) =
      (before ++ opener.dropLast) ++ opener.getLast hne :: gap := by
    conv_lhs => rw [← List.dropLast_concat_getLast hne]
    simp
  rw [hsplit, Text.trimEnd_append_cons hlast, Text.trimEnd_eq_nil_iff.mpr hgap, List.append_assoc,
    List.dropLast_concat_getLast hne]

/-- The keyword behind the opener and its gap is the one that is found from the column of the opener,
also where one more character stands in front of the line. -/
theorem markedPlace?_eq (hform : form.IsKnown) (hmark : mark.length ≤ 1)
    (hgap : Text.isBlank gap = true) (hword : IsKeyword word) :
    markedPlace? (before.length + 1 : Nat)
        (mark ++ (before ++ (form.opener ++ (gap ++ (word ++ Rune.ofChar ':' :: rest))))) =
      some (mark.length + (before ++ (form.opener ++ gap)).length) := by
  have hlead : IsLead form.opener gap word (form.opener ++ (gap ++ (word ++ [Rune.ofChar ':']))) :=
    ⟨rfl, hgap, hword⟩
  have hfirst := hform.isFirstKeyword hlead hmark before rest
  simp only [List.append_assoc, List.singleton_append] at hfirst
  have hcolumn : (((before.length + 1 : Nat) : Int) - 1).toNat = before.length := by omega
  rw [markedPlace?, hcolumn, findKeywordFrom?_of_isFirstKeyword hfirst]
  simp

/-- The blanks in front of a keyword are the indent of a text. -/
theorem indent_gap (hgap : Text.isBlank gap = true) (hword : IsKeyword word) (t : Text) :
    Text.indent (gap ++ (word ++ t)) = gap := by
  obtain ⟨c, r, rfl⟩ := List.exists_cons_of_ne_nil hword.ne_nil
  have hc : c.isBlank = false := hword.isBlank List.mem_cons_self
  exact Span.takeWhile_append_cons (Text.isBlank_iff.mp hgap) hc

/-- The keywords of two comments of a line are found at one place if and only if their openers end at
one place. So one of the openers ends in the other. -/
theorem exists_markedPlaces {path : Path} {a b : CommentForm} {p p' : Nat} {word' rest' : Text}
    (ha : a ∈ (CommentSyntax.ofPath path).forms) (hb : b ∈ (CommentSyntax.ofPath path).forms)
    (hmark : mark.length ≤ 1) (h : OpensAt a.opener line p word rest)
    (h' : OpensAt b.opener line p' word' rest') :
    ∃ q q', markedPlace? (p + 1 : Nat) (mark ++ line) = some q ∧
      markedPlace? (p' + 1 : Nat) (mark ++ line) = some q' ∧
      (q = q' ↔ p + a.opener.length = p' + b.opener.length) ∧
      (q = q' → a.opener <:+ b.opener ∨ b.opener <:+ a.opener) := by
  have hknown := CommentSyntax.isKnown_of_mem_ofPath ha
  have hknown' := CommentSyntax.isKnown_of_mem_ofPath hb
  obtain ⟨before, gap, hline, rfl, hgap, hword⟩ := h
  obtain ⟨before', gap', hline', rfl, hgap', hword'⟩ := h'
  have hends : mark.length + (before ++ (a.opener ++ gap)).length =
      mark.length + (before' ++ (b.opener ++ gap')).length →
        before ++ a.opener = before' ++ b.opener := by
    intro hplace
    have hsplit : before ++ (a.opener ++ gap) ++ (word ++ Rune.ofChar ':' :: rest) =
        before' ++ (b.opener ++ gap') ++ (word' ++ Rune.ofChar ':' :: rest') := by
      simpa using hline.symm.trans hline'
    have hfront := (List.append_inj hsplit (by omega)).1
    have hblank := CommentSyntax.isBlank_of_mem_opener ha
    have hblank' := CommentSyntax.isBlank_of_mem_opener hb
    rw [← trimEnd_opener hknown.opener_ne_nil hblank hgap, hfront,
      trimEnd_opener hknown'.opener_ne_nil hblank' hgap']
  refine ⟨_, _, hline ▸ markedPlace?_eq hknown hmark hgap hword,
    hline' ▸ markedPlace?_eq hknown' hmark hgap' hword', ⟨fun hplace => ?_, fun hlength => ?_⟩,
    fun hplace => ?_⟩
  · have hlength := congrArg List.length (hends hplace)
    rwa [List.length_append, List.length_append] at hlength
  · -- behind the openers there are the same blanks
    have hsplit : before ++ a.opener ++ (gap ++ (word ++ Rune.ofChar ':' :: rest)) =
        before' ++ b.opener ++ (gap' ++ (word' ++ Rune.ofChar ':' :: rest')) := by
      simpa using hline.symm.trans hline'
    rw [← List.length_append, ← List.length_append] at hlength
    have hbehind := (List.append_inj hsplit hlength).2
    have hgaps : gap = gap' := by
      rw [← indent_gap hgap hword, hbehind, indent_gap hgap' hword']
    rw [← List.append_assoc, ← List.append_assoc, List.length_append, hlength, hgaps,
      ← List.length_append]
  · exact List.suffix_or_suffix_of_suffix (List.suffix_append before _)
      ((hends hplace).symm ▸ List.suffix_append before' _)

theorem pairwise_ofLine (path : Path) (line : Text) (hmark : mark.length ≤ 1) :
    (ofLine (CommentSyntax.ofPath path) line).Pairwise fun f f' =>
      ∃ q q', markedPlace? (f.offset + 1 : Nat) (mark ++ line) = some q ∧
        markedPlace? (f'.offset + 1 : Nat) (mark ++ line) = some q' ∧
        (q = q' ↔ CommentSyntax.ofPath path = .powershell ∧ f.offset = f'.offset + 1) := by
  have hfinds := finds_ofForm line
  rw [ofLine, List.pairwise_flatMap]
  constructor
  · -- the openers of one form have one length and stand at two places
    intro form hform
    refine (hfinds form).ordered.imp_of_mem fun {f f'} hf hf' hlt => ?_
    obtain ⟨rest, hopens⟩ := (hfinds form).opens f hf
    obtain ⟨rest', hopens'⟩ := (hfinds form).opens f' hf'
    obtain ⟨q, q', hq, hq', hends, -⟩ := exists_markedPlaces hform hform hmark hopens hopens'
    refine ⟨q, q', hq, hq', ?_⟩
    rw [hends]
    omega
  · refine (CommentSyntax.openers_apart path).imp_of_mem fun {a b} ha hb hapart f hf f' hf' => ?_
    obtain ⟨hback, hforth, hopeners⟩ := hapart
    obtain ⟨rest, hopens⟩ := (hfinds a).opens f hf
    obtain ⟨rest', hopens'⟩ := (hfinds b).opens f' hf'
    obtain ⟨q, q', hq, hq', hends, hsuffix⟩ := exists_markedPlaces ha hb hmark hopens hopens'
    refine ⟨q, q', hq, hq', ?_⟩
    by_cases hpowershell : CommentSyntax.ofPath path = .powershell
    · obtain ⟨hopener, hopener'⟩ := hopeners hpowershell
      have hlengths : ("#" : Text).length = 1 ∧ ("<#" : Text).length = 2 := ⟨rfl, rfl⟩
      rw [hends, hopener, hopener', hlengths.1, hlengths.2]
      simp only [hpowershell, true_and]
      omega
    · have hne : q ≠ q' := fun heq => (hsuffix heq).elim (hforth hpowershell) hback
      simp [hne, hpowershell]

end Scan

/-! ## The keywords of the tasks -/

theorem pairwise_tasksOfLine (path : Path) (withMarked : Bool) (number : Nat) (line : Text)
    {mark : Text} (hmark : mark.length ≤ 1) :
    (tasksOfLine path withMarked number line).Pairwise fun r r' =>
      ∃ q q', markedPlace? r.column (mark ++ line) = some q ∧
        markedPlace? r'.column (mark ++ line) = some q' ∧
        (q = q' ↔ CommentSyntax.ofPath path = .powershell ∧ r.column = r'.column + 1) := by
  rw [tasksOfLine_eq]
  split_ifs
  · rw [List.pairwise_filterMap]
    refine (Scan.pairwise_ofLine path line hmark).imp fun {f f'} hplaces r hr r' hr' => ?_
    obtain ⟨q, q', hq, hq', hsame⟩ := hplaces
    split_ifs at hr hr'
    obtain rfl := Option.some.inj hr
    obtain rfl := Option.some.inj hr'
    refine ⟨q, q', hq, hq', hsame.trans (and_congr_right fun _ => ?_)⟩
    simp only [Scan.Found.toTask]
    omega
  · exact .nil

/-- Two tasks of one line are marked at two keywords. The tasks of the one language are the exception:
there a block that opens one character before a comment has the keyword of that comment. -/
theorem tasksOf_pairwise_keyword (path : Path) (withMarked : Bool) (t : Text) :
    (tasksOf path withMarked t).Pairwise fun r r' => r.line = r'.line →
      ∃ l q q', (Text.lines t)[(r.line - 1).toNat]? = some l ∧
        markedPlace? r.column l.body = some q ∧ markedPlace? r'.column l.body = some q' ∧
        (q = q' ↔ CommentSyntax.ofPath path = .powershell ∧ r.column = r'.column + 1) := by
  rw [tasksOf_eq, tasksOfLines_eq, List.pairwise_flatMap]
  constructor
  · intro ⟨body, number⟩ hbody
    obtain ⟨k, rfl⟩ := Nat.exists_eq_add_of_le (List.le_snd_of_mem_zipIdx hbody)
    obtain ⟨l, mark, hl, hmarked, hmark⟩ :=
      exists_mark (List.mk_add_mem_zipIdx_iff_getElem?.mp hbody)
    have hlength : mark.length ≤ 1 := by
      obtain ⟨rfl, -⟩ | ⟨rfl, -⟩ := hmark
      · exact Nat.zero_le 1
      · exact Nat.le_refl 1
    refine (pairwise_tasksOfLine path withMarked _ body hlength).imp_of_mem
      fun {r r'} hr _ hplaces _ => ?_
    have hindex : (r.line - 1).toNat = k := by
      rw [(line_of_mem_tasksOfLine hr).2]
      omega
    obtain ⟨q, q', hq, hq', hsame⟩ := hplaces
    exact ⟨l, q, q', hindex ▸ hl, hmarked ▸ hq, hmarked ▸ hq', hsame⟩
  · -- the tasks of two lines have two numbers
    have hnumbers : ((withoutBom (Text.bodies t)).zipIdx 1).Pairwise fun l l' => l.2 < l'.2 := by
      rw [← List.pairwise_map (f := Prod.snd) (R := (· < ·)), List.zipIdx_map_snd]
      exact List.pairwise_lt_range'
    refine hnumbers.imp fun {l l'} hlt r hr r' hr' hline => ?_
    have hr := (line_of_mem_tasksOfLine hr).2
    have hr' := (line_of_mem_tasksOfLine hr').2
    omega

theorem tasksOf_pairwise_keyword_crowdedLine :
    (tasksOf ⟨.relative, ["a.c"]⟩ false crowdedLine).length = 3 ∧
      (tasksOf ⟨.relative, ["a.c"]⟩ false crowdedLine).Pairwise fun r r' => r.line = r'.line ∧
        markedPlace? r.column crowdedLine ≠ markedPlace? r'.column crowdedLine := by
  have hlines : Text.lines crowdedLine = [⟨crowdedLine, .open⟩] := by decide +kernel
  have hfirst : ∀ r ∈ tasksOf ⟨.relative, ["a.c"]⟩ false crowdedLine, r.line = 1 := by
    decide +kernel
  refine ⟨by decide +kernel, (tasksOf_pairwise_keyword ⟨.relative, ["a.c"]⟩ false
    crowdedLine).imp_of_mem fun {r r'} hr hr' hplaces => ?_⟩
  have hline : r.line = r'.line := (hfirst r hr).trans (hfirst r' hr').symm
  obtain ⟨l, q, q', hl, hq, hq', hsame⟩ := hplaces hline
  rw [hfirst r hr, hlines] at hl
  obtain rfl : ⟨crowdedLine, .open⟩ = l := Option.some.inj hl
  refine ⟨hline, fun heq => ?_⟩
  have hother : CommentSyntax.ofPath ⟨.relative, ["a.c"]⟩ ≠ .powershell := by decide +kernel
  exact hother (hsame.mp (Option.some.inj (hq.symm.trans (heq.trans hq')))).1

/-- A block whose opener ends in an opener of the same language. -/
def sharedOpener : Text := "<# TODO: b #>"

/-- One keyword has two tasks. -/
theorem two_tasks_of_one_keyword :
    tasksOf ⟨.relative, ["a.ps1"]⟩ false sharedOpener =
        [⟨⟨.relative, ["a.ps1"]⟩, 1, 2, sharedOpener, "TODO", "b #>", "PS1", none⟩,
          ⟨⟨.relative, ["a.ps1"]⟩, 1, 1, sharedOpener, "TODO", "b", "PS1", none⟩] ∧
      Text.bodies sharedOpener = [sharedOpener] ∧
      ¬(tasksOf ⟨.relative, ["a.ps1"]⟩ false sharedOpener).Pairwise fun r r' => r ≠ r' →
        r.line = r'.line → markedPlace? r.column sharedOpener ≠ markedPlace? r'.column sharedOpener := by
  decide +kernel

end TodoLedger
