import TodoLedger.Proofs.Comment.Syntax
import TodoLedger.Proofs.Text.Trim
/-!
# Lines inside comments

A line is read from left to right: outside of a comment the opening token opens one, inside the next
closing token closes it. Such comments do not nest. So a line that is put between the two tokens is a
comment as a whole if and only if the reading of it from inside a comment ends inside one, with nothing
but blanks left outside on the way.
-/

namespace TodoLedger.CommentSyntax

variable {comments : CommentSyntax} {inside : Bool} {c : Rune} {s t u : Text}

/-- The token at which a comment begins, or ends if one is open. -/
def turn (comments : CommentSyntax) (inside : Bool) : Text :=
  if inside then comments.closing else comments.opening

/-- What is left outside of comments by a reading behind the first `skip` characters, and whether a
comment is open at its end. -/
def outside (comments : CommentSyntax) : Nat → Bool → Text → Text × Bool
  | _, inside, [] => ([], inside)
  | skip + 1, inside, _ :: r => comments.outside skip inside r
  | 0, inside, c :: r =>
    if Text.startsWith (c :: r) (comments.turn inside) then
      comments.outside ((comments.turn inside).length - 1) (!inside) r
    else
      let (left, ends) := comments.outside 0 inside r
      (if inside then left else c :: left, ends)

/-- Nothing but blanks stands outside of comments, and none is open at the end. -/
def Covers (comments : CommentSyntax) (t : Text) : Prop :=
  Text.isBlank (comments.outside 0 false t).1 = true ∧ (comments.outside 0 false t).2 = false

/-- A comment that is open in front of the text is open behind it, or another one is, and nothing but
blanks stands outside. -/
def Continues (comments : CommentSyntax) (t : Text) : Prop :=
  Text.isBlank (comments.outside 0 true t).1 = true ∧ (comments.outside 0 true t).2 = true

instance (comments : CommentSyntax) (t : Text) : Decidable (comments.Covers t) :=
  inferInstanceAs (Decidable (_ ∧ _))

instance (comments : CommentSyntax) (t : Text) : Decidable (comments.Continues t) :=
  inferInstanceAs (Decidable (_ ∧ _))

/-! ## One token -/

theorem outside_nil (skip : Nat) : comments.outside skip inside [] = ([], inside) := by
  rw [outside]

theorem outside_skip (s t : Text) :
    comments.outside s.length inside (s ++ t) = comments.outside 0 inside t := by
  induction s with
  | nil => rfl
  | cons c s ih => rw [List.length_cons, List.cons_append, outside, ih]

/-- At its token the reading turns. -/
theorem outside_turn (hne : comments.turn inside ≠ []) (t : Text) :
    comments.outside 0 inside (comments.turn inside ++ t) = comments.outside 0 (!inside) t := by
  have hstarts : Text.startsWith (comments.turn inside ++ t) (comments.turn inside) = true :=
    Text.startsWith_iff.mpr (List.prefix_append _ _)
  obtain ⟨c, s, hturn⟩ := List.exists_cons_of_ne_nil hne
  rw [hturn, List.cons_append] at hstarts ⊢
  rw [outside, hturn, if_pos hstarts, List.length_cons, Nat.add_sub_cancel, outside_skip]

/-- Elsewhere it passes over a character, which is left outside if no comment is open. -/
theorem outside_cons (h : ¬comments.turn inside <+: c :: t) :
    comments.outside 0 inside (c :: t) =
      (if inside then (comments.outside 0 inside t).1 else c :: (comments.outside 0 inside t).1,
        (comments.outside 0 inside t).2) := by
  rw [outside, if_neg (by rwa [Text.startsWith_iff])]

/-- A text without its closing token stays in a comment as a whole. -/
theorem outside_of_lacking (h : ¬comments.closing <:+: t) :
    comments.outside 0 true t = ([], true) := by
  induction t with
  | nil => exact outside_nil 0
  | cons c t ih =>
      rw [List.infix_cons_iff, not_or] at h
      have hturn : ¬comments.turn true <+: c :: t := h.1
      rw [outside_cons hturn, ih h.2]
      rfl

theorem continues_of_lacking (h : ¬comments.closing <:+: t) : comments.Continues t := by
  rw [Continues, outside_of_lacking h]
  exact ⟨rfl, rfl⟩

/-! ## Tokens and blanks -/

/-- Comments of the syntax are closed by a token. Neither token holds a blank, and one cannot stand
where the other does. -/
structure IsBlock (comments : CommentSyntax) : Prop where
  turn_ne_nil : ∀ inside, comments.turn inside ≠ []
  visible : ∀ inside, ∀ c ∈ comments.turn inside, c.isBlank = false
  apart : comments.closing.head? ≠ comments.opening.head?

theorem isBlock_ofPath {path : Path} (h : (ofPath path).closing ≠ []) : (ofPath path).IsBlock := by
  have hall : ∀ f ∈ families, f.1.closing ≠ [] → f.1.opening ≠ [] ∧
      (∀ inside, ∀ c ∈ f.1.turn inside, c.isBlank = false) ∧
      f.1.closing.head? ≠ f.1.opening.head? := by
    decide +kernel
  obtain ⟨f, hf, hfamily⟩ := exists_family path
  rw [← hfamily] at h ⊢
  obtain ⟨hopening, hvisible, hapart⟩ := hall f hf h
  refine ⟨fun inside => ?_, hvisible, hapart⟩
  cases inside with
  | true => exact h
  | false => exact hopening

namespace IsBlock

variable (h : comments.IsBlock) (hc : c.isBlank = true)

include h hc

/-- A token that begins in front of a blank ends in front of it. -/
theorem turn_prefix_iff (inside : Bool) (s t : Text) :
    comments.turn inside <+: s ++ c :: t ↔ comments.turn inside <+: s := by
  refine ⟨fun hprefix => ?_, fun hprefix => hprefix.trans (List.prefix_append _ _)⟩
  refine List.prefix_of_prefix_length_le hprefix (List.prefix_append s _) ?_
  by_contra hlong
  have hfits : s ++ [c] <+: comments.turn inside :=
    List.prefix_of_prefix_length_le ⟨t, by simp⟩ hprefix (by simp; omega)
  have hvisible := h.visible inside c (hfits.subset (by simp))
  rw [hc] at hvisible
  cases hvisible

/-- What stands behind a blank is read for itself. -/
theorem outside_append (skip : Nat) (hskip : skip ≤ s.length) (t : Text) :
    comments.outside skip inside (s ++ c :: t) =
      ((comments.outside skip inside s).1 ++
          (comments.outside 0 (comments.outside skip inside s).2 (c :: t)).1,
        (comments.outside 0 (comments.outside skip inside s).2 (c :: t)).2) := by
  induction s generalizing skip inside with
  | nil =>
      obtain rfl : skip = 0 := Nat.le_zero.mp hskip
      rw [outside_nil]
      rfl
  | cons d s ih =>
      cases skip with
      | succ skip => exact ih skip (Nat.le_of_succ_le_succ hskip)
      | zero =>
          by_cases hturn : comments.turn inside <+: d :: s
          · have hlong := hturn.length_le
            have hstarts := (h.turn_prefix_iff hc inside (d :: s) t).mpr hturn
            rw [List.length_cons] at hlong
            rw [List.cons_append] at hstarts ⊢
            rw [outside, outside, if_pos (Text.startsWith_iff.mpr hstarts),
              if_pos (Text.startsWith_iff.mpr hturn)]
            exact ih _ (by omega)
          · have hnot := fun hstarts => hturn ((h.turn_prefix_iff hc inside (d :: s) t).mp hstarts)
            rw [List.cons_append] at hnot ⊢
            rw [outside_cons hnot, outside_cons hturn, ih 0 (Nat.zero_le _)]
            cases inside <;> rfl

theorem outside_blank (inside : Bool) (t : Text) :
    comments.outside 0 inside (c :: t) =
      (if inside then (comments.outside 0 inside t).1 else c :: (comments.outside 0 inside t).1,
        (comments.outside 0 inside t).2) := by
  refine outside_cons fun hprefix => ?_
  have hnil := (h.turn_prefix_iff hc inside [] t).mp hprefix
  exact h.turn_ne_nil inside (List.prefix_nil.mp hnil)

omit hc in
theorem outside_indent (hs : Text.isBlank s = true) (t : Text) :
    comments.outside 0 false (s ++ t) =
      (s ++ (comments.outside 0 false t).1, (comments.outside 0 false t).2) := by
  induction s with
  | nil => rfl
  | cons c s ih =>
      obtain ⟨hc, hs⟩ := List.forall_mem_cons.mp (Text.isBlank_iff.mp hs)
      rw [List.cons_append, h.outside_blank hc, ih (Text.isBlank_iff.mpr hs)]
      rfl

end IsBlock

/-! ## Texts that are put between the tokens -/

namespace IsBlock

variable (h : comments.IsBlock)

include h

theorem wrap_append (t r : Text) : comments.wrap t ++ r =
    comments.turn false ++ Rune.ofChar ' ' :: (t ++ Rune.ofChar ' ' :: (comments.turn true ++ r)) := by
  have hclosing : comments.closing ≠ [] := h.turn_ne_nil true
  have hblank : (" " : Text) = [Rune.ofChar ' '] := rfl
  simp [wrap, turn, hclosing, hblank]

/-- From inside a comment the text in it is read as it would be alone. -/
private theorem outside_wrap (t r : Text) : comments.outside 0 false (comments.wrap t ++ r) =
    ((comments.outside 0 true t).1 ++ (comments.outside 0 (comments.outside 0 true t).2
        (Rune.ofChar ' ' :: (comments.turn true ++ r))).1,
      (comments.outside 0 (comments.outside 0 true t).2
        (Rune.ofChar ' ' :: (comments.turn true ++ r))).2) := by
  have hspace : (Rune.ofChar ' ').isBlank = true := by decide
  rw [h.wrap_append, outside_turn (h.turn_ne_nil false), Bool.not_false, h.outside_blank hspace,
    if_pos rfl, h.outside_append hspace 0 (Nat.zero_le _)]

/-- Behind a text that continues a comment the comment is closed. -/
theorem outside_wrap_of_inside (ht : (comments.outside 0 true t).2 = true) (r : Text) :
    comments.outside 0 false (comments.wrap t ++ r) =
      ((comments.outside 0 true t).1 ++ (comments.outside 0 false r).1,
        (comments.outside 0 false r).2) := by
  have hspace : (Rune.ofChar ' ').isBlank = true := by decide
  rw [h.outside_wrap, ht, h.outside_blank hspace, if_pos rfl, outside_turn (h.turn_ne_nil true),
    Bool.not_true]

/-- Behind a text that ends the comment the closing token stands outside. -/
theorem not_isBlank_wrap (ht : (comments.outside 0 true t).2 = false) (r : Text) :
    Text.isBlank (comments.outside 0 false (comments.wrap t ++ r)).1 = false := by
  have hspace : (Rune.ofChar ' ').isBlank = true := by decide
  obtain ⟨d, s, hturn⟩ := List.exists_cons_of_ne_nil (h.turn_ne_nil true)
  have hvisible : d.isBlank = false := h.visible true d (by simp [hturn])
  have hnot : ¬comments.turn false <+: d :: (s ++ r) := by
    intro hprefix
    obtain ⟨e, u, hopening⟩ := List.exists_cons_of_ne_nil (h.turn_ne_nil false)
    rw [hopening, List.cons_prefix_cons] at hprefix
    have hheads : (comments.turn true).head? = (comments.turn false).head? := by
      rw [hturn, hopening, hprefix.1]
      rfl
    exact h.apart hheads
  rw [h.outside_wrap, ht, h.outside_blank hspace, hturn, List.cons_append, outside_cons hnot]
  simp [Text.isBlank, hvisible]

/-- A line and a note that are put between the tokens are a comment if and only if the line continues
one. -/
theorem covers_commentedBody_iff {note body : Text} (hnote : ¬comments.closing <:+: note) :
    comments.Covers (commentedBody comments note body) ↔ comments.Continues (Text.trim body) := by
  have hspace : (Rune.ofChar ' ').isBlank = true := by decide
  have hbody : commentedBody comments note body = Text.indent body ++
      (comments.wrap (Text.trim body) ++ Rune.ofChar ' ' :: (comments.wrap note ++ [])) := by
    have hblank : (" " : Text) = [Rune.ofChar ' '] := rfl
    simp [commentedBody, hblank]
  have hindent := Text.isBlank_indent body
  have hbehind := h.outside_wrap_of_inside (t := note) (by rw [outside_of_lacking hnote]) []
  rw [outside_of_lacking hnote, outside_nil] at hbehind
  rw [Covers, Continues, hbody, h.outside_indent hindent]
  cases ht : (comments.outside 0 true (Text.trim body)).2 with
  | true =>
      rw [h.outside_wrap_of_inside ht, h.outside_blank hspace, hbehind]
      have hlast : Text.isBlank [Rune.ofChar ' '] = true := by decide
      simp [Text.isBlank_append, hindent, hlast]
  | false =>
      simp [Text.isBlank_append, h.not_isBlank_wrap ht]

end IsBlock

end TodoLedger.CommentSyntax
