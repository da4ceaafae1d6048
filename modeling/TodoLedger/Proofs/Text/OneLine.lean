import TodoLedger.Proofs.Text.Lines
import TodoLedger.Proofs.Text.Trim
import TodoLedger.Proofs.Text.Utf8
import TodoLedger.Text.Break
/-!
# Texts on one line

The pieces of a text between its line breaks and its words are parts of it, so that they are stable
if it is. A text on one line is made of such parts: it holds no break, and its ends are not blank.
-/

namespace TodoLedger

open Utf8

theorem Rune.isBlank_of_isBreak {c : Rune} (h : c.isBreak = true) : c.isBlank = true := by
  rw [Rune.isBreak] at h
  simp only [Bool.or_eq_true, Bool.and_eq_true, decide_eq_true_eq] at h
  rw [Rune.isBlank]
  split_ifs with hascii
  · simp only [Bool.or_eq_true, Bool.and_eq_true, decide_eq_true_eq]
    omega
  · simp only [Rune.within, List.any_eq_true, Bool.and_eq_true, decide_eq_true_eq]
    rcases h with ((h | h) | h) | h
    · omega
    · exact ⟨(0x85, 0x85), by simp, by omega⟩
    · exact ⟨(0x2028, 0x2029), by simp, by omega⟩
    · exact ⟨(0x2028, 0x2029), by simp, by omega⟩

/-- A character of ASCII that is no control character. -/
def Rune.IsBasic (c : Rune) : Prop := 0x20 ≤ c.code ∧ c.code < 0x80

instance (c : Rune) : Decidable c.IsBasic := inferInstanceAs (Decidable (_ ∧ _))

theorem Rune.IsBasic.plain {c : Rune} (h : c.IsBasic) :
    isEncodable c = true ∧ isEscape c = false ∧ c.isBreak = false := by
  obtain ⟨hlow, hhigh⟩ := h
  have hescape : isEscape c = false := by
    simp only [isEscape, Bool.and_eq_false_iff, decide_eq_false_iff_not]
    omega
  refine ⟨?_, hescape, ?_⟩
  · simp only [isEncodable, hescape, Bool.false_or, isSurrogate, Bool.not_eq_true',
      Bool.and_eq_false_iff, decide_eq_false_iff_not]
    omega
  · simp only [Rune.isBreak, Bool.or_eq_false_iff, Bool.and_eq_false_iff, decide_eq_false_iff_not]
    omega

/-- A character of ASCII that is neither a control character nor a space. -/
def Rune.IsVisible (c : Rune) : Prop := 0x21 ≤ c.code ∧ c.code < 0x80

instance (c : Rune) : Decidable c.IsVisible := inferInstanceAs (Decidable (_ ∧ _))

theorem Rune.IsVisible.isBasic {c : Rune} (h : c.IsVisible) : c.IsBasic := by
  obtain ⟨hlow, hhigh⟩ := h
  constructor
  · omega
  · omega

theorem Rune.IsVisible.isBlank {c : Rune} (h : c.IsVisible) : c.isBlank = false := by
  obtain ⟨hlow, hhigh⟩ := h
  rw [Rune.isBlank, if_pos hhigh]
  simp only [Bool.or_eq_false_iff, Bool.and_eq_false_iff, decide_eq_false_iff_not]
  omega

namespace Text

variable {s t w p : Text} {c : Rune} {parts : List Text}

/-- No character of the text breaks a line of running text. -/
def BreakFree (t : Text) : Prop := ∀ c ∈ t, c.isBreak = false

theorem breakFree_cons : BreakFree (c :: t) ↔ c.isBreak = false ∧ BreakFree t := by
  simp [BreakFree]

theorem breakFree_append : BreakFree (s ++ t) ↔ BreakFree s ∧ BreakFree t := by
  simp only [BreakFree, List.mem_append, or_imp, forall_and]

theorem BreakFree.of_infix (h : s <:+: t) (ht : BreakFree t) : BreakFree s :=
  fun c hc => ht c (h.subset hc)

theorem breakFree_of_not_blank (h : ∀ c ∈ t, c.isBlank = false) : BreakFree t := by
  intro c hc
  by_contra hbreak
  rw [Bool.not_eq_false] at hbreak
  have hblank := Rune.isBlank_of_isBreak hbreak
  rw [h c hc] at hblank
  cases hblank

theorem BreakFree.endFree (h : BreakFree t) : EndFree t := by
  intro c hc
  rw [isLineEnd_eq_false]
  constructor
  · rintro rfl
    exact absurd (h _ hc) (by decide)
  · rintro rfl
    exact absurd (h _ hc) (by decide)

/-! ## Joined parts -/

theorem join_cons_cons (separator p q : Text) (ps : List Text) :
    join separator (p :: q :: ps) = p ++ (separator ++ join separator (q :: ps)) := by
  simp [join, List.intercalate]

theorem join_concat {separator : Text} (hne : parts ≠ []) (p : Text) :
    join separator (parts ++ [p]) = join separator parts ++ (separator ++ p) := by
  induction parts with
  | nil => exact absurd rfl hne
  | cons q ps ih =>
      cases ps with
      | nil => simp [join, List.intercalate]
      | cons r ps =>
          rw [List.cons_append, List.cons_append, join_cons_cons, ← List.cons_append,
            ih (List.cons_ne_nil r ps), join_cons_cons]
          simp only [List.append_assoc]

theorem mem_join {separator : Text} (h : c ∈ join separator parts) :
    c ∈ separator ∨ ∃ p ∈ parts, c ∈ p := by
  induction parts with
  | nil => cases h
  | cons p ps ih =>
      cases ps with
      | nil => exact Or.inr ⟨p, by simp, by simpa [join] using h⟩
      | cons q ps =>
          rw [join_cons_cons, List.mem_append, List.mem_append] at h
          rcases h with h | h | h
          · exact Or.inr ⟨p, by simp, h⟩
          · exact Or.inl h
          · rcases ih h with h | ⟨r, hr, hc⟩
            · exact Or.inl h
            · exact Or.inr ⟨r, List.mem_cons_of_mem _ hr, hc⟩

/-- Stable texts are joined by a character that is no escape. -/
theorem isStable_join {d : Rune} (hencodable : isEncodable d = true) (hescape : isEscape d = false)
    (h : ∀ p ∈ parts, IsStable p) : IsStable (join [d] parts) := by
  induction parts with
  | nil => trivial
  | cons p ps ih =>
      obtain ⟨hp, hps⟩ := List.forall_mem_cons.mp h
      cases ps with
      | nil => simpa [join] using hp
      | cons q ps =>
          rw [join_cons_cons, List.singleton_append]
          refine hp.append ((isStable_cons hencodable hescape).mpr (ih hps)) fun e he => ?_
          exact Option.some.inj he ▸ hescape

/-! ## Pieces and words -/

/-- The pieces of a text are parts of it without breaks, the first of which stands in front. -/
theorem pieces_spec (t : Text) : (∀ p, (pieces t).head? = some p → p <+: t) ∧
    ∀ p ∈ pieces t, p <:+: t ∧ BreakFree p := by
  have hnil : BreakFree [] := by simp [BreakFree]
  fun_induction pieces t with
  | case1 => simp
  | case2 c hc => simp [hnil, List.nil_prefix, List.nil_infix]
  | case3 c hc => simp [BreakFree, hc]
  | case4 c d r _ ih =>
      refine ⟨by simp, List.forall_mem_cons.mpr ⟨⟨List.nil_infix, hnil⟩, fun p hp => ?_⟩⟩
      obtain ⟨hpart, hfree⟩ := ih.2 p hp
      exact ⟨hpart.trans (List.suffix_append [c, d] r).isInfix, hfree⟩
  | case5 c d r _ _ ih =>
      refine ⟨by simp, List.forall_mem_cons.mpr ⟨⟨List.nil_infix, hnil⟩, fun p hp => ?_⟩⟩
      obtain ⟨hpart, hfree⟩ := ih.2 p hp
      exact ⟨List.infix_cons hpart, hfree⟩
  | case6 c d r _ hc hpieces ih =>
      refine ⟨fun p hp => ?_, fun p hp => ?_⟩
      · obtain rfl : [c] = p := by simpa using hp
        exact List.prefix_append [c] (d :: r)
      · obtain rfl := List.mem_singleton.mp hp
        exact ⟨(List.prefix_append [c] (d :: r)).isInfix, by simpa [BreakFree] using hc⟩
  | case7 c d r _ hc p ps hpieces ih =>
      obtain ⟨hhead, hall⟩ := ih
      rw [hpieces] at hhead hall
      have hfront : c :: p <+: c :: d :: r := List.cons_prefix_cons.mpr ⟨rfl, hhead p rfl⟩
      refine ⟨fun q hq => ?_, fun q hq => ?_⟩
      · obtain rfl : c :: p = q := by simpa using hq
        exact hfront
      · rcases List.mem_cons.mp hq with rfl | hq
        · exact ⟨hfront.isInfix, breakFree_cons.mpr ⟨by simpa using hc, (hall p (by simp)).2⟩⟩
        · obtain ⟨hpart, hfree⟩ := hall q (List.mem_cons_of_mem _ hq)
          exact ⟨List.infix_cons hpart, hfree⟩

theorem pieces_of_breakFree (hne : t ≠ []) (h : BreakFree t) : pieces t = [t] := by
  fun_induction pieces t with
  | case1 => exact absurd rfl hne
  | case2 c hc => simp [BreakFree, hc] at h
  | case3 c hc => rfl
  | case4 c d r hcrlf _ =>
      have hc : c.isBreak = false := (breakFree_cons.mp h).1
      simp only [Bool.and_eq_true, decide_eq_true_eq] at hcrlf
      rw [hcrlf.1] at hc
      exact absurd hc (by decide)
  | case5 c d r _ hbreak _ =>
      rw [(breakFree_cons.mp h).1] at hbreak
      cases hbreak
  | case6 c d r _ _ hpieces ih =>
      rw [ih (by simp) (breakFree_cons.mp h).2] at hpieces
      cases hpieces
  | case7 c d r _ _ p ps hpieces ih =>
      rw [ih (by simp) (breakFree_cons.mp h).2] at hpieces
      cases hpieces
      rfl

theorem breakFree_singleLine (t : Text) : BreakFree (singleLine t) := by
  refine BreakFree.of_infix (trim_isInfix _) fun c hc => ?_
  rcases mem_join hc with hspace | ⟨p, hp, hc⟩
  · obtain rfl : c = Rune.ofChar ' ' := List.mem_singleton.mp hspace
    decide
  · exact ((pieces_spec t).2 p hp).2 c hc

theorem singleLine_of_breakFree (h : BreakFree t) : singleLine t = trim t := by
  cases t with
  | nil => rfl
  | cons c r =>
      rw [singleLine, pieces_of_breakFree (by simp) h, join, List.intercalate_singleton]

theorem isTrimmed_singleLine (t : Text) : IsTrimmed (singleLine t) := isTrimmed_trim _

theorem isStable_singleLine (h : IsStable t) : IsStable (singleLine t) := by
  refine IsStable.of_infix ?_ (trim_isInfix _)
  exact isStable_join (by decide) (by decide) fun p hp => h.of_infix ((pieces_spec t).2 p hp).1

theorem pieces_cons (hc : c.isBreak = false) : ∃ p ps, pieces (c :: t) = (c :: p) :: ps := by
  cases t with
  | nil => exact ⟨[], [], by simp [pieces, hc]⟩
  | cons d r =>
      have hcr : c ≠ Rune.ofChar '\r' := by
        rintro rfl
        exact absurd hc (by decide)
      rw [pieces]
      simp only [hcr, hc, decide_false, Bool.false_and, Bool.false_eq_true, if_false]
      cases pieces (d :: r) with
      | nil => exact ⟨[], [], rfl⟩
      | cons p ps => exact ⟨p, ps, rfl⟩

/-- A text that starts with a character that is no blank starts with it on one line. -/
theorem head?_singleLine (hc : c.isBlank = false) : (singleLine (c :: t)).head? = some c := by
  have hbreak : c.isBreak = false := by
    by_contra hbreak
    rw [Bool.not_eq_false] at hbreak
    rw [Rune.isBlank_of_isBreak hbreak] at hc
    cases hc
  obtain ⟨p, ps, hpieces⟩ := @pieces_cons t c hbreak
  rw [singleLine, hpieces, join, List.intercalate_cons_cons_left, trim_cons hc]
  rfl

theorem singleLine_ne_nil (hc : c.isBlank = false) : singleLine (c :: t) ≠ [] := by
  intro hnil
  have hhead := @head?_singleLine t c hc
  rw [hnil] at hhead
  cases hhead

private theorem length_join_cons_le (p : Text) (ps : List Text) :
    (join " " (p :: ps)).length ≤ p.length + 1 + (join " " ps).length := by
  cases ps with
  | nil => simp [join]
  | cons q ps =>
      have hspace : (" " : Text).length = 1 := rfl
      rw [join_cons_cons, List.length_append, List.length_append, hspace]
      omega

private theorem length_join_pieces_le (t : Text) : (join " " (pieces t)).length ≤ t.length := by
  fun_induction pieces t with
  | case1 => simp [join]
  | case2 c hc => simp [join]
  | case3 c hc => simp [join]
  | case4 c d r _ ih =>
      have hcons := length_join_cons_le [] (pieces r)
      simp only [List.length_cons, List.length_nil] at hcons ⊢
      omega
  | case5 c d r _ _ ih =>
      have hcons := length_join_cons_le [] (pieces (d :: r))
      simp only [List.length_cons, List.length_nil] at hcons ih ⊢
      omega
  | case6 c d r _ _ _ ih => simp [join]
  | case7 c d r _ _ p ps hpieces ih =>
      rw [hpieces] at ih
      rw [join, List.intercalate_cons_cons_left, List.length_cons, List.length_cons]
      exact Nat.succ_le_succ ih

theorem length_singleLine_le (t : Text) : (singleLine t).length ≤ t.length :=
  (trim_isInfix _).length_le.trans (length_join_pieces_le t)

/-- A text stays as it is on one line if it has no break and no blank ends, and only then. -/
theorem singleLine_eq_self_iff : singleLine t = t ↔ BreakFree t ∧ IsTrimmed t := by
  constructor
  · intro h
    exact ⟨h ▸ breakFree_singleLine t, h ▸ isTrimmed_singleLine t⟩
  · rintro ⟨hfree, htrimmed⟩
    rw [singleLine_of_breakFree hfree, htrimmed.trim_eq]

private theorem join_pieces (hfree : EndFree t) (hlast : ∀ c, t.getLast? = some c → c.isBreak = false) :
    join " " (pieces t) = t.map fun c => if c.isBreak then Rune.ofChar ' ' else c := by
  fun_induction pieces t with
  | case1 => rfl
  | case2 c hc => exact absurd (hlast c rfl) (by simp [hc])
  | case3 c hc => simp [join, hc]
  | case4 c d r hcr ih =>
      simp only [Bool.and_eq_true, decide_eq_true_eq] at hcr
      have hend := hfree c List.mem_cons_self
      rw [hcr.1] at hend
      exact absurd hend (by decide)
  | case5 c d r _ hc ih =>
      have hrest := ih (endFree_cons.mp hfree).2 fun e he => hlast e (by rwa [List.getLast?_cons_cons])
      cases hpieces : pieces (d :: r) with
      | nil =>
          rw [hpieces] at hrest
          cases hrest
      | cons p ps =>
          rw [hpieces] at hrest
          rw [join_cons_cons, hrest]
          conv_rhs => rw [List.map_cons, if_pos hc]
          rfl
  | case6 c d r _ _ hpieces ih =>
      have hrest := ih (endFree_cons.mp hfree).2 fun e he => hlast e (by rwa [List.getLast?_cons_cons])
      rw [hpieces] at hrest
      cases hrest
  | case7 c d r _ hc p ps hpieces ih =>
      have hrest := ih (endFree_cons.mp hfree).2 fun e he => hlast e (by rwa [List.getLast?_cons_cons])
      rw [hpieces] at hrest
      rw [join, List.intercalate_cons_cons_left, List.map_cons, if_neg hc]
      exact congrArg (c :: ·) hrest

/-- In a part of a line each break becomes one space. -/
theorem singleLine_eq_map (hfree : EndFree t) (htrimmed : IsTrimmed t) :
    singleLine t = t.map fun c => if c.isBreak then Rune.ofChar ' ' else c := by
  have hbreak : ∀ c : Rune, c.isBlank = false → c.isBreak = false := by
    intro c hc
    by_contra h
    rw [Bool.not_eq_false] at h
    rw [Rune.isBlank_of_isBreak h] at hc
    cases hc
  rw [singleLine, join_pieces hfree fun c hc => hbreak c (htrimmed.last c hc)]
  refine IsTrimmed.trim_eq ⟨fun c hc => ?_, fun c hc => ?_⟩
  · rw [List.head?_map] at hc
    obtain ⟨d, hd, rfl⟩ := Option.map_eq_some_iff.mp hc
    have hblank := htrimmed.head d hd
    rwa [hbreak d hblank]
  · rw [List.getLast?_map] at hc
    obtain ⟨d, hd, rfl⟩ := Option.map_eq_some_iff.mp hc
    have hblank := htrimmed.last d hd
    rwa [hbreak d hblank]

private theorem count_join_cons (hc : c.isBlank = false) (p : Text) (ps : List Text) :
    (join " " (p :: ps)).count c = p.count c + (join " " ps).count c := by
  have hspace : (" " : Text).count c = 0 := by
    refine List.count_eq_zero.mpr fun hmem => ?_
    obtain rfl := List.mem_singleton.mp hmem
    exact absurd hc (by decide)
  cases ps with
  | nil => simp [join]
  | cons q ps => rw [join_cons_cons, List.count_append, List.count_append, hspace, Nat.zero_add]

private theorem count_join_pieces (hc : c.isBlank = false) (t : Text) :
    (join " " (pieces t)).count c = t.count c := by
  have hskip : ∀ d : Rune, d.isBreak = true → d ≠ c := by
    rintro d hd rfl
    rw [Rune.isBlank_of_isBreak hd] at hc
    cases hc
  fun_induction pieces t with
  | case1 => rfl
  | case2 d hd => simp [join, hskip d hd]
  | case3 d hd => simp [join]
  | case4 d e r hcrlf ih =>
      obtain ⟨rfl, rfl⟩ : d = Rune.ofChar '\r' ∧ e = Rune.ofChar '\n' := by simpa using hcrlf
      rw [count_join_cons hc, ih, List.count_cons_of_ne (hskip _ (by decide)),
        List.count_cons_of_ne (hskip _ (by decide)), List.count_nil, Nat.zero_add]
  | case5 d e r _ hd ih =>
      rw [count_join_cons hc, ih, List.count_cons_of_ne (hskip d hd), List.count_nil, Nat.zero_add]
  | case6 d e r _ _ hpieces ih =>
      rw [hpieces] at ih
      rw [List.count_cons, ← ih]
      simp [join, List.count_cons]
  | case7 d e r _ _ p ps hpieces ih =>
      rw [hpieces, count_join_cons hc] at ih
      rw [count_join_cons hc, List.count_cons, List.count_cons, ← ih]
      omega

theorem exists_mem_pieces (hc : c.isBlank = false) (hmem : c ∈ t) : ∃ p ∈ pieces t, c ∈ p := by
  have hjoin : c ∈ join " " (pieces t) := by
    rw [← List.count_pos_iff, count_join_pieces hc]
    exact List.count_pos_iff.mpr hmem
  rcases mem_join hjoin with hspace | hpiece
  · obtain rfl := List.mem_singleton.mp hspace
    exact absurd hc (by decide)
  · exact hpiece

/-- What is not blank stands on one line as often. -/
theorem count_singleLine (hc : c.isBlank = false) (t : Text) :
    (singleLine t).count c = t.count c := by
  rw [singleLine, count_trim hc, count_join_pieces hc]

theorem isBlank_of_isBlank_singleLine (h : isBlank (singleLine t) = true) : isBlank t = true := by
  rw [isBlank_iff]
  intro c hc
  by_contra hvisible
  rw [Bool.not_eq_true] at hvisible
  have hkept : c ∈ singleLine t := by
    rw [← List.count_pos_iff, count_singleLine hvisible, List.count_pos_iff]
    exact hc
  rw [isBlank_iff.mp h c hkept] at hvisible
  cases hvisible

private theorem foldr_wordsStep_spec (t : Text) : ((t.foldr wordsStep ([], [])).1 <+: t ∧
      ∀ c ∈ (t.foldr wordsStep ([], [])).1, c.isBlank = false) ∧
    ∀ w ∈ (t.foldr wordsStep ([], [])).2, w <:+: t ∧ w ≠ [] ∧ ∀ c ∈ w, c.isBlank = false := by
  induction t with
  | nil => simp
  | cons c t ih =>
      obtain ⟨⟨hfront, hfirst⟩, hall⟩ := ih
      rw [List.foldr_cons]
      rcases hfold : t.foldr wordsStep ([], []) with ⟨word, ws⟩
      rw [hfold] at hfront hfirst hall
      simp only at hfront hfirst hall
      have hgrown : ∀ w ∈ ws, w <:+: c :: t ∧ w ≠ [] ∧ ∀ c ∈ w, c.isBlank = false :=
        fun w hw => ⟨List.infix_cons (hall w hw).1, (hall w hw).2⟩
      rw [wordsStep]
      by_cases hc : c.isBlank = true
      · rw [if_pos hc]
        refine ⟨⟨List.nil_prefix, by simp⟩, ?_⟩
        split_ifs with hempty
        · exact hgrown
        · refine List.forall_mem_cons.mpr ⟨⟨List.infix_cons hfront.isInfix, ?_, hfirst⟩, hgrown⟩
          simpa using hempty
      · rw [if_neg hc]
        refine ⟨⟨List.cons_prefix_cons.mpr ⟨rfl, hfront⟩, ?_⟩, hgrown⟩
        exact List.forall_mem_cons.mpr ⟨by simpa using hc, hfirst⟩

/-- A word is a part of the text that is not empty and holds no blank. -/
theorem of_mem_words (h : w ∈ words t) : w <:+: t ∧ w ≠ [] ∧ ∀ c ∈ w, c.isBlank = false := by
  obtain ⟨⟨hfront, hfirst⟩, hall⟩ := foldr_wordsStep_spec t
  rw [words] at h
  rcases hfold : t.foldr wordsStep ([], []) with ⟨word, ws⟩
  rw [hfold] at h hfront hfirst hall
  simp only at h
  split_ifs at h with hempty
  · exact hall w h
  · rcases List.mem_cons.mp h with rfl | h
    · exact ⟨hfront.isInfix, by simpa using hempty, hfirst⟩
    · exact hall w h

/-- A text that holds more than blanks has a word. -/
theorem words_ne_nil (hc : c.isBlank = false) (hmem : c ∈ t) : words t ≠ [] := by
  have hfold : (t.foldr wordsStep ([], [])).1 ≠ [] ∨ (t.foldr wordsStep ([], [])).2 ≠ [] := by
    induction t with
    | nil => cases hmem
    | cons d t ih =>
        rw [List.foldr_cons]
        rcases hrest : t.foldr wordsStep ([], []) with ⟨word, ws⟩
        rw [hrest] at ih
        rw [wordsStep]
        cases hd : d.isBlank with
        | false => exact Or.inl (List.cons_ne_nil d word)
        | true =>
            have hlater : c ∈ t := by
              refine (List.mem_cons.mp hmem).resolve_left ?_
              rintro rfl
              rw [hc] at hd
              cases hd
            right
            rcases ih hlater with hword | hwords
            · simp [hword]
            · simp only [if_true]
              split_ifs
              · exact hwords
              · exact List.cons_ne_nil word ws
  rw [words]
  rcases hrest : t.foldr wordsStep ([], []) with ⟨word, ws⟩
  rw [hrest] at hfold
  simp only
  split_ifs with hempty
  · exact hfold.resolve_left (by simpa using hempty)
  · exact List.cons_ne_nil word ws

/-- Words that are joined are trimmed. -/
theorem isTrimmed_join {separator : Text} (h : ∀ w ∈ parts, w ≠ [] ∧ ∀ c ∈ w, c.isBlank = false) :
    IsTrimmed (join separator parts) := by
  constructor
  · intro c hc
    cases parts with
    | nil => cases hc
    | cons w ws =>
        obtain ⟨hne, hblank⟩ := h w List.mem_cons_self
        obtain ⟨d, r, rfl⟩ := List.exists_cons_of_ne_nil hne
        rw [join, List.intercalate_cons_cons_left] at hc
        exact Option.some.inj hc ▸ hblank d List.mem_cons_self
  · intro c hc
    rcases List.eq_nil_or_concat parts with rfl | ⟨ws, w, rfl⟩
    · cases hc
    · rw [List.concat_eq_append] at h hc
      obtain ⟨hne, hblank⟩ := h w (by simp)
      have hlast : (join separator (ws ++ [w])).getLast? = w.getLast? := by
        have hd := List.getLast?_eq_some_getLast hne
        by_cases hws : ws = []
        · rw [hws, List.nil_append, join, List.intercalate_singleton]
        · rw [join_concat hws, List.getLast?_append, List.getLast?_append, hd]
          rfl
      exact hblank c (List.mem_of_mem_getLast? (hlast ▸ hc))

theorem singleLine_of_visible (h : ∀ c ∈ t, c.IsVisible) : singleLine t = t := by
  have hblank : ∀ c ∈ t, c.isBlank = false := fun c hc => (h c hc).isBlank
  rw [singleLine_of_breakFree (breakFree_of_not_blank hblank)]
  exact (isTrimmed_of_not_blank hblank).trim_eq

/-! ## Texts that fit on a line of a file -/

/-- The text can stand on a line of a file: it is read back from its bytes, and it breaks no line. -/
structure FitsLine (t : Text) : Prop where
  isStable : IsStable t
  breakFree : BreakFree t

/-- A class of texts that lines are made of. None of them ends a line; ASCII texts belong to it, as
do the parts of its texts and what they make around a character of ASCII. -/
structure LineClass (Q : Text → Prop) : Prop where
  endFree : ∀ {t}, Q t → EndFree t
  of_basic : ∀ {t : Text}, (∀ c ∈ t, c.IsBasic) → Q t
  of_isInfix : ∀ {s t}, s <:+: t → Q t → Q s
  append_cons : ∀ {s t} {c : Rune}, Q s → c.IsBasic → Q t → Q (s ++ c :: t)

theorem isStable_basic_append (hs : ∀ c ∈ s, c.IsBasic) : IsStable (s ++ t) ↔ IsStable t := by
  induction s with
  | nil => rfl
  | cons c s ih =>
      obtain ⟨hc, hs⟩ := List.forall_mem_cons.mp hs
      rw [List.cons_append, isStable_cons hc.plain.1 hc.plain.2.1, ih hs]

theorem lineClass_breakFree : LineClass BreakFree where
  endFree := BreakFree.endFree
  of_basic := fun h c hc => (h c hc).plain.2.2
  of_isInfix := BreakFree.of_infix
  append_cons := fun hs hc ht => breakFree_append.mpr ⟨hs, breakFree_cons.mpr ⟨hc.plain.2.2, ht⟩⟩

theorem lineClass_endFree : LineClass EndFree where
  endFree := id
  of_basic := fun h => (lineClass_breakFree.of_basic h).endFree
  of_isInfix := EndFree.of_infix
  append_cons := by
    intro s t c hs hc ht
    have hone : BreakFree [c] := List.forall_mem_singleton.mpr hc.plain.2.2
    exact endFree_append.mpr ⟨hs, endFree_cons.mpr ⟨hone.endFree c (by simp), ht⟩⟩

/-- Between texts that are read back from their bytes a character of ASCII keeps bytes apart. -/
theorem LineClass.and_isStable {P : Text → Prop} (h : LineClass P) :
    LineClass fun t => IsStable t ∧ P t where
  endFree := fun ht => h.endFree ht.2
  of_basic := by
    intro t ht
    refine ⟨?_, h.of_basic ht⟩
    have happend := (@isStable_basic_append t [] ht).mpr trivial
    rwa [List.append_nil] at happend
  of_isInfix := fun hpart ht => ⟨IsStable.of_infix ht.1 hpart, h.of_isInfix hpart ht.2⟩
  append_cons := by
    intro s t c hs hc ht
    refine ⟨?_, h.append_cons hs.2 hc ht.2⟩
    refine hs.1.append ((isStable_cons hc.plain.1 hc.plain.2.1).mpr ht.1) ?_
    exact fun d hd => Option.some.inj hd ▸ hc.plain.2.1

theorem LineClass.and_isEncodable {P : Text → Prop} (h : LineClass P) :
    LineClass fun t => (∀ c ∈ t, isEncodable c = true) ∧ P t where
  endFree := fun ht => h.endFree ht.2
  of_basic := fun ht => ⟨fun c hc => (ht c hc).plain.1, h.of_basic ht⟩
  of_isInfix := fun hpart ht => ⟨fun c hc => ht.1 c (hpart.subset hc), h.of_isInfix hpart ht.2⟩
  append_cons := fun hs hc ht =>
    ⟨List.forall_mem_append.mpr ⟨hs.1, List.forall_mem_cons.mpr ⟨hc.plain.1, ht.1⟩⟩,
      h.append_cons hs.2 hc ht.2⟩

theorem lineClass_fitsLine : LineClass FitsLine := by
  have hfits : FitsLine = fun t => IsStable t ∧ BreakFree t :=
    funext fun t => propext ⟨fun h => ⟨h.isStable, h.breakFree⟩, fun h => ⟨h.1, h.2⟩⟩
  rw [hfits]
  exact lineClass_breakFree.and_isStable

theorem fitsLine_of_basic (h : ∀ c ∈ t, c.IsBasic) : FitsLine t := lineClass_fitsLine.of_basic h

theorem fitsLine_singleLine (h : IsStable t) : FitsLine (singleLine t) :=
  ⟨isStable_singleLine h, breakFree_singleLine t⟩

theorem fitsLine_of_mem_pieces (h : IsStable t) (hp : p ∈ pieces t) : FitsLine p := by
  obtain ⟨hpart, hfree⟩ := (pieces_spec t).2 p hp
  exact ⟨h.of_infix hpart, hfree⟩

namespace LineClass

variable {Q : Text → Prop} (hQ : LineClass Q)

include hQ

theorem nil : Q [] := hQ.of_basic (by simp)

theorem basic_append (hs : ∀ c ∈ s, c.IsBasic) (ht : Q t) : Q (s ++ t) := by
  induction s with
  | nil => exact ht
  | cons c s ih =>
      obtain ⟨hc, hs⟩ := List.forall_mem_cons.mp hs
      exact hQ.append_cons hQ.nil hc (ih hs)

theorem append_basic (hs : Q s) (ht : ∀ c ∈ t, c.IsBasic) : Q (s ++ t) := by
  cases t with
  | nil => rwa [List.append_nil]
  | cons c t =>
      obtain ⟨hc, ht⟩ := List.forall_mem_cons.mp ht
      exact hQ.append_cons hs hc (hQ.of_basic ht)

theorem join {d : Rune} (hd : d.IsBasic) (h : ∀ p ∈ parts, Q p) : Q (Text.join [d] parts) := by
  induction parts with
  | nil => exact hQ.nil
  | cons p ps ih =>
      obtain ⟨hp, hps⟩ := List.forall_mem_cons.mp h
      cases ps with
      | nil => simpa [Text.join] using hp
      | cons q ps =>
          rw [join_cons_cons, List.singleton_append]
          exact hQ.append_cons hp hd (ih hps)

end LineClass

end Text

end TodoLedger
