import TodoLedger.Proofs.Text.Span
import TodoLedger.Text.Digit
import Mathlib.Data.List.DropRight
import Mathlib.Tactic.Common
/-!
# Trimming

Trimming takes blanks off both ends and nothing else. A text is trimmed when neither end is blank.
-/

namespace TodoLedger

namespace Rune

theorem ofNat_code (c : Rune) : ofNat c.code = c := by
  rw [ofNat, dif_pos c.isLt]

/-- The code points of the blank characters. -/
def blankCodes : List Nat := [9, 10, 11, 12, 13, 28, 29, 30, 31, 32, 0x85, 0xA0, 0x1680, 0x2000,
  0x2001, 0x2002, 0x2003, 0x2004, 0x2005, 0x2006, 0x2007, 0x2008, 0x2009, 0x200A, 0x2028, 0x2029,
  0x202F, 0x205F, 0x3000]

theorem mem_blankCodes {c : Rune} (h : c.isBlank = true) : c.code ∈ blankCodes := by
  simp only [isBlank, within, List.any_cons, List.any_nil, Bool.or_false] at h
  simp only [blankCodes, List.mem_cons, List.not_mem_nil, or_false]
  split_ifs at h with hascii
  · simp only [Bool.or_eq_true, Bool.and_eq_true, decide_eq_true_eq] at h
    omega
  · simp only [Bool.or_eq_true, Bool.and_eq_true, decide_eq_true_eq] at h
    omega

/-- No blank character is part of a word, and none is a digit. -/
private theorem plain_of_isBlank {c : Rune} (h : c.isBlank = true) :
    c.isWord = false ∧ c.isDigit = false := by
  have hall : ∀ n ∈ blankCodes, (ofNat n).isWord = false ∧ (ofNat n).isDigit = false := by
    decide +kernel
  rw [← ofNat_code c]
  exact hall _ (mem_blankCodes h)

theorem isWord_of_isBlank {c : Rune} (h : c.isBlank = true) : c.isWord = false :=
  (plain_of_isBlank h).1

theorem isBlank_of_isDigit {c : Rune} (h : c.isDigit = true) : c.isBlank = false := by
  by_contra hblank
  rw [Bool.not_eq_false] at hblank
  rw [(plain_of_isBlank hblank).2] at h
  cases h

end Rune

namespace Text

theorem isBlank_iff {t : Text} : isBlank t = true ↔ ∀ c ∈ t, c.isBlank = true :=
  List.all_eq_true

theorem trimStart_eq_nil_iff {t : Text} : trimStart t = [] ↔ isBlank t = true := by
  rw [trimStart, List.dropWhile_eq_nil_iff, isBlank_iff]

theorem trimEnd_eq_nil_iff {t : Text} : trimEnd t = [] ↔ isBlank t = true := by
  rw [trimEnd, List.reverse_eq_nil_iff, List.dropWhile_eq_nil_iff, isBlank_iff]
  simp

theorem isBlank_append {s t : Text} :
    isBlank (s ++ t) = (isBlank s && isBlank t) := List.all_append

theorem isBlank_indent (t : Text) : isBlank (indent t) = true :=
  isBlank_iff.mpr fun _ hc => List.mem_takeWhile_imp hc

theorem isBlank_trimStart (t : Text) : isBlank (trimStart t) = isBlank t := by
  conv_rhs => rw [← indent_append_trimStart t, isBlank_append, isBlank_indent, Bool.true_and]

theorem trim_eq_nil_iff {t : Text} : trim t = [] ↔ isBlank t = true := by
  rw [trim, trimEnd_eq_nil_iff, isBlank_trimStart]

theorem trim_isEmpty (t : Text) : (trim t).isEmpty = isBlank t := by
  rw [Bool.eq_iff_iff, List.isEmpty_iff, trim_eq_nil_iff]

theorem trim_isInfix (t : Text) : trim t <:+: t := by
  have hstart : trimStart t <:+ t := List.dropWhile_suffix _
  have hend : trimEnd (trimStart t) <+: trimStart t := List.rdropWhile_prefix _ _
  exact hend.isInfix.trans hstart.isInfix

/-- What stands in front of a character that is not blank stays. -/
theorem trimEnd_append_cons {s t : Text} {c : Rune} (hc : c.isBlank = false) :
    trimEnd (s ++ c :: t) = s ++ c :: trimEnd t := by
  rw [trimEnd, trimEnd, List.reverse_append, List.reverse_cons, List.append_assoc,
    List.dropWhile_append]
  split_ifs with h
  · have hnil : t.reverse.dropWhile Rune.isBlank = [] := by simpa using h
    simp [hnil, hc]
  · simp

theorem trimStart_cons {t : Text} {c : Rune} (hc : c.isBlank = false) :
    trimStart (c :: t) = c :: t := by
  rw [trimStart, List.dropWhile_cons_of_neg (by simp [hc])]

theorem trimStart_append {s t : Text} (hs : isBlank s = true) :
    trimStart (s ++ t) = trimStart t :=
  List.dropWhile_append_of_pos (isBlank_iff.mp hs)

theorem trim_append {s t : Text} (hs : isBlank s = true) : trim (s ++ t) = trim t := by
  rw [trim, trimStart_append hs, trim]

theorem trimEnd_append {s t : Text} (ht : isBlank t = true) : trimEnd (s ++ t) = trimEnd s := by
  have hreverse : ∀ c ∈ t.reverse, c.isBlank = true :=
    fun c hc => isBlank_iff.mp ht c (List.mem_reverse.mp hc)
  rw [trimEnd, List.reverse_append, List.dropWhile_append_of_pos hreverse, trimEnd]

theorem trimEnd_concat {t : Text} {c : Rune} (hc : c.isBlank = true) :
    trimEnd (t ++ [c]) = trimEnd t :=
  trimEnd_append (isBlank_iff.mpr (List.forall_mem_singleton.mpr hc))

theorem trim_cons {t : Text} {c : Rune} (hc : c.isBlank = false) :
    trim (c :: t) = c :: trimEnd t := by
  rw [trim, trimStart_cons hc]
  exact @trimEnd_append_cons [] t c hc

/-- A text is blank, or its first character that is not blank stands behind its indent. -/
theorem exists_indent {t : Text} (h : isBlank t = false) :
    ∃ c r, t = indent t ++ c :: r ∧ c.isBlank = false := by
  cases hstart : trimStart t with
  | nil =>
      rw [trimStart_eq_nil_iff.mp hstart] at h
      cases h
  | cons c r =>
      refine ⟨c, r, ?_, ?_⟩
      · rw [← hstart]
        exact (indent_append_trimStart t).symm
      · exact Span.not_of_dropWhile_eq_cons hstart

theorem trimEnd_trimEnd (t : Text) : trimEnd (trimEnd t) = trimEnd t :=
  List.rdropWhile_idempotent _ _

theorem trim_trimEnd (t : Text) : trim (trimEnd t) = trim t := by
  cases hblank : isBlank t with
  | true => rw [trimEnd_eq_nil_iff.mpr hblank, trim_eq_nil_iff.mpr hblank, trim_eq_nil_iff.mpr rfl]
  | false =>
      obtain ⟨c, r, ht, hc⟩ := exists_indent hblank
      rw [ht, trimEnd_append_cons hc, trim_append (isBlank_indent _),
        trim_append (isBlank_indent _), trim_cons hc, trim_cons hc, trimEnd_trimEnd]

/-- Neither end of the text is blank. -/
structure IsTrimmed (t : Text) : Prop where
  head : ∀ c, t.head? = some c → c.isBlank = false
  last : ∀ c, t.getLast? = some c → c.isBlank = false

theorem IsTrimmed.trim_eq {t : Text} (h : IsTrimmed t) : trim t = t := by
  cases t with
  | nil => rfl
  | cons c r =>
      rw [trim, trimStart_cons (h.head c rfl)]
      refine List.rdropWhile_eq_self_iff.mpr fun hne => ?_
      rw [h.last _ (List.getLast?_eq_some_getLast hne)]
      simp

theorem isTrimmed_trim (t : Text) : IsTrimmed (trim t) := by
  constructor
  · intro c hc
    cases hblank : isBlank t with
    | true =>
        rw [trim_eq_nil_iff.mpr hblank] at hc
        cases hc
    | false =>
        obtain ⟨d, r, ht, hd⟩ := exists_indent hblank
        rw [ht, trim_append (isBlank_indent _), trim_cons hd] at hc
        exact Option.some.inj hc ▸ hd
  · intro c hc
    have hne : List.rdropWhile Rune.isBlank (trimStart t) ≠ [] := by
      intro hnil
      rw [trim, trimEnd, ← List.rdropWhile, hnil] at hc
      cases hc
    have hlast := List.rdropWhile_last_not Rune.isBlank (trimStart t) hne
    have hgetLast : c = (List.rdropWhile Rune.isBlank (trimStart t)).getLast hne := by
      apply Option.some.inj
      rw [← List.getLast?_eq_some_getLast hne]
      exact hc.symm
    rw [hgetLast]
    simpa using hlast

theorem isTrimmed_iff {t : Text} : IsTrimmed t ↔ trim t = t :=
  ⟨IsTrimmed.trim_eq, fun h => h ▸ isTrimmed_trim t⟩

instance (t : Text) : Decidable (IsTrimmed t) := decidable_of_iff _ isTrimmed_iff.symm

/-- What is not blank stands in the trimmed text as often. -/
theorem count_trim {c : Rune} (hc : c.isBlank = false) (t : Text) : (trim t).count c = t.count c := by
  have hdrop : ∀ s : Text, (s.dropWhile Rune.isBlank).count c = s.count c := by
    intro s
    have hfront : (s.takeWhile Rune.isBlank).count c = 0 := by
      refine List.count_eq_zero.mpr fun hmem => ?_
      have hblank := List.mem_takeWhile_imp hmem
      rw [hc] at hblank
      cases hblank
    conv_rhs => rw [← indent_append_trimStart s, List.count_append]
    rw [indent, hfront, Nat.zero_add]
    rfl
  rw [trim, trimEnd, List.count_reverse, hdrop, List.count_reverse, trimStart, hdrop]

theorem isTrimmed_of_not_blank {t : Text} (h : ∀ c ∈ t, c.isBlank = false) : IsTrimmed t :=
  ⟨fun c hc => h c (List.mem_of_mem_head? hc), fun c hc => h c (List.mem_of_mem_getLast? hc)⟩

end Text

end TodoLedger
