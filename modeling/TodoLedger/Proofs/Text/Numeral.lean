import TodoLedger.Issue
import TodoLedger.Proofs.Text.OneLine
import Mathlib.Algebra.Group.Nat.Defs
import Mathlib.Data.Nat.Digits.Defs
/-!
# Numerals

A number that is written in decimal is read again, with or without zeros in front. The characters
of written numbers are ASCII digits, those of hexadecimal numbers ASCII digits and letters.
-/

namespace TodoLedger

/-- The code of an ASCII digit. -/
def Rune.IsDigit (c : Rune) : Prop := 48 ≤ c.code ∧ c.code ≤ 57

namespace Rune

variable {c : Rune}

theorem code_ofChar (c : Char) : (ofChar c).code = c.toNat := by
  apply code_ofNat
  have hvalid := c.valid
  change c.val.toNat < 0x110000
  rcases hvalid with h | h
  · omega
  · omega

theorem IsDigit.digit?_eq (h : c.IsDigit) : c.digit? = some (c.code - 48) := by
  obtain ⟨hlow, hhigh⟩ := h
  have hascii : c.code < 0x80 := by omega
  simp [digit?, hascii, isAsciiDigit, hlow, hhigh]

theorem IsDigit.isDigit (h : c.IsDigit) : c.isDigit = true := by
  rw [Rune.isDigit, h.digit?_eq]
  rfl

theorem digit?_lt {d : Nat} (h : c.digit? = some d) : d < 10 := by
  rw [digit?] at h
  split_ifs at h with hascii hdigit
  · simp only [isAsciiDigit, Bool.and_eq_true, decide_eq_true_eq] at hdigit
    have hd : c.code - 48 = d := Option.some.inj h
    omega
  · obtain ⟨first, hfirst, hd⟩ := Option.map_eq_some_iff.mp h
    have hwithin := List.find?_some hfirst
    simp only [Bool.and_eq_true, decide_eq_true_eq] at hwithin
    omega

theorem IsDigit.isBlank (h : c.IsDigit) : c.isBlank = false := isBlank_of_isDigit h.isDigit

theorem IsDigit.isVisible (h : c.IsDigit) : c.IsVisible := by
  obtain ⟨hlow, hhigh⟩ := h
  constructor
  · omega
  · omega

theorem IsDigit.ne {d : Rune} (h : c.IsDigit) (hd : d.code < 48 ∨ 57 < d.code) : c ≠ d := by
  rintro rfl
  obtain ⟨hlow, hhigh⟩ := h
  omega

end Rune

namespace Text

variable {c : Rune} {t : Text} {n width : Nat}

private theorem isDigit_ofChar {c : Char} (h : c.isDigit = true) : (Rune.ofChar c).IsDigit := by
  rw [Rune.IsDigit, Rune.code_ofChar]
  simp only [Char.isDigit, Bool.and_eq_true, decide_eq_true_eq] at h
  exact h

theorem isDigit_of_mem_ofNat (h : c ∈ ofNat n) : c.IsDigit := by
  obtain ⟨d, hd, rfl⟩ := List.mem_map.mp h
  exact isDigit_ofChar (Nat.isDigit_of_mem_toDigits (by decide) (by decide) hd)

theorem isDigit_of_mem_padded (h : c ∈ padded width n) : c.IsDigit := by
  rcases List.mem_append.mp h with h | h
  · rw [List.eq_of_mem_replicate h]
    exact ⟨by decide, by decide⟩
  · exact isDigit_of_mem_ofNat h

theorem ofNat_ne_nil (n : Nat) : ofNat n ≠ [] := by
  rw [ofNat, ne_eq, List.map_eq_nil_iff]
  exact Nat.toDigits_ne_nil

theorem length_ofNat_le_iff {k : Nat} (hk : 0 < k) : (ofNat n).length ≤ k ↔ n < 10 ^ k := by
  rw [ofNat, List.length_map]
  exact Nat.length_toDigits_le_iff (by decide) hk

theorem length_padded (hwidth : 0 < width) (h : n < 10 ^ width) :
    (padded width n).length = width := by
  have hle := (length_ofNat_le_iff hwidth).mpr h
  rw [padded, List.length_append, List.length_replicate]
  omega

private theorem foldl_digits {l : List Char} (h : ∀ c ∈ l, c.isDigit = true) (init : Nat) :
    (l.map Rune.ofChar).foldl (fun n c => 10 * n + (c.digit?.getD 0)) init =
      Nat.ofDigitChars 10 l init := by
  induction l generalizing init with
  | nil => rfl
  | cons c l ih =>
      obtain ⟨hc, hl⟩ := List.forall_mem_cons.mp h
      rw [List.map_cons, List.foldl_cons, ih hl, Nat.ofDigitChars_cons,
        (isDigit_ofChar hc).digit?_eq, Rune.code_ofChar]
      rfl

theorem digitsValue_ofNat (n : Nat) : digitsValue (ofNat n) = n := by
  rw [digitsValue, ofNat, foldl_digits]
  · exact Nat.ofDigitChars_ten_toDigits
  · exact fun c hc => Nat.isDigit_of_mem_toDigits (by decide) (by decide) hc

theorem digitsValue_padded (width n : Nat) : digitsValue (padded width n) = n := by
  have hzeros : ∀ k : Nat, (List.replicate k (Rune.ofChar '0')).foldl
      (fun n c => 10 * n + (c.digit?.getD 0)) 0 = 0 := by
    intro k
    induction k with
    | zero => rfl
    | succ k ih => exact ih
  rw [padded, digitsValue, List.foldl_append, hzeros]
  exact digitsValue_ofNat n

theorem isDecimal_of_isDigit (hne : t ≠ []) (h : ∀ c ∈ t, c.IsDigit) : isDecimal t = true := by
  simp only [isDecimal, Bool.and_eq_true, Bool.not_eq_true', List.isEmpty_eq_false_iff,
    List.all_eq_true]
  exact ⟨hne, fun c hc => (h c hc).isDigit⟩

private theorem isDigit_of_isDecimal (h : isDecimal t = true) :
    t ≠ [] ∧ ∀ c ∈ t, c.isDigit = true := by
  simpa [isDecimal] using h

/-- The text writes the number in decimal, in the digits of any script, the highest place first. -/
def IsDecimalOf (t : Text) (n : Nat) : Prop :=
  ∃ digits : List Nat, digits ≠ [] ∧ (∀ d ∈ digits, d < 10) ∧
    t.map Rune.digit? = digits.map some ∧ n = Nat.ofDigits 10 digits.reverse

private theorem digitsValue_eq {digits : List Nat} (h : t.map Rune.digit? = digits.map some) :
    digitsValue t = Nat.ofDigits 10 digits.reverse := by
  have hvalues : t.map (fun c => c.digit?.getD 0) = digits := by
    have hread := congrArg (List.map fun o : Option Nat => o.getD 0) h
    rw [List.map_map, List.map_map] at hread
    exact hread.trans (List.map_id digits)
  rw [Nat.ofDigits_eq_foldr, List.foldr_reverse, digitsValue, ← hvalues, List.foldl_map]
  congr 1
  funext n c
  exact Nat.add_comm _ _

/-- A text of digits, and no other text, writes a number, which is its value. -/
theorem isDecimalOf_iff : t.IsDecimalOf n ↔ isDecimal t = true ∧ n = digitsValue t := by
  constructor
  · rintro ⟨digits, hne, -, hdigits, rfl⟩
    refine ⟨?_, (digitsValue_eq hdigits).symm⟩
    simp only [isDecimal, Bool.and_eq_true, Bool.not_eq_true', List.isEmpty_eq_false_iff,
      List.all_eq_true]
    constructor
    · rintro rfl
      exact hne (List.map_eq_nil_iff.mp hdigits.symm)
    · intro c hc
      have hmem : c.digit? ∈ digits.map some := hdigits ▸ List.mem_map_of_mem hc
      obtain ⟨d, -, hd⟩ := List.mem_map.mp hmem
      rw [Rune.isDigit, ← hd]
      rfl
  · rintro ⟨hdecimal, rfl⟩
    obtain ⟨hne, hall⟩ := isDigit_of_isDecimal hdecimal
    have hdigits : t.map Rune.digit? = (t.map fun c => c.digit?.getD 0).map some := by
      rw [List.map_map]
      apply List.map_congr_left
      intro c hc
      obtain ⟨d, hd⟩ := Option.isSome_iff_exists.mp (hall c hc)
      rw [Function.comp_apply, hd]
      rfl
    refine ⟨_, by simpa using hne, fun d hd => ?_, hdigits, digitsValue_eq hdigits⟩
    have hmem : some d ∈ t.map Rune.digit? := hdigits ▸ List.mem_map_of_mem hd
    obtain ⟨c, -, hc⟩ := List.mem_map.mp hmem
    exact Rune.digit?_lt hc

theorem breakFree_of_isDecimal (h : isDecimal t = true) : BreakFree t :=
  breakFree_of_not_blank fun c hc => Rune.isBlank_of_isDigit ((isDigit_of_isDecimal h).2 c hc)

private theorem numeralDigits?_of_isDigit (hne : t ≠ []) (h : ∀ c ∈ t, c.isDigit = true) :
    numeralDigits? t = some t := by
  induction t with
  | nil => exact absurd rfl hne
  | cons c t ih =>
      obtain ⟨hc, ht⟩ := List.forall_mem_cons.mp h
      cases t with
      | nil => simp [numeralDigits?, hc]
      | cons d t =>
          have hd : d ≠ Rune.ofChar '_' := by
            rintro rfl
            exact absurd (ht _ List.mem_cons_self) (by decide)
          rw [numeralDigits?, if_pos hc, if_neg hd, ih (by simp) ht]
          rfl

/-- A decimal text of a length that is read, blanks around it ignored, is read as its value. -/
theorem positive?_of_isDecimal (hdecimal : isDecimal (trim t) = true)
    (hlength : (trim t).length ≤ maxDigits) (hpos : 1 ≤ digitsValue (trim t)) :
    positive? t = some (digitsValue (trim t)) := by
  obtain ⟨hne, hdigits⟩ := isDigit_of_isDecimal hdecimal
  have hnat : toNat? (trim t) = some (digitsValue (trim t)) := by
    simp only [toNat?, numeralDigits?_of_isDigit hne hdigits, bind, Option.bind, hlength, if_true]
  have hint : toInt? t = some (digitsValue (trim t) : Int) := by
    rw [toInt?]
    split
    · rename_i hnil
      exact absurd hnil hne
    · rename_i c r hcons
      have hc : c.isDigit = true := hdigits c (by simp [hcons])
      have hminus : c ≠ Rune.ofChar '-' := by
        rintro rfl
        exact absurd hc (by decide)
      have hplus : c ≠ Rune.ofChar '+' := by
        rintro rfl
        exact absurd hc (by decide)
      rw [if_neg hminus, if_neg hplus, ← hcons, hnat]
      rfl
  obtain ⟨m, hm⟩ : ∃ m, digitsValue (trim t) = m + 1 := ⟨digitsValue (trim t) - 1, by omega⟩
  rw [positive?, hint, hm]

/-- A number above zero that is short enough is read as itself. -/
theorem positive?_ofNat (hpos : 1 ≤ n) (h : n < 10 ^ maxDigits) :
    positive? (ofNat n) = some n := by
  have hdigits : ∀ c ∈ ofNat n, c.IsDigit := fun c hc => isDigit_of_mem_ofNat hc
  have htrim : trim (ofNat n) = ofNat n :=
    (isTrimmed_of_not_blank fun c hc => (hdigits c hc).isBlank).trim_eq
  have hread := @positive?_of_isDecimal (ofNat n)
  rw [htrim, digitsValue_ofNat] at hread
  exact hread (isDecimal_of_isDigit (ofNat_ne_nil n) hdigits)
    ((length_ofNat_le_iff (by decide)).mpr h) hpos

private theorem code_digitChar {k : Nat} (h : k < 16) :
    48 ≤ k.digitChar.toNat ∧ k.digitChar.toNat ≤ 102 ∧
      (k.digitChar.toNat ≤ 57 ∨ 97 ≤ k.digitChar.toNat) := by
  have hall : ∀ k : Fin 16, 48 ≤ k.val.digitChar.toNat ∧ k.val.digitChar.toNat ≤ 102 ∧
      (k.val.digitChar.toNat ≤ 57 ∨ 97 ≤ k.val.digitChar.toNat) := by
    decide
  exact hall ⟨k, h⟩

private theorem code_of_mem_toDigits {d : Char} (h : d ∈ Nat.toDigits 16 n) :
    48 ≤ d.toNat ∧ d.toNat ≤ 102 ∧ (d.toNat ≤ 57 ∨ 97 ≤ d.toNat) := by
  induction n using Nat.strongRecOn with
  | _ n ih =>
      rw [Nat.toDigits_eq_if (by decide)] at h
      split_ifs at h with hlt
      · rw [List.mem_singleton.mp h]
        exact code_digitChar hlt
      · rcases List.mem_append.mp h with h | h
        · exact ih (n / 16) (by omega) h
        · rw [List.mem_singleton.mp h]
          exact code_digitChar (Nat.mod_lt n (by decide))

/-- The characters of a hexadecimal number are ASCII digits and lower-case letters. -/
theorem code_of_mem_hex (h : c ∈ hex width n) :
    48 ≤ c.code ∧ c.code ≤ 102 ∧ (c.code ≤ 57 ∨ 97 ≤ c.code) := by
  rcases List.mem_append.mp h with h | h
  · rw [List.eq_of_mem_replicate h]
    decide
  · obtain ⟨d, hd, rfl⟩ := List.mem_map.mp h
    rw [Rune.code_ofChar]
    exact code_of_mem_toDigits hd

theorem length_hex (hwidth : 0 < width) (h : n < 16 ^ width) : (hex width n).length = width := by
  have hle : (Nat.toDigits 16 n).length ≤ width :=
    (Nat.length_toDigits_le_iff (by decide) hwidth).mpr h
  simp only [hex, List.length_append, List.length_replicate, List.length_map]
  omega

/-- The number that hexadecimal digits with lower-case letters stand for. -/
private def hexValue (t : Text) : Nat :=
  t.foldl (fun n c => 16 * n + if c.code < 58 then c.code - 48 else c.code - 87) 0

private theorem hexValue_concat (t : Text) (c : Rune) : hexValue (t ++ [c]) =
    16 * hexValue t + if c.code < 58 then c.code - 48 else c.code - 87 := by
  rw [hexValue, List.foldl_append]
  rfl

private theorem hexValue_toDigits (zeros n : Nat) : hexValue
    (List.replicate zeros (Rune.ofChar '0') ++ (Nat.toDigits 16 n).map Rune.ofChar) = n := by
  have hdigit : ∀ k : Fin 16, (if (Rune.ofChar k.val.digitChar).code < 58 then
      (Rune.ofChar k.val.digitChar).code - 48 else (Rune.ofChar k.val.digitChar).code - 87) = k := by
    decide
  have hzeros : hexValue (List.replicate zeros (Rune.ofChar '0')) = 0 := by
    induction zeros with
    | zero => rfl
    | succ zeros ih => rw [List.replicate_succ', hexValue_concat, ih]; rfl
  induction n using Nat.strongRecOn with
  | _ n ih =>
      rw [Nat.toDigits_eq_if (by decide)]
      split_ifs with hlt
      · rw [List.map_singleton, hexValue_concat, hzeros]
        exact (Nat.zero_add _).trans (hdigit ⟨n, hlt⟩)
      · have hrest := hdigit ⟨n % 16, Nat.mod_lt n (by decide)⟩
        rw [List.map_append, List.map_singleton, ← List.append_assoc, hexValue_concat,
          ih (n / 16) (by omega), hrest]
        exact Nat.div_add_mod n 16

/-- Different numbers have different hexadecimal forms. -/
theorem hex_injective (width : Nat) : Function.Injective (hex width) := by
  intro n m h
  rw [hex, hex] at h
  rw [← hexValue_toDigits _ n, h, hexValue_toDigits]

end Text

namespace DateTime

variable {c : Rune} {moment : DateTime}

/-- Each part of a moment fits the digits that it is written with. -/
theorem parts_lt (t : DateTime) : t.year < 10 ^ 4 ∧ t.month < 10 ^ 2 ∧ t.day < 10 ^ 2 ∧
    t.hour < 10 ^ 2 ∧ t.minute < 10 ^ 2 ∧ t.second < 10 ^ 2 ∧ t.micro < 10 ^ 6 := by
  obtain ⟨⟨-, hyear⟩, ⟨-, hmonth⟩, -, hday⟩ := t.isDate
  obtain ⟨hhour, hminute, hsecond, hmicro⟩ := t.isTime
  have hdays : Calendar.daysInMonth t.year t.month ≤ 31 := by
    unfold Calendar.daysInMonth
    split
    · split <;> decide
    all_goals decide
  omega

theorem isDigit_of_mem_dateDigits (h : c ∈ moment.dateDigits) : c.IsDigit := by
  rw [dateDigits, List.mem_append, List.mem_append] at h
  rcases h with (h | h) | h
  · exact Text.isDigit_of_mem_ofNat h
  · exact Text.isDigit_of_mem_padded h
  · exact Text.isDigit_of_mem_padded h

theorem isDigit_of_mem_timeDigits (h : c ∈ moment.timeDigits) : c.IsDigit := by
  rw [timeDigits, List.mem_append, List.mem_append] at h
  rcases h with (h | h) | h
  · exact Text.isDigit_of_mem_padded h
  · exact Text.isDigit_of_mem_padded h
  · exact Text.isDigit_of_mem_padded h

end DateTime

end TodoLedger
