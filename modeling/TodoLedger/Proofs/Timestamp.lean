import TodoLedger.Proofs.Text.Numeral
import TodoLedger.Proofs.Timestamp.Grammar
/-!
# Reading a written timestamp

A moment is written in the grammar of timestamps if its year has four digits, and not otherwise, because
years are not filled with zeros. So `decode_encode_within_blanks` holds: in both kinds of brackets and with
blanks around it a written moment is read back to the minute from the year 1000 on, and no earlier one is
read at all.
-/

namespace TodoLedger

namespace Timestamp

variable {moment : DateTime} {active : Bool} {text : Text} {f : Fields}

/-! ## What is written of a moment -/

/-- What a timestamp has between its brackets. -/
def bodyOf (moment : DateTime) : Text :=
  Text.ofNat moment.year ++ "-" ++ Text.padded 2 moment.month ++ "-" ++
    Text.padded 2 moment.day ++ " " ++
    Calendar.weekdayName moment.year moment.month moment.day ++ " " ++
    Text.padded 2 moment.hour ++ ":" ++ Text.padded 2 moment.minute

theorem encode_eq (moment : DateTime) (active : Bool) : encode moment active =
    if active then "<" ++ bodyOf moment ++ ">" else "[" ++ bodyOf moment ++ "]" := rfl

/-- The parts that are written. -/
def fieldsOf (moment : DateTime) : Fields :=
  ⟨moment.year, moment.month, moment.day, moment.hour, moment.minute⟩

private theorem isDigits_padded {n : Nat} (h : n < 10 ^ 2) : IsDigits 2 (Text.padded 2 n) :=
  ⟨Text.length_padded (by decide) h, fun _ hc => (Text.isDigit_of_mem_padded hc).isDigit⟩

private theorem isDigits_year (h : 1000 ≤ moment.year) : IsDigits 4 (Text.ofNat moment.year) := by
  refine ⟨?_, fun _ hc => (Text.isDigit_of_mem_ofNat hc).isDigit⟩
  have hle := (@Text.length_ofNat_le_iff moment.year 4 (by decide)).mpr moment.parts_lt.1
  have hnot : ¬(Text.ofNat moment.year).length ≤ 3 := by
    rw [Text.length_ofNat_le_iff (by decide)]
    omega
  omega

private theorem isName_weekdayName (year month day : Nat) :
    IsName (Calendar.weekdayName year month day) := by
  have hall : ∀ k : Fin 7, (Calendar.weekdayNames.getD k.val "").toText ≠ [] ∧
      ∀ c ∈ (Calendar.weekdayNames.getD k.val "").toText,
        c.isWord = true ∧ c.isDigit = false ∧ c ≠ Rune.ofChar '_' := by
    decide
  obtain ⟨hne, hletters⟩ :=
    hall ⟨(Calendar.dayNumber year month day + 6) % 7, Nat.mod_lt _ (by decide)⟩
  exact ⟨hne, hletters⟩

private theorem writesBody_bodyOf (h : 1000 ≤ moment.year) :
    WritesBody (bodyOf moment) (fieldsOf moment) := by
  obtain ⟨-, hmonth, hday, hhour, hminute, -⟩ := moment.parts_lt
  have hdate := WritesDate.intro (isDigits_year h) (isDigits_padded hmonth) (isDigits_padded hday)
  have hclock := WritesClock.intro (Or.inr (isDigits_padded hhour)) (isDigits_padded hminute)
  rw [Text.digitsValue_ofNat, Text.digitsValue_padded, Text.digitsValue_padded] at hdate
  rw [Text.digitsValue_padded, Text.digitsValue_padded] at hclock
  have hgap : IsGap " " := ⟨by decide, by decide⟩
  have hname := isName_weekdayName moment.year moment.month moment.day
  have hbody := WritesBody.intro hdate (Or.inr (.plain hgap hname)) (Or.inr (.start hgap hclock))
    (rfl : Text.isBlank [] = true)
  simpa only [bodyOf, fieldsOf, List.append_assoc, List.append_nil] using hbody

private theorem writes_encode_iff : Writes (encode moment active) f ↔
    WritesBody (bodyOf moment) f := by
  rw [← fields?_eq_some_iff, ← body?_eq_some_iff]
  cases active with
  | true => rw [← fields?_active]; rfl
  | false => rw [← fields?_inactive]; rfl

/-- A year of fewer than four digits is not in the grammar. -/
private theorem not_writesBody_bodyOf (h : moment.year < 1000) :
    ¬WritesBody (bodyOf moment) f := by
  intro hbody
  have hlead : ∃ r, bodyOf moment = Text.ofNat moment.year ++ Rune.ofChar '-' :: r :=
    ⟨_, by simp only [bodyOf, List.append_assoc]; rfl⟩
  obtain ⟨r, hr⟩ := hlead
  have hfour := hbody.length_takeWhile
  rw [hr, Span.takeWhile_append_cons (fun c hc => (Text.isDigit_of_mem_ofNat hc).isDigit)
    (by decide)] at hfour
  have hshort := (@Text.length_ofNat_le_iff moment.year 3 (by decide)).mpr h
  omega

theorem isBasic_encode (moment : DateTime) : ∀ c ∈ encode moment true, c.IsBasic := by
  have hnumber : ∀ n, ∀ c ∈ Text.ofNat n, c.IsBasic := fun n c hc =>
    (Text.isDigit_of_mem_ofNat hc).isVisible.isBasic
  have htwo : ∀ n, ∀ c ∈ Text.padded 2 n, c.IsBasic := fun n c hc =>
    (Text.isDigit_of_mem_padded hc).isVisible.isBasic
  have hweekday : ∀ c ∈ Calendar.weekdayName moment.year moment.month moment.day, c.IsBasic := by
    have hall : ∀ k : Fin 7, ∀ c ∈ (Calendar.weekdayNames.getD k.val "").toText, c.IsBasic := by
      decide
    exact hall ⟨(Calendar.dayNumber moment.year moment.month moment.day + 6) % 7,
      Nat.mod_lt _ (by decide)⟩
  have hdash : ∀ c ∈ ("-" : Text), c.IsBasic := by decide
  have hspace : ∀ c ∈ (" " : Text), c.IsBasic := by decide
  have hcolon : ∀ c ∈ (":" : Text), c.IsBasic := by decide
  have hopen : ∀ c ∈ ("<" : Text), c.IsBasic := by decide
  have hclose : ∀ c ∈ (">" : Text), c.IsBasic := by decide
  simp only [encode, if_true, List.forall_mem_append]
  exact ⟨⟨hopen, ⟨⟨⟨⟨⟨⟨⟨⟨⟨hnumber _, hdash⟩, htwo _⟩, hdash⟩, htwo _⟩, hspace⟩, hweekday⟩,
    hspace⟩, htwo _⟩, hcolon⟩, htwo _⟩, hclose⟩

theorem trim_encode (moment : DateTime) : Text.trim (encode moment active) = encode moment active := by
  have hends : ∀ (body : Text) (opening closing : Rune), opening.isBlank = false →
      closing.isBlank = false → Text.IsTrimmed (opening :: (body ++ [closing])) := by
    intro body opening closing hopening hclosing
    refine ⟨fun c hc => Option.some.inj hc ▸ hopening, fun c hc => ?_⟩
    rw [← List.cons_append, List.getLast?_concat] at hc
    exact Option.some.inj hc ▸ hclosing
  rw [encode_eq]
  generalize bodyOf moment = body
  cases active with
  | true => exact (hends body _ _ (by decide) (by decide)).trim_eq
  | false => exact (hends body _ _ (by decide) (by decide)).trim_eq

/-! ## What is read of it -/

/-- A text that is a written moment but for blanks at its ends is read to the minute. -/
private theorem decode_of_trim (h : 1000 ≤ moment.year)
    (htrim : Text.trim text = encode moment active) : decode text = .ok moment.startOfMinute := by
  have hwrites : Writes (Text.trim text) (fieldsOf moment) := by
    rw [htrim, writes_encode_iff]
    exact writesBody_bodyOf h
  exact decode_of_isPossible hwrites ⟨moment.isDate, moment.isTime.1, moment.isTime.2.1⟩

/-- A written moment is read back to the minute. -/
theorem decode_encode (h : 1000 ≤ moment.year) :
    decode (encode moment true) = .ok moment.startOfMinute :=
  decode_of_trim h (trim_encode moment)

/-- Whatever blanks stand around it, a written moment is read back to the minute from the year 1000 on.
Before that it is refused, because its year has fewer than four digits. -/
theorem decode_encode_within_blanks {before after : Text} (hbefore : Text.isBlank before = true)
    (hafter : Text.isBlank after = true) (moment : DateTime) (active : Bool) :
    decode (before ++ encode moment active ++ after) =
      if 1000 ≤ moment.year then .ok moment.startOfMinute
      else .error (.malformed (before ++ encode moment active ++ after)) := by
  have htrim : Text.trim (before ++ encode moment active ++ after) = encode moment active := by
    rw [List.append_assoc, Text.trim_append hbefore, ← Text.trim_trimEnd, Text.trimEnd_append hafter,
      Text.trim_trimEnd, trim_encode]
  split_ifs with h
  · exact decode_of_trim h htrim
  · refine decode_of_refuses (.malformed ?_ fun f hf => ?_)
    · rw [← Text.trim_isEmpty, htrim]
      cases active <;> rfl
    · rw [htrim, writes_encode_iff] at hf
      exact not_writesBody_bodyOf (Nat.lt_of_not_le h) hf

/-- On a leap day, with seconds and in square brackets. -/
theorem decode_encode_leap_day :
    Text.isBlank " \t" = true ∧ Text.isBlank "\n" = true ∧
      decode (" \t" ++ encode ⟨2024, 2, 29, 23, 59, 42, 500000, by decide, by decide⟩ false ++ "\n") =
        .ok ⟨2024, 2, 29, 23, 59, 0, 0, by decide, by decide⟩ :=
  ⟨by decide, by decide, decode_encode_within_blanks (by decide) (by decide)
    ⟨2024, 2, 29, 23, 59, 42, 500000, by decide, by decide⟩ false⟩

/-- The last minute before the year 1000 is written with three digits and cannot be read. -/
theorem decode_encode_year_999 :
    encode ⟨999, 12, 31, 23, 59, 0, 0, by decide, by decide⟩ true = "<999-12-31 Tue 23:59>" ∧
      decode (encode ⟨999, 12, 31, 23, 59, 0, 0, by decide, by decide⟩ true) =
        .error (.malformed "<999-12-31 Tue 23:59>") := by
  decide +kernel

end Timestamp

end TodoLedger
