import TodoLedger.Proofs.Text.Span
import TodoLedger.Proofs.Text.Trim
import TodoLedger.Timestamp
/-!
# The grammar of timestamps

Between two brackets a timestamp has a date, then a weekday and a time, each behind a gap and each of
which may be missing, and blanks at the end. The reader takes these parts off the text one after the
other. It never has a choice: a weekday has no digit, a time starts with one, and a gap has neither.
So `fields?_eq_some_iff` holds, and `decode_accepts_grammar` says of every text what is read of it.
-/

namespace TodoLedger

theorem Rune.isWeekdayLetter_iff {c : Rune} : c.isWeekdayLetter = true ↔
    c.isWord = true ∧ c.isDigit = false ∧ c ≠ Rune.ofChar '_' := by
  have hline : (Rune.ofChar '_').isAlphanumeric = false := by decide
  simp only [isWeekdayLetter, isWord, Bool.and_eq_true, Bool.or_eq_true, Bool.not_eq_true',
    decide_eq_true_eq]
  constructor
  · rintro ⟨halpha, hdigit⟩
    refine ⟨Or.inl halpha, hdigit, ?_⟩
    rintro rfl
    rw [hline] at halpha
    cases halpha
  · rintro ⟨hword, hdigit, hne⟩
    exact ⟨hword.resolve_right hne, hdigit⟩

namespace Timestamp

/-! ## What is written -/

/-- A run of `n` decimal digits of any script. -/
structure IsDigits (n : Nat) (t : Text) : Prop where
  length : t.length = n
  digits : ∀ c ∈ t, c.isDigit = true

/-- The white space in front of a weekday or a time. -/
structure IsGap (t : Text) : Prop where
  ne_nil : t ≠ []
  blank : Text.isBlank t = true

/-- A weekday's name: word characters without decimal digits and low lines. -/
structure IsName (t : Text) : Prop where
  ne_nil : t ≠ []
  letters : ∀ c ∈ t, c.isWord = true ∧ c.isDigit = false ∧ c ≠ Rune.ofChar '_'

/-- The text is a date. -/
inductive WritesDate : Text → Nat × Nat × Nat → Prop
  | intro {y m d : Text} (year : IsDigits 4 y) (month : IsDigits 2 m) (day : IsDigits 2 d) :
    WritesDate (y ++ "-" ++ m ++ "-" ++ d)
      (Text.digitsValue y, Text.digitsValue m, Text.digitsValue d)

/-- The text is a gap and a weekday, with or without a full stop. -/
inductive IsWeekday : Text → Prop
  | plain {gap name : Text} (hgap : IsGap gap) (hname : IsName name) : IsWeekday (gap ++ name)
  | dotted {gap name : Text} (hgap : IsGap gap) (hname : IsName name) :
    IsWeekday (gap ++ name ++ ".")

/-- The text is an hour of one or two digits and a minute of two. -/
inductive WritesClock : Text → Nat × Nat → Prop
  | intro {h m : Text} (hour : IsDigits 1 h ∨ IsDigits 2 h) (minute : IsDigits 2 m) :
    WritesClock (h ++ ":" ++ m) (Text.digitsValue h, Text.digitsValue m)

/-- The text is a gap and a time, with or without an end, of which the start counts. -/
inductive WritesTime : Text → Nat × Nat → Prop
  | start {gap t : Text} {s : Nat × Nat} (hgap : IsGap gap) (hstart : WritesClock t s) :
    WritesTime (gap ++ t) s
  | span {gap t u : Text} {s e : Nat × Nat} (hgap : IsGap gap) (hstart : WritesClock t s)
    (hend : WritesClock u e) : WritesTime (gap ++ t ++ "-" ++ u) s

/-- A missing weekday is nothing. -/
def MayBeWeekday (t : Text) : Prop := t = [] ∨ IsWeekday t

/-- A missing time is midnight. -/
def MayBeTime (t : Text) (s : Nat × Nat) : Prop := (t = [] ∧ s = (0, 0)) ∨ WritesTime t s

/-- The text stands between the brackets of a timestamp. -/
inductive WritesBody : Text → Fields → Prop
  | intro {date weekday time blanks : Text} {year month day hour minute : Nat}
    (hdate : WritesDate date (year, month, day)) (hweekday : MayBeWeekday weekday)
    (htime : MayBeTime time (hour, minute)) (hblanks : Text.isBlank blanks = true) :
    WritesBody (date ++ weekday ++ time ++ blanks) ⟨year, month, day, hour, minute⟩

/-- The text is a timestamp with these parts. -/
inductive Writes : Text → Fields → Prop
  | active {body : Text} {f : Fields} (h : WritesBody body f) : Writes ("<" ++ body ++ ">") f
  | inactive {body : Text} {f : Fields} (h : WritesBody body f) : Writes ("[" ++ body ++ "]") f

variable {s t u w r : Text} {n v : Nat} {c : Rune} {p : Nat × Nat} {f : Fields}

/-! ## Digits -/

theorem digits?_eq_some_iff : digits? n t = some (v, r) ↔
    ∃ s, IsDigits n s ∧ v = Text.digitsValue s ∧ t = s ++ r := by
  constructor
  · intro h
    simp only [digits?] at h
    split_ifs at h with hdigits
    rw [Bool.and_eq_true, decide_eq_true_eq, List.all_eq_true] at hdigits
    obtain ⟨rfl, rfl⟩ := Prod.mk.inj (Option.some.inj h)
    exact ⟨t.take n, ⟨hdigits.1, hdigits.2⟩, rfl, (List.take_append_drop n t).symm⟩
  · rintro ⟨s, ⟨hlength, hdigits⟩, rfl, rfl⟩
    have htake : (s ++ r).take n = s := List.take_left' hlength
    have hdrop : (s ++ r).drop n = r := List.drop_left' hlength
    have hall : s.all Rune.isDigit = true := List.all_eq_true.mpr hdigits
    simp only [digits?, htake, hdrop, hlength, hall, decide_true, Bool.and_self, if_true]

theorem skip?_eq_some_iff : skip? c t = some r ↔ t = c :: r := by
  cases t with
  | nil => simp [skip?]
  | cons a t =>
      rw [skip?, List.cons.injEq]
      split_ifs with ha
      · simp [ha]
      · simp [ha]

theorem IsDigits.exists_cons (h : IsDigits n s) (hn : 0 < n) :
    ∃ c r, s = c :: r ∧ c.isDigit = true := by
  cases s with
  | nil =>
      have hlength := h.length
      rw [List.length_nil] at hlength
      omega
  | cons c r => exact ⟨c, r, rfl, h.digits c List.mem_cons_self⟩

/-! ## The date -/

theorem date?_eq_some_iff {d : Nat × Nat × Nat} : date? t = some (d, r) ↔
    ∃ s, WritesDate s d ∧ t = s ++ r := by
  obtain ⟨year, month, day⟩ := d
  simp only [date?, Option.bind_eq_bind, Option.bind_eq_some_iff, Prod.exists, digits?_eq_some_iff,
    skip?_eq_some_iff, Option.some.injEq, Prod.mk.injEq]
  constructor
  · rintro ⟨_, _, ⟨y, hy, rfl, rfl⟩, _, rfl, _, _, ⟨m, hm, rfl, rfl⟩, _, rfl, _, _,
      ⟨d, hd, rfl, rfl⟩, ⟨rfl, rfl, rfl⟩, rfl⟩
    exact ⟨_, .intro hy hm hd, by simp [String.toText]⟩
  · rintro ⟨_, ⟨hy, hm, hd⟩, rfl⟩
    exact ⟨_, _, ⟨_, hy, rfl, by simp [String.toText]⟩, _, rfl, _, _, ⟨_, hm, rfl, rfl⟩, _, rfl,
      _, _, ⟨_, hd, rfl, rfl⟩, ⟨rfl, rfl, rfl⟩, rfl⟩

/-! ## The weekday -/

theorem isGap_indent (h : (Text.trimStart t).length < t.length) : IsGap (Text.indent t) := by
  refine ⟨?_, Text.isBlank_indent t⟩
  intro hnil
  have hsame := Text.indent_append_trimStart t
  rw [hnil, List.nil_append] at hsame
  rw [hsame] at h
  exact Nat.lt_irrefl _ h

theorem exists_weekday (t : Text) : ∃ w, MayBeWeekday w ∧ t = w ++ dropWeekday t := by
  simp only [dropWeekday]
  set behind := Text.trimStart t with hbehind
  set name := behind.takeWhile Rune.isWeekdayLetter with hname
  set rest := behind.dropWhile Rune.isWeekdayLetter with hrest
  have hsplit : t = Text.indent t ++ (name ++ rest) := by
    rw [hname, hrest, List.takeWhile_append_dropWhile, hbehind, Text.indent_append_trimStart]
  have hlength := congrArg List.length hsplit
  have hlengthBehind : behind.length = name.length + rest.length := by
    rw [← List.length_append, hname, hrest, List.takeWhile_append_dropWhile]
  rw [List.length_append, List.length_append] at hlength
  split_ifs with h
  · rw [Bool.and_eq_true, decide_eq_true_eq, decide_eq_true_eq] at h
    have hgap := isGap_indent h.1
    have hletters : IsName name := by
      refine ⟨List.ne_nil_of_length_pos (by omega), fun c hc => ?_⟩
      exact Rune.isWeekdayLetter_iff.mp (List.mem_takeWhile_imp hc)
    cases hdot : skip? (Rune.ofChar '.') rest with
    | none =>
        refine ⟨_, Or.inr (.plain hgap hletters), ?_⟩
        rw [Option.getD_none, List.append_assoc, ← hsplit]
    | some u =>
        refine ⟨_, Or.inr (.dotted hgap hletters), ?_⟩
        have hu := skip?_eq_some_iff.mp hdot
        rw [Option.getD_some]
        conv_lhs => rw [hsplit, hu]
        simp [String.toText]
  · exact ⟨[], Or.inl rfl, rfl⟩

/-- What may follow a date and a weekday: blanks, and behind them nothing or a digit. -/
structure IsTail (u : Text) : Prop where
  head : ∀ c, u.head? = some c → c.isBlank = true
  behind : ∀ c, (Text.trimStart u).head? = some c → c.isDigit = true

/-- Where no letter stands in front there is no run of letters to drop. -/
private theorem dropWhile_letters (h : ∀ c, t.head? = some c → c.isWeekdayLetter = false) :
    t.dropWhile Rune.isWeekdayLetter = t := by
  cases t with
  | nil => rfl
  | cons c t => exact List.dropWhile_cons_of_neg (by simp [h c rfl])

theorem IsName.isWeekdayLetter (h : IsName t) : ∀ c ∈ t, c.isWeekdayLetter = true :=
  fun c hc => Rune.isWeekdayLetter_iff.mpr (h.letters c hc)

theorem IsName.exists_cons (h : IsName t) : ∃ c r, t = c :: r ∧ c.isBlank = false := by
  obtain ⟨c, r, rfl⟩ := List.exists_cons_of_ne_nil h.ne_nil
  refine ⟨c, r, rfl, ?_⟩
  by_contra hblank
  rw [Bool.not_eq_false] at hblank
  have hword := (h.letters c List.mem_cons_self).1
  rw [Rune.isWord_of_isBlank hblank] at hword
  cases hword

/-- A name is dropped as far as its letters go. -/
private theorem dropWeekday_name {gap name : Text} (hgap : IsGap gap) (hname : IsName name)
    (h : ∀ c, r.head? = some c → c.isWeekdayLetter = false) :
    dropWeekday (gap ++ name ++ r) = (skip? (Rune.ofChar '.') r).getD r := by
  have hbehind : Text.trimStart (gap ++ name ++ r) = name ++ r := by
    obtain ⟨c, letters, rfl, hc⟩ := hname.exists_cons
    rw [List.append_assoc, Text.trimStart_append hgap.blank, List.cons_append,
      Text.trimStart_cons hc]
  have hrest : (name ++ r).dropWhile Rune.isWeekdayLetter = r := by
    rw [List.dropWhile_append_of_pos hname.isWeekdayLetter, dropWhile_letters h]
  have hgapLength := List.length_pos_iff.mpr hgap.ne_nil
  have hnameLength := List.length_pos_iff.mpr hname.ne_nil
  have hshorter : (name ++ r).length < (gap ++ name ++ r).length := by
    simp only [List.length_append]
    omega
  have hcut : r.length < (name ++ r).length := by
    rw [List.length_append]
    omega
  simp only [dropWeekday, hbehind, hrest, hshorter, hcut, decide_true, Bool.and_self, if_true]

theorem dropWeekday_append (hw : MayBeWeekday w) (hu : IsTail u) : dropWeekday (w ++ u) = u := by
  have hletter : ∀ c, u.head? = some c → c.isWeekdayLetter = false := by
    intro c hc
    rw [Bool.eq_false_iff, ne_eq, Rune.isWeekdayLetter_iff, Rune.isWord_of_isBlank (hu.head c hc)]
    simp
  rcases hw with rfl | ⟨hgap, hname⟩ | ⟨hgap, hname⟩
  · have hsame : (Text.trimStart u).dropWhile Rune.isWeekdayLetter = Text.trimStart u := by
      refine dropWhile_letters fun c hc => ?_
      rw [Rune.isWeekdayLetter, hu.behind c hc, Bool.not_true, Bool.and_false]
    simp [dropWeekday, hsame]
  · rw [dropWeekday_name hgap hname hletter]
    cases u with
    | nil => rfl
    | cons c u =>
        have hdot : c ≠ Rune.ofChar '.' := by
          rintro rfl
          exact absurd (hu.head _ rfl) (by decide)
        rw [skip?, if_neg hdot]
        rfl
  · rw [List.append_assoc, dropWeekday_name hgap hname]
    · rfl
    · intro c hc
      obtain rfl := Option.some.inj hc
      decide

/-! ## The time -/

theorem clock?_eq_some_iff : clock? t = some (p, r) ↔ ∃ s, WritesClock s p ∧ t = s ++ r := by
  obtain ⟨hour, minute⟩ := p
  constructor
  · intro h
    simp only [clock?] at h
    split_ifs at h with hlength
    simp only [Option.bind_eq_bind, Option.bind_eq_some_iff, Prod.exists, digits?_eq_some_iff,
      skip?_eq_some_iff, Option.some.injEq, Prod.mk.injEq, Span.drop_length_takeWhile] at h
    obtain ⟨_, hcolon, _, _, ⟨m, hm, rfl, rfl⟩, ⟨rfl, rfl⟩, rfl⟩ := h
    have hdigits : ∀ c ∈ t.takeWhile Rune.isDigit, c.isDigit = true :=
      fun c hc => List.mem_takeWhile_imp hc
    have hhour : IsDigits 1 (t.takeWhile Rune.isDigit) ∨ IsDigits 2 (t.takeWhile Rune.isDigit) := by
      rw [Bool.or_eq_true, decide_eq_true_eq, decide_eq_true_eq] at hlength
      exact hlength.imp (fun h => ⟨h, hdigits⟩) fun h => ⟨h, hdigits⟩
    refine ⟨_, .intro hhour hm, ?_⟩
    conv_lhs => rw [← List.takeWhile_append_dropWhile (p := Rune.isDigit) (l := t), hcolon]
    simp [String.toText]
  · rintro ⟨_, ⟨hhour, hminute⟩, rfl⟩
    rename_i h m
    have hdigits : ∀ c ∈ h, c.isDigit = true := hhour.elim IsDigits.digits IsDigits.digits
    have hlength : h.length = 1 ∨ h.length = 2 := hhour.imp IsDigits.length IsDigits.length
    have htext : h ++ (":" : Text) ++ m ++ r = h ++ Rune.ofChar ':' :: (m ++ r) := by
      simp [String.toText]
    have htake : (h ++ Rune.ofChar ':' :: (m ++ r)).takeWhile Rune.isDigit = h :=
      Span.takeWhile_append_cons hdigits (by decide)
    have hread := digits?_eq_some_iff.mpr ⟨m, hminute, rfl, (rfl : m ++ r = m ++ r)⟩
    have hcolon : skip? (Rune.ofChar ':') (Rune.ofChar ':' :: (m ++ r)) = some (m ++ r) :=
      skip?_eq_some_iff.mpr rfl
    rw [htext, clock?]
    simp only [htake, hlength, List.drop_left, hcolon, hread, Option.bind_eq_bind, Option.bind_some,
      Bool.or_eq_true, decide_eq_true_eq, if_true]

theorem WritesClock.exists_cons (h : WritesClock t p) : ∃ c r, t = c :: r ∧ c.isDigit = true := by
  obtain ⟨hour, -⟩ := h
  obtain ⟨c, r, rfl, hc⟩ := hour.elim (fun h => h.exists_cons (by decide)) fun h =>
    h.exists_cons (by decide)
  exact ⟨c, _, rfl, hc⟩

theorem exists_time (h : time? t = some (p, r)) : ∃ w, WritesTime w p ∧ t = w ++ r := by
  simp only [time?] at h
  split_ifs at h with hlength
  simp only [Option.bind_eq_bind, Option.bind_eq_some_iff, Prod.exists, clock?_eq_some_iff] at h
  obtain ⟨hour, minute, rest, ⟨s, hs, hbehind⟩, h⟩ := h
  have hsplit := Text.indent_append_trimStart t
  rw [hbehind] at hsplit
  have hgap := isGap_indent hlength
  cases hdash : skip? (Rune.ofChar '-') rest with
  | none =>
      simp only [hdash, Option.some.injEq, Prod.mk.injEq] at h
      obtain ⟨rfl, rfl⟩ := h
      exact ⟨_, .start hgap hs, by rw [List.append_assoc, hsplit]⟩
  | some u =>
      simp only [hdash, Option.bind_eq_some_iff, Prod.exists, clock?_eq_some_iff, Option.some.injEq,
        Prod.mk.injEq] at h
      obtain ⟨_, _, _, ⟨e, he, rfl⟩, rfl, rfl⟩ := h
      rw [skip?_eq_some_iff] at hdash
      refine ⟨_, .span hgap hs he, ?_⟩
      conv_lhs => rw [← hsplit, hdash]
      simp [String.toText]

/-- Behind a gap a clock is read. -/
private theorem clock?_behind {gap : Text} (hgap : IsGap gap) (ht : WritesClock t p) (rest : Text) :
    Text.trimStart (gap ++ (t ++ rest)) = t ++ rest ∧
      (t ++ rest).length < (gap ++ (t ++ rest)).length ∧ clock? (t ++ rest) = some (p, rest) := by
  obtain ⟨c, u, hcons, hc⟩ := ht.exists_cons
  have hlength := List.length_pos_iff.mpr hgap.ne_nil
  refine ⟨?_, ?_, clock?_eq_some_iff.mpr ⟨t, ht, rfl⟩⟩
  · rw [Text.trimStart_append hgap.blank, hcons, List.cons_append]
    exact Text.trimStart_cons (Rune.isBlank_of_isDigit hc)
  · simp only [List.length_append]
    omega

/-- Behind a gap a time is read up to what cannot open its end. -/
theorem time?_append (h : WritesTime w p) (hr : r.head? ≠ some (Rune.ofChar '-')) :
    time? (w ++ r) = some (p, r) := by
  cases h with
  | start hgap hstart =>
      obtain ⟨htrim, hlength, hclock⟩ := clock?_behind hgap hstart r
      have hdash : skip? (Rune.ofChar '-') r = none := by
        rw [Option.eq_none_iff_forall_ne_some]
        intro u hu
        rw [skip?_eq_some_iff.mp hu] at hr
        exact hr rfl
      rw [List.append_assoc, time?]
      simp only [htrim, hlength, hclock, hdash, Option.bind_eq_bind, Option.bind_some, if_true]
  | span hgap hstart hend =>
      rename_i gap t u e
      have htext : gap ++ t ++ "-" ++ u ++ r = gap ++ (t ++ Rune.ofChar '-' :: (u ++ r)) := by
        simp [String.toText]
      obtain ⟨htrim, hlength, hclock⟩ := clock?_behind hgap hstart (Rune.ofChar '-' :: (u ++ r))
      have hdash : skip? (Rune.ofChar '-') (Rune.ofChar '-' :: (u ++ r)) = some (u ++ r) :=
        skip?_eq_some_iff.mpr rfl
      have hlast := clock?_eq_some_iff.mpr ⟨u, hend, (rfl : u ++ r = u ++ r)⟩
      rw [htext, time?]
      simp only [htrim, hlength, hclock, hdash, hlast, Option.bind_eq_bind, Option.bind_some, if_true]

/-! ## The parts together -/

theorem WritesTime.exists_front (h : WritesTime w p) :
    ∃ gap c r, w = gap ++ c :: r ∧ IsGap gap ∧ c.isDigit = true := by
  cases h with
  | start hgap hstart =>
      obtain ⟨c, r, rfl, hc⟩ := hstart.exists_cons
      exact ⟨_, c, r, rfl, hgap, hc⟩
  | span hgap hstart hend =>
      obtain ⟨c, r, rfl, hc⟩ := hstart.exists_cons
      exact ⟨_, c, _, by simp only [List.append_assoc, List.cons_append]; rfl, hgap, hc⟩

/-- The first digits are those of the year. -/
theorem WritesBody.length_takeWhile (h : WritesBody t f) :
    (t.takeWhile Rune.isDigit).length = 4 := by
  obtain ⟨⟨hyear, hmonth, hday⟩, -, -, -⟩ := h
  rename_i year month day
  have htake : ∀ r : Text, (year ++ Rune.ofChar '-' :: r).takeWhile Rune.isDigit = year :=
    fun r => Span.takeWhile_append_cons hyear.digits (by decide)
  simp only [List.append_assoc]
  exact (congrArg List.length (htake _)).trans hyear.length

theorem isTail_of_time (htime : MayBeTime t p) (hr : Text.isBlank r = true) : IsTail (t ++ r) := by
  rcases htime with ⟨rfl, -⟩ | htime
  · rw [List.nil_append]
    refine ⟨fun c hc => Text.isBlank_iff.mp hr c (List.mem_of_mem_head? hc), fun c hc => ?_⟩
    rw [Text.trimStart_eq_nil_iff.mpr hr] at hc
    cases hc
  · obtain ⟨gap, d, u, rfl, hgap, hd⟩ := htime.exists_front
    obtain ⟨b, bs, rfl⟩ := List.exists_cons_of_ne_nil hgap.ne_nil
    constructor
    · intro c hc
      obtain rfl := Option.some.inj hc
      exact Text.isBlank_iff.mp hgap.blank _ List.mem_cons_self
    · intro c hc
      rw [List.append_assoc, Text.trimStart_append hgap.blank, List.cons_append,
        Text.trimStart_cons (Rune.isBlank_of_isDigit hd)] at hc
      exact Option.some.inj hc ▸ hd

/-- Between the brackets the reader takes what is written in parts and nothing else. -/
theorem body?_eq_some_iff : body? t = some f ↔ WritesBody t f := by
  constructor
  · intro h
    simp only [body?, Option.bind_eq_bind, Option.bind_eq_some_iff, Prod.exists, date?_eq_some_iff] at h
    obtain ⟨year, month, day, rest, ⟨date, hdate, rfl⟩, h⟩ := h
    obtain ⟨weekday, hweekday, hrest⟩ := exists_weekday rest
    rw [hrest, ← List.append_assoc]
    split_ifs at h with hblank
    · obtain rfl := Option.some.inj h
      have hbody := WritesBody.intro hdate hweekday (Or.inl ⟨rfl, rfl⟩) hblank
      rwa [List.append_nil] at hbody
    · simp only [Option.bind_eq_some_iff, Prod.exists] at h
      obtain ⟨hour, minute, blanks, htime, h⟩ := h
      split_ifs at h with hend
      obtain rfl := Option.some.inj h
      obtain ⟨time, htime, hsplit⟩ := exists_time htime
      rw [hsplit, ← List.append_assoc]
      exact .intro hdate hweekday (Or.inr htime) hend
  · rintro ⟨hdate, hweekday, htime, hblanks⟩
    rename_i date weekday time blanks year month day hour minute
    have hread := date?_eq_some_iff.mpr ⟨date, hdate, (rfl : date ++ (weekday ++ (time ++ blanks)) = _)⟩
    have hdrop := dropWeekday_append hweekday (isTail_of_time htime hblanks)
    rw [List.append_assoc, List.append_assoc, body?, hread]
    simp only [Option.bind_eq_bind, Option.bind_some, hdrop]
    rcases htime with ⟨rfl, hmidnight⟩ | htime
    · obtain ⟨rfl, rfl⟩ := Prod.mk.inj hmidnight
      rw [List.nil_append, if_pos hblanks]
    · obtain ⟨gap, c, r, hfront, -, hc⟩ := htime.exists_front
      have hblank : Text.isBlank (time ++ blanks) = false := by
        rw [Bool.eq_false_iff, ne_eq, Text.isBlank_iff]
        intro hall
        have hc' := hall c (by simp [hfront])
        rw [Rune.isBlank_of_isDigit hc] at hc'
        cases hc'
      have hdash : blanks.head? ≠ some (Rune.ofChar '-') := by
        intro hhead
        exact absurd (Text.isBlank_iff.mp hblanks _ (List.mem_of_mem_head? hhead)) (by decide)
      simp only [hblank, Bool.false_eq_true, if_false, time?_append htime hdash, Option.bind_some,
        hblanks, if_true]

theorem between?_eq_some_iff {opening closing : Rune} {body : Text} :
    between? opening closing t = some body ↔ t = opening :: (body ++ [closing]) := by
  simp only [between?, Option.bind_eq_bind, Option.bind_eq_some_iff, skip?_eq_some_iff,
    Option.some.injEq]
  constructor
  · rintro ⟨r, rfl, u, hr, rfl⟩
    rw [← List.reverse_inj, List.reverse_reverse, List.reverse_cons] at hr
    rw [hr]
  · rintro rfl
    exact ⟨_, rfl, body.reverse, by simp, List.reverse_reverse body⟩

theorem fields?_active (body : Text) : fields? ("<" ++ body ++ ">") = body? body := by
  have htext : ("<" ++ body ++ ">" : Text) = Rune.ofChar '<' :: (body ++ [Rune.ofChar '>']) := rfl
  rw [fields?, between?_eq_some_iff.mpr htext]

theorem fields?_inactive (body : Text) : fields? ("[" ++ body ++ "]") = body? body := by
  have htext : ("[" ++ body ++ "]" : Text) = Rune.ofChar '[' :: (body ++ [Rune.ofChar ']']) := rfl
  have hnone : between? (Rune.ofChar '<') (Rune.ofChar '>') ("[" ++ body ++ "]") = none := by
    rw [Option.eq_none_iff_forall_ne_some]
    intro u hu
    have hhead := (List.cons.inj (between?_eq_some_iff.mp hu)).1
    exact absurd hhead (by decide)
  rw [fields?, hnone]
  simp only [between?_eq_some_iff.mpr htext, Option.bind_some]

/-- The reader takes the timestamps of the grammar and no other texts. -/
theorem fields?_eq_some_iff : fields? t = some f ↔ Writes t f := by
  constructor
  · intro h
    rw [fields?] at h
    cases hbetween : between? (Rune.ofChar '<') (Rune.ofChar '>') t with
    | some body =>
        rw [hbetween] at h
        rw [between?_eq_some_iff.mp hbetween]
        exact .active (body?_eq_some_iff.mp h)
    | none =>
        simp only [hbetween, Option.bind_eq_some_iff] at h
        obtain ⟨body, hbody, hread⟩ := h
        rw [between?_eq_some_iff.mp hbody]
        exact .inactive (body?_eq_some_iff.mp hread)
  · intro h
    cases h with
    | active hbody =>
        rw [fields?_active]
        exact body?_eq_some_iff.mpr hbody
    | inactive hbody =>
        rw [fields?_inactive]
        exact body?_eq_some_iff.mpr hbody

/-! ## The date and the time of day -/

namespace Fields

/-- The calendar has the day, and the day has the minute. -/
structure IsPossible (f : Fields) : Prop where
  date : Calendar.IsDate f.year f.month f.day
  hour : f.hour ≤ 23
  minute : f.minute ≤ 59

/-- The moment at which the minute starts. -/
def start (f : Fields) (h : f.IsPossible) : DateTime :=
  ⟨f.year, f.month, f.day, f.hour, f.minute, 0, 0, h.date,
    ⟨h.hour, h.minute, by decide, by decide⟩⟩

/-- The first part, from the year down, that is out of range. -/
inductive FirstOut (f : Fields) : RangeFault → Prop
  | year (h : ¬(1 ≤ f.year ∧ f.year ≤ 9999)) : FirstOut f (.year f.year)
  | month (hyear : 1 ≤ f.year ∧ f.year ≤ 9999) (h : ¬(1 ≤ f.month ∧ f.month ≤ 12)) :
    FirstOut f .month
  | day (hyear : 1 ≤ f.year ∧ f.year ≤ 9999) (hmonth : 1 ≤ f.month ∧ f.month ≤ 12)
    (h : ¬(1 ≤ f.day ∧ f.day ≤ Calendar.daysInMonth f.year f.month)) : FirstOut f .day
  | hour (hdate : Calendar.IsDate f.year f.month f.day) (h : ¬f.hour ≤ 23) : FirstOut f .hour
  | minute (hdate : Calendar.IsDate f.year f.month f.day) (hhour : f.hour ≤ 23)
    (h : ¬f.minute ≤ 59) : FirstOut f .minute

theorem isPossible_or_firstOut (f : Fields) : f.IsPossible ∨ ∃ cause, f.FirstOut cause := by
  by_cases hyear : 1 ≤ f.year ∧ f.year ≤ 9999
  · by_cases hmonth : 1 ≤ f.month ∧ f.month ≤ 12
    · by_cases hday : 1 ≤ f.day ∧ f.day ≤ Calendar.daysInMonth f.year f.month
      · have hdate : Calendar.IsDate f.year f.month f.day := ⟨hyear, hmonth, hday⟩
        by_cases hhour : f.hour ≤ 23
        · by_cases hminute : f.minute ≤ 59
          · exact Or.inl ⟨hdate, hhour, hminute⟩
          · exact Or.inr ⟨_, .minute hdate hhour hminute⟩
        · exact Or.inr ⟨_, .hour hdate hhour⟩
      · exact Or.inr ⟨_, .day hyear hmonth hday⟩
    · exact Or.inr ⟨_, .month hyear hmonth⟩
  · exact Or.inr ⟨_, .year hyear⟩

theorem ofMinute_of_isPossible (h : f.IsPossible) :
    DateTime.ofMinute f.year f.month f.day f.hour f.minute = .ok (f.start h) := by
  obtain ⟨hyear, hmonth, hday⟩ := h.date
  simp only [DateTime.ofMinute, hyear, hmonth, hday, h.hour, h.minute, and_self, not_true_eq_false,
    dite_false, start]

theorem ofMinute_of_firstOut {cause : RangeFault} (h : f.FirstOut cause) :
    DateTime.ofMinute f.year f.month f.day f.hour f.minute = .error cause := by
  cases h with
  | year h => exact dif_pos h
  | month hyear h => simp only [DateTime.ofMinute, hyear, h, and_self, not_true_eq_false, dite_false,
      not_false_eq_true, dite_true]
  | day hyear hmonth h => simp only [DateTime.ofMinute, hyear, hmonth, h, and_self,
      not_true_eq_false, dite_false, not_false_eq_true, dite_true]
  | hour hdate h =>
      obtain ⟨hyear, hmonth, hday⟩ := hdate
      simp only [DateTime.ofMinute, hyear, hmonth, hday, h, and_self, not_true_eq_false, dite_false,
        not_false_eq_true, dite_true]
  | minute hdate hhour h =>
      obtain ⟨hyear, hmonth, hday⟩ := hdate
      simp only [DateTime.ofMinute, hyear, hmonth, hday, hhour, h, and_self, not_true_eq_false,
        dite_false, not_false_eq_true, dite_true]

end Fields

/-! ## What is read of a text -/

/-- The text is refused with the fault. -/
inductive Refuses (text : Text) : TimestampFault → Prop
  | empty (h : Text.isBlank text = true) : Refuses text .empty
  | malformed (hne : Text.isBlank text = false) (h : ∀ f, ¬Writes (Text.trim text) f) :
    Refuses text (.malformed text)
  | impossible {f : Fields} {cause : RangeFault} (h : Writes (Text.trim text) f)
    (hout : f.FirstOut cause) : Refuses text (.impossible (Text.trim text) cause)

variable {text : Text} {moment : DateTime}

theorem Writes.ne_nil (h : Writes t f) : t ≠ [] := by
  cases h with
  | active hbody => exact List.cons_ne_nil _ _
  | inactive hbody => exact List.cons_ne_nil _ _

theorem decode_of_isPossible (h : Writes (Text.trim text) f) (hpossible : f.IsPossible) :
    decode text = .ok (f.start hpossible) := by
  have hne : (Text.trim text).isEmpty = false := List.isEmpty_eq_false_iff.mpr h.ne_nil
  simp only [decode, hne, Bool.false_eq_true, if_false, fields?_eq_some_iff.mpr h,
    Fields.ofMinute_of_isPossible hpossible]

theorem decode_of_refuses {fault : TimestampFault} (h : Refuses text fault) :
    decode text = .error fault := by
  cases h with
  | empty h =>
      simp only [decode, Text.trim_isEmpty, h, if_true]
  | malformed hne h =>
      have hnone : fields? (Text.trim text) = none := by
        rw [Option.eq_none_iff_forall_ne_some]
        exact fun f hf => h f (fields?_eq_some_iff.mp hf)
      simp only [decode, Text.trim_isEmpty, hne, Bool.false_eq_true, if_false, hnone]
  | impossible h hout =>
      have hne : (Text.trim text).isEmpty = false := List.isEmpty_eq_false_iff.mpr h.ne_nil
      simp only [decode, hne, Bool.false_eq_true, if_false, fields?_eq_some_iff.mpr h,
        Fields.ofMinute_of_firstOut hout]

/-- A text is a timestamp of a possible minute, or it is refused. -/
theorem writes_or_refuses (text : Text) :
    (∃ f, Writes (Text.trim text) f ∧ f.IsPossible) ∨ ∃ fault, Refuses text fault := by
  cases hblank : Text.isBlank text with
  | true => exact Or.inr ⟨_, .empty hblank⟩
  | false =>
      by_cases hwrites : ∃ f, Writes (Text.trim text) f
      · obtain ⟨f, hf⟩ := hwrites
        rcases f.isPossible_or_firstOut with hpossible | ⟨cause, hout⟩
        · exact Or.inl ⟨f, hf, hpossible⟩
        · exact Or.inr ⟨_, .impossible hf hout⟩
      · exact Or.inr ⟨_, .malformed hblank (not_exists.mp hwrites)⟩

theorem decode_eq_ok_iff : decode text = .ok moment ↔
    ∃ f, Writes (Text.trim text) f ∧ ∃ h : f.IsPossible, moment = f.start h := by
  constructor
  · intro h
    rcases writes_or_refuses text with ⟨f, hf, hpossible⟩ | ⟨fault, hrefuses⟩
    · rw [decode_of_isPossible hf hpossible] at h
      exact ⟨f, hf, hpossible, (Except.ok.inj h).symm⟩
    · rw [decode_of_refuses hrefuses] at h
      cases h
  · rintro ⟨f, hf, hpossible, rfl⟩
    exact decode_of_isPossible hf hpossible

theorem decode_eq_error_iff {fault : TimestampFault} :
    decode text = .error fault ↔ Refuses text fault := by
  constructor
  · intro h
    rcases writes_or_refuses text with ⟨f, hf, hpossible⟩ | ⟨fault, hrefuses⟩
    · rw [decode_of_isPossible hf hpossible] at h
      cases h
    · rw [decode_of_refuses hrefuses] at h
      exact Except.error.inj h ▸ hrefuses
  · exact decode_of_refuses

/-- A text is read exactly if it is, trimmed, a timestamp of the grammar whose day and time there are,
and it is read as the start of that minute. Every other text is refused as empty, as malformed or for
its first part that is out of range. -/
theorem decode_accepts_grammar (text : Text) :
    (∀ moment, decode text = .ok moment ↔
      ∃ f, Writes (Text.trim text) f ∧ ∃ h : f.IsPossible, moment = f.start h) ∧
    ∀ fault, decode text = .error fault ↔ Refuses text fault :=
  ⟨fun _ => decode_eq_ok_iff, fun _ => decode_eq_error_iff⟩

-- The end of a time is written, but it need not exist.
example : decode "[2024-02-29 Thu. 9:05-99:99 ]" =
    .ok ⟨2024, 2, 29, 9, 5, 0, 0, by decide, by decide⟩ := by
  decide +kernel

end Timestamp

end TodoLedger
