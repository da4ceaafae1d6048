import TodoLedger.Edit
import TodoLedger.Proofs.Comment.Scan
import TodoLedger.Proofs.Text.Span
/-!
# The first keyword

A keyword and its colon stand at a place of a text where no word character is in front of them. The
search for a keyword finds the first such place behind a column, or else the first one of all.
-/

namespace TodoLedger

open Scan

/-! ## Keywords in front of a text -/

namespace Scan

variable {t word rest : Text}

/-- The word is one of the keywords in some case. -/
def IsKeyword (word : Text) : Prop := ∃ k ∈ taskKeywords, Text.SameWord word k

theorem IsKeyword.noColon (h : IsKeyword word) : Rune.ofChar ':' ∉ word := by
  obtain ⟨k, hk, hsame⟩ := h
  have hletters : ∀ k ∈ taskKeywords, ∀ d ∈ k, d.letter ≠ (Rune.ofChar ':').letter := by decide
  intro hmem
  obtain ⟨d, hd, hletter⟩ := hsame.exists_letter hmem
  exact hletters k hk d hd hletter

theorem IsKeyword.ne_nil (h : IsKeyword word) : word ≠ [] := by
  rintro rfl
  obtain ⟨k, hk, hsame⟩ := h
  have hall : ∀ k ∈ taskKeywords, k ≠ [] := by decide
  exact hall k hk (List.map_eq_nil_iff.mp hsame.symm)

/-- The character is a case variant of a letter of a keyword. -/
def isKeywordRune (c : Rune) : Bool :=
  taskKeywords.any fun k => k.any fun a => a.letter = c.letter

theorem IsKeyword.isKeywordRune (h : IsKeyword word) {c : Rune} (hc : c ∈ word) :
    isKeywordRune c = true := by
  obtain ⟨k, hk, hsame⟩ := h
  obtain ⟨a, ha, heq⟩ := hsame.exists_letter hc
  exact List.any_eq_true.mpr ⟨k, hk, List.any_eq_true.mpr ⟨a, ha, decide_eq_true heq⟩⟩

theorem isKeywordRune_of_isBlank {c : Rune} (h : c.isBlank = true) : isKeywordRune c = false := by
  have hall : ∀ n ∈ Rune.blankCodes, isKeywordRune (Rune.ofNat n) = false := by decide
  rw [← Rune.ofNat_code c]
  exact hall _ (Rune.mem_blankCodes h)

theorem IsKeyword.isBlank (h : IsKeyword word) {c : Rune} (hc : c ∈ word) : c.isBlank = false := by
  cases hblank : c.isBlank with
  | false => rfl
  | true =>
      have hrune := h.isKeywordRune hc
      rw [isKeywordRune_of_isBlank hblank] at hrune
      cases hrune

/-- A keyword has three letters at least, and none ends in an I. -/
theorem IsKeyword.shape (h : IsKeyword word) :
    3 ≤ word.length ∧ ∀ c, word.getLast? = some c → c.letter ≠ Rune.ofChar 'i' := by
  obtain ⟨k, hk, hsame⟩ := h
  have hall : ∀ k ∈ taskKeywords, 3 ≤ k.length ∧
      (k.map Rune.letter).getLast? ≠ some (Rune.ofChar 'i') := by
    decide
  obtain ⟨hlength, hlast⟩ := hall k hk
  constructor
  · rwa [hsame.length_eq]
  · intro c hc hi
    apply hlast
    rw [← hsame, List.getLast?_map, hc, ← hi]
    rfl

theorem keyword?_eq_some_iff :
    keyword? t = some (word, rest) ↔ t = word ++ Rune.ofChar ':' :: rest ∧ IsKeyword word := by
  constructor
  · exact of_keyword?_eq_some
  · rintro ⟨rfl, k, hk, hsame⟩
    cases hfound : keyword? (word ++ Rune.ofChar ':' :: rest) with
    | none =>
        have hnone := List.findSome?_eq_none_iff.mp hfound k hk
        have hdrop : Text.dropWord? k (word ++ Rune.ofChar ':' :: rest) =
            some (Rune.ofChar ':' :: rest) :=
          Text.dropWord?_eq_some_iff.mpr ⟨word, rfl, hsame⟩
        simp [hdrop] at hnone
    | some found =>
        obtain ⟨hsplit, hkeyword⟩ := of_keyword?_eq_some hfound
        have hword : IsKeyword word := ⟨k, hk, hsame⟩
        have hfoundWord : IsKeyword found.1 := hkeyword
        obtain ⟨hfirst, hsecond⟩ := Span.split_at_first hword.noColon hfoundWord.noColon hsplit
        rw [hfirst, hsecond]

end Scan

/-! ## Keywords inside a text -/

/-- A word may begin behind a text; behind the empty text it may if the flag says so. -/
def mayBegin (flag : Bool) (before : Text) : Bool :=
  match before.getLast? with
  | none => flag
  | some c => !c.isWord

theorem mayBegin_cons (flag : Bool) (c : Rune) (before : Text) :
    mayBegin flag (c :: before) = mayBegin (!c.isWord) before := by
  cases before with
  | nil => rfl
  | cons d before => simp [mayBegin, List.getLast?_cons]

theorem mayBegin_append (flag : Bool) (lead before : Text) :
    mayBegin flag (lead ++ before) = mayBegin (mayBegin flag lead) before := by
  induction lead generalizing flag with
  | nil => rfl
  | cons c lead ih => rw [List.cons_append, mayBegin_cons, mayBegin_cons, ih]

/-- A keyword and its colon stand in the text between what is before them and the rest. -/
structure KeywordIn (flag : Bool) (t before word rest : Text) : Prop where
  split : t = before ++ (word ++ Rune.ofChar ':' :: rest)
  isKeyword : IsKeyword word
  mayBegin : mayBegin flag before = true

section KeywordIn

variable {flag : Bool} {c : Rune} {t lead before word rest found : Text} {n : Nat}

theorem keywordIn_nil_iff : KeywordIn flag t [] word rest ↔
    flag = true ∧ keyword? t = some (word, rest) := by
  rw [keyword?_eq_some_iff]
  constructor
  · rintro ⟨hsplit, hword, hflag⟩
    exact ⟨hflag, hsplit, hword⟩
  · rintro ⟨hflag, hsplit, hword⟩
    exact ⟨hsplit, hword, hflag⟩

theorem keywordIn_append_iff : KeywordIn flag (lead ++ t) (lead ++ before) word rest ↔
    KeywordIn (mayBegin flag lead) t before word rest := by
  constructor
  · rintro ⟨hsplit, hword, hflag⟩
    rw [List.append_assoc, List.append_cancel_left_eq] at hsplit
    exact ⟨hsplit, hword, by rwa [← mayBegin_append]⟩
  · rintro ⟨hsplit, hword, hflag⟩
    exact ⟨by rw [hsplit, List.append_assoc], hword, by rwa [mayBegin_append]⟩

theorem keywordIn_cons_iff : KeywordIn flag (c :: t) (c :: before) word rest ↔
    KeywordIn (!c.isWord) t before word rest := @keywordIn_append_iff flag t [c] before word rest

theorem KeywordIn.length_lt (h : KeywordIn flag t before word rest) : before.length < t.length := by
  rw [h.split, List.length_append, List.length_append, List.length_cons]
  omega

/-- Where the search ends: no keyword stands earlier. -/
theorem findKeyword?_eq_some (h : findKeyword? flag t = some (before, word, found)) :
    ∃ rest, KeywordIn flag t before word rest ∧ found = rest.dropWhile Rune.isSpaceOrTab ∧
      ∀ s v r, KeywordIn flag t s v r → before.length ≤ s.length := by
  induction t generalizing flag before with
  | nil => cases h
  | cons c t ih =>
      rw [findKeyword?] at h
      split at h
      · rename_i w r hkeyword
        cases h
        have hhere : flag = true ∧ keyword? (c :: t) = some (word, r) := by
          split_ifs at hkeyword with hflag
          exact ⟨hflag, hkeyword⟩
        exact ⟨r, keywordIn_nil_iff.mpr hhere, rfl, fun _ _ _ _ => Nat.zero_le _⟩
      · rename_i hnone
        obtain ⟨⟨before', found'⟩, hfound, hpair⟩ := Option.map_eq_some_iff.mp h
        cases hpair
        obtain ⟨rest, hin, hrest, hfirst⟩ := ih hfound
        refine ⟨rest, keywordIn_cons_iff.mpr hin, hrest, fun s v r hs => ?_⟩
        cases s with
        | nil =>
            obtain ⟨rfl, hkeyword⟩ := keywordIn_nil_iff.mp hs
            simp [hkeyword] at hnone
        | cons d s =>
            obtain rfl : c = d := by
              have hsplit := hs.split
              rw [List.cons_append] at hsplit
              exact (List.cons.inj hsplit).1
            have hle := hfirst s v r (keywordIn_cons_iff.mp hs)
            simpa using hle

theorem findKeyword?_eq_none (h : findKeyword? flag t = none) (s v r : Text) :
    ¬KeywordIn flag t s v r := by
  induction t generalizing flag s with
  | nil =>
      intro hs
      exact absurd hs.length_lt (by simp)
  | cons c t ih =>
      intro hs
      rw [findKeyword?] at h
      split at h
      · cases h
      · rename_i hnone
        cases s with
        | nil =>
            obtain ⟨rfl, hkeyword⟩ := keywordIn_nil_iff.mp hs
            simp [hkeyword] at hnone
        | cons d s =>
            obtain rfl : c = d := by
              have hsplit := hs.split
              rw [List.cons_append] at hsplit
              exact (List.cons.inj hsplit).1
            exact ih (Option.map_eq_none_iff.mp h) s (keywordIn_cons_iff.mp hs)

/-! ## The keyword behind a column -/

/-- The first keyword that stands behind `n` characters or more. -/
structure IsFirstKeyword (n : Nat) (t before word rest : Text) : Prop where
  isKeyword : KeywordIn true t before word rest
  le : n ≤ before.length
  first : ∀ s v r, KeywordIn true t s v r → n ≤ s.length → before.length ≤ s.length

/-- The keyword that is marked: the first behind `n` characters, or the first of all where no
keyword stands there. -/
def IsMarkedKeyword (n : Nat) (t before word rest : Text) : Prop :=
  IsFirstKeyword n t before word rest ∨
    (∀ s v r, KeywordIn true t s v r → s.length < n) ∧ IsFirstKeyword 0 t before word rest

theorem isFirstKeyword_of_findKeyword? (h : findKeyword? true t = some (before, word, found)) :
    ∃ rest, IsFirstKeyword 0 t before word rest ∧ found = rest.dropWhile Rune.isSpaceOrTab := by
  obtain ⟨rest, hin, hrest, hfirst⟩ := findKeyword?_eq_some h
  exact ⟨rest, ⟨hin, Nat.zero_le _, fun s v r hs _ => hfirst s v r hs⟩, hrest⟩

/-- A place behind `n` characters lies in the text that is left when these are dropped. -/
private theorem exists_keywordIn_drop {s v r : Text} (h : KeywordIn true t s v r)
    (hn : n ≤ s.length) : ∃ s', s = t.take n ++ s' ∧
      KeywordIn (mayBegin true (t.take n)) (t.drop n) s' v r := by
  have hfront : s <+: t := ⟨_, h.split.symm⟩
  have htake : t.take n <+: s := by
    apply List.prefix_of_prefix_length_le (List.take_prefix n t) hfront
    exact (List.length_take_le n t).trans hn
  obtain ⟨s', rfl⟩ := htake
  refine ⟨s', rfl, keywordIn_append_iff.mp ?_⟩
  rwa [List.take_append_drop]

theorem isFirstKeyword_of_findKeywordFrom?
    (h : findKeywordFrom? n t = some (before, word, found)) :
    ∃ rest, IsFirstKeyword n t before word rest ∧ found = rest.dropWhile Rune.isSpaceOrTab := by
  rw [findKeywordFrom?, Option.map_eq_some_iff] at h
  obtain ⟨⟨before', found'⟩, hfound, hpair⟩ := h
  cases hpair
  obtain ⟨rest, hin, hrest, hfirst⟩ := findKeyword?_eq_some hfound
  have hlength : (t.take n).length = n := by
    have hlt := hin.length_lt
    rw [List.length_drop] at hlt
    rw [List.length_take]
    omega
  refine ⟨rest, ⟨?_, ?_, fun s v r hs hn => ?_⟩, hrest⟩
  · conv => arg 2; rw [← List.take_append_drop n t]
    exact keywordIn_append_iff.mpr hin
  · rw [List.length_append]
    omega
  · obtain ⟨s', rfl, hs'⟩ := exists_keywordIn_drop hs hn
    have hle := hfirst s' v r hs'
    simpa using hle

theorem not_keywordIn_of_findKeywordFrom? (h : findKeywordFrom? n t = none) (s v r : Text)
    (hs : KeywordIn true t s v r) : s.length < n := by
  rw [findKeywordFrom?, Option.map_eq_none_iff] at h
  by_contra hn
  obtain ⟨s', -, hs'⟩ := exists_keywordIn_drop hs (Nat.le_of_not_lt hn)
  exact findKeyword?_eq_none h s' v r hs'

/-- A marker takes the place of the blanks behind the colon of the keyword that is marked. -/
theorem markedBody?_eq_some {column : Int} {id new : Text}
    (h : markedBody? column id t = some new) :
    ∃ before word rest, IsMarkedKeyword (column - 1).toNat t before word rest ∧
      new = before ++ (word ++ (": " ++ Marker.text id ++ " " ++
        rest.dropWhile Rune.isSpaceOrTab)) := by
  simp only [markedBody?, bind, Option.bind_eq_some_iff] at h
  obtain ⟨⟨before, word, found⟩, hfound, hnew⟩ := h
  have hmarked : ∃ rest, IsMarkedKeyword (column - 1).toNat t before word rest ∧
      found = rest.dropWhile Rune.isSpaceOrTab := by
    rcases Option.or_eq_some_iff.mp hfound with hfrom | ⟨hnone, hany⟩
    · obtain ⟨rest, hfirst, hrest⟩ := isFirstKeyword_of_findKeywordFrom? hfrom
      exact ⟨rest, Or.inl hfirst, hrest⟩
    · obtain ⟨rest, hfirst, hrest⟩ := isFirstKeyword_of_findKeyword? hany
      exact ⟨rest, Or.inr ⟨not_keywordIn_of_findKeywordFrom? hnone, hfirst⟩, hrest⟩
  obtain ⟨rest, hkeyword, rfl⟩ := hmarked
  refine ⟨before, word, rest, hkeyword, ?_⟩
  rw [← Option.some.inj hnew]
  simp only [List.append_assoc]

/-- The place of a keyword settles the keyword and what stands behind it. -/
theorem KeywordIn.eq_of_length {before' word' rest' : Text} (h : KeywordIn flag t before word rest)
    (h' : KeywordIn flag t before' word' rest') (hlength : before.length = before'.length) :
    before = before' ∧ word = word' ∧ rest = rest' := by
  obtain ⟨rfl, hsplit⟩ := List.append_inj (h.split.symm.trans h'.split) hlength
  obtain ⟨rfl, rfl⟩ := Span.split_at_first h.isKeyword.noColon h'.isKeyword.noColon hsplit
  exact ⟨rfl, rfl, rfl⟩

theorem findKeywordFrom?_of_isFirstKeyword (h : IsFirstKeyword n t before word rest) :
    findKeywordFrom? n t = some (before, word, rest.dropWhile Rune.isSpaceOrTab) := by
  cases hfound : findKeywordFrom? n t with
  | none =>
      have hlt := not_keywordIn_of_findKeywordFrom? hfound before word rest h.isKeyword
      exact absurd h.le (Nat.not_le_of_lt hlt)
  | some found =>
      obtain ⟨before', word', found'⟩ := found
      obtain ⟨rest', h', rfl⟩ := isFirstKeyword_of_findKeywordFrom? hfound
      have hlength : before.length = before'.length :=
        Nat.le_antisymm (h.first _ _ _ h'.isKeyword h'.le) (h'.first _ _ _ h.isKeyword h.le)
      obtain ⟨rfl, rfl, rfl⟩ := h.isKeyword.eq_of_length h'.isKeyword hlength
      rfl

/-- The first keyword behind the column is marked. -/
theorem markedBody?_of_isFirstKeyword {column : Int} (id : Text)
    (h : IsFirstKeyword (column - 1).toNat t before word rest) :
    markedBody? column id t = some (before ++ (word ++ (": " ++ (Marker.text id ++ (" " ++
      rest.dropWhile Rune.isSpaceOrTab))))) := by
  simp only [markedBody?, findKeywordFrom?_of_isFirstKeyword h]
  simp

end KeywordIn

end TodoLedger
