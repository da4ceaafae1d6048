import TodoLedger.Proofs.Comment.Keyword
/-!
# Markers that are read back

A marker that was written is read with its id, and its line counts as marked. It is the first of its
line when it follows the colon of a keyword on a line without markers: one that was begun before ends
at the blank in front of the new one.
-/

namespace TodoLedger.Marker

variable {t s r id rest : Text} {c : Rune}

/-- The text behind the id at the front of a text. -/
def behindId (r : Text) : Text := Text.trimStart ((Text.trimStart r).dropWhile isIdRune)

theorem read?_of_dropWord? (h : Text.dropWord? opening t = some r) :
    read? t = if (behindId r).head? = some (Rune.ofChar ']') then
      some ((Text.trimStart r).takeWhile isIdRune, (behindId r).tail) else none := by
  have hbehind : Text.trimStart ((Text.trimStart r).drop
      ((Text.trimStart r).takeWhile isIdRune).length) = behindId r := by
    rw [Span.drop_length_takeWhile, behindId]
  simp only [read?, h, bind, Option.bind_some, hbehind]
  cases behindId r with
  | nil => simp
  | cons c rest => simp

theorem read?_of_dropWord?_eq_none (h : Text.dropWord? opening t = none) : read? t = none := by
  simp [read?, h]

theorem read?_eq_none_iff : read? t = none ↔
    ∀ r, Text.dropWord? opening t = some r → (behindId r).head? ≠ some (Rune.ofChar ']') := by
  cases hdrop : Text.dropWord? opening t with
  | none => simp [read?_of_dropWord?_eq_none hdrop]
  | some r => simp [read?_of_dropWord? hdrop]

/-- The characters of an id are neither blank nor the end of a marker. -/
def IsId (id : Text) : Prop := ∀ c ∈ id, isIdRune c = true

theorem isBlank_of_isIdRune (h : isIdRune c = true) : c.isBlank = false := by
  simpa [isIdRune] using (Bool.and_eq_true_iff.mp h).2

theorem trimStart_id_append (hid : IsId id) (t : Text) :
    Text.trimStart (id ++ Rune.ofChar ']' :: t) = id ++ Rune.ofChar ']' :: t := by
  cases id with
  | nil => exact Text.trimStart_cons (by decide)
  | cons c id => exact Text.trimStart_cons (isBlank_of_isIdRune (hid c List.mem_cons_self))

/-- A written marker is read back. -/
theorem read?_text (hid : IsId id) (t : Text) : read? (text id ++ t) = some (id, t) := by
  have hdrop : Text.dropWord? opening (text id ++ t) = some (id ++ Rune.ofChar ']' :: t) := by
    refine Text.dropWord?_eq_some_iff.mpr ⟨opening, ?_, rfl⟩
    rw [text, List.append_assoc, List.append_assoc]
    rfl
  have hend : isIdRune (Rune.ofChar ']') = false := by decide
  have hbehind : behindId (id ++ Rune.ofChar ']' :: t) = Rune.ofChar ']' :: t := by
    rw [behindId, trimStart_id_append hid, Span.dropWhile_append_cons hid hend]
    exact Text.trimStart_cons (by decide)
  rw [read?_of_dropWord? hdrop, hbehind, trimStart_id_append hid,
    Span.takeWhile_append_cons hid hend]
  rfl

theorem find?_text (hid : IsId id) (t : Text) : find? (text id ++ t) = some ([], id, t) := by
  have hread := read?_text hid t
  obtain ⟨c, r, hcons⟩ : ∃ c r, text id ++ t = c :: r := ⟨_, _, rfl⟩
  rw [hcons] at hread ⊢
  rw [find?, hread]

theorem remove_text (hid : IsId id) (t : Text) : remove (text id ++ t) = t := by
  rw [remove, find?_text hid]
  rfl

/-! ## The first marker of a line -/

/-- Only a colon is a case variant of a colon. -/
theorem eq_colon_of_letter (h : c.letter = Rune.ofChar ':') : c = Rune.ofChar ':' := by
  have hcode := congrArg Rune.code h
  have hcolon : (Rune.ofChar ':').code = 58 := rfl
  rw [Rune.letter] at h hcode
  split_ifs at h hcode with hcapital hkelvin hi hs
  · simp only [Bool.and_eq_true, decide_eq_true_eq] at hcapital
    rw [Rune.code_ofNat (by omega)] at hcode
    omega
  · exact absurd h (by decide)
  · exact absurd h (by decide)
  · exact absurd h (by decide)
  · exact h

/-- What opens a marker ends in its only colon, and the letter in front of that is an I. -/
theorem split_of_sameWord_opening {word : Text} (h : Text.SameWord word opening) :
    ∃ o, word = o ++ [Rune.ofChar ':'] ∧ Rune.ofChar ':' ∉ o ∧
      ∃ d, o.getLast? = some d ∧ d.letter = Rune.ofChar 'i' := by
  have hopening : opening.map Rune.letter =
      ("[orgi" : Text).map Rune.letter ++ [(Rune.ofChar ':').letter] := by
    decide
  rw [Text.SameWord, hopening] at h
  obtain ⟨o, w, rfl, ho, hw⟩ := List.map_eq_append_iff.mp h
  obtain ⟨d, rfl, hd⟩ := List.map_eq_singleton_iff.mp hw
  rw [eq_colon_of_letter hd]
  refine ⟨o, rfl, ?_, ?_⟩
  · intro hmem
    have hletter : (Rune.ofChar ':').letter ∈ o.map Rune.letter := List.mem_map_of_mem hmem
    rw [ho] at hletter
    revert hletter
    decide
  · have hlast : (o.map Rune.letter).getLast? = some (Rune.ofChar 'i') := by
      rw [ho]
      decide
    rw [List.getLast?_map, Option.map_eq_some_iff] at hlast
    exact hlast

/-- Behind a text that ends in a character of an id, an id that was begun before ends in the text or
at the blank behind it. -/
theorem head?_behindId_append {e : Rune} (he : s.getLast? = some e) (hrune : isIdRune e = true)
    (h : (behindId (s ++ Rune.ofChar ':' :: rest)).head? ≠ some (Rune.ofChar ']')) (t : Text) :
    (behindId (s ++ (": [" ++ t))).head? ≠ some (Rune.ofChar ']') := by
  have hblank := isBlank_of_isIdRune hrune
  have hstart := Span.dropWhile_ne_nil (List.mem_of_mem_getLast? he) hblank
  have hlast := (Span.getLast?_dropWhile hstart).trans he
  have htrim : ∀ u, Text.trimStart (s ++ u) = Text.trimStart s ++ u :=
    Span.dropWhile_append_of_ne_nil hstart
  by_cases hid : (Text.trimStart s).dropWhile isIdRune = []
  · -- the id reaches the colon
    have hcolon : (": [" ++ t : Text).dropWhile isIdRune = " [" ++ t := by
      exact @Span.dropWhile_append_cons Rune isIdRune [Rune.ofChar ':'] _ _ (by decide) (by decide)
    have hbehind : behindId (s ++ (": [" ++ t)) = "[" ++ t := by
      rw [behindId, htrim, List.dropWhile_append, if_pos (by simpa using hid), hcolon]
      exact @Span.dropWhile_append_cons Rune _ [Rune.ofChar ' '] _ _ (by decide) (by decide)
    rw [hbehind]
    intro hbracket
    exact absurd (Option.some.inj hbracket) (by decide)
  · have hlast' := (Span.getLast?_dropWhile hid).trans hlast
    have hend : Text.trimStart ((Text.trimStart s).dropWhile isIdRune) ≠ [] :=
      Span.dropWhile_ne_nil (List.mem_of_mem_getLast? hlast') hblank
    have hbehind : ∀ u, behindId (s ++ u) =
        Text.trimStart ((Text.trimStart s).dropWhile isIdRune) ++ u := by
      intro u
      rw [behindId, htrim, Span.dropWhile_append_of_ne_nil hid]
      exact Span.dropWhile_append_of_ne_nil hend u
    rw [hbehind] at h ⊢
    rwa [List.head?_append_of_ne_nil _ hend] at h ⊢

/-- A text that ends in a word whose last letter is no I does not make a marker with the new one. -/
theorem read?_append {e : Rune} (he : s.getLast? = some e) (hrune : isIdRune e = true)
    (hcolon : e ≠ Rune.ofChar ':') (hletter : e.letter ≠ Rune.ofChar 'i')
    (h : read? (s ++ Rune.ofChar ':' :: rest) = none) (t : Text) :
    read? (s ++ (": [" ++ t)) = none := by
  rw [read?_eq_none_iff] at h ⊢
  intro r hdrop
  obtain ⟨word, hsplit, hword⟩ := Text.dropWord?_eq_some_iff.mp hdrop
  obtain ⟨o, rfl, ho, d, hd, hi⟩ := split_of_sameWord_opening hword
  have hsplit' : s ++ Rune.ofChar ':' :: (" [" ++ t) = o ++ Rune.ofChar ':' :: r := by
    rw [List.append_assoc] at hsplit
    exact hsplit
  by_cases hmem : Rune.ofChar ':' ∈ s
  · obtain ⟨u, v, rfl, hu⟩ := List.eq_append_cons_of_mem hmem
    have hfirst : u ++ Rune.ofChar ':' :: (v ++ Rune.ofChar ':' :: (" [" ++ t)) =
        o ++ Rune.ofChar ':' :: r := by
      rw [← hsplit']
      simp
    obtain ⟨rfl, rfl⟩ := Span.split_at_first hu ho hfirst
    have hv : v.getLast? = some e := by
      rw [List.getLast?_append, List.getLast?_cons] at he
      cases hvlast : v.getLast? with
      | none =>
          rw [hvlast] at he
          exact absurd (Option.some.inj he).symm hcolon
      | some f =>
          rw [hvlast] at he
          exact he
    refine head?_behindId_append hv hrune (h (v ++ Rune.ofChar ':' :: rest) ?_) t
    exact Text.dropWord?_eq_some_iff.mpr ⟨u ++ [Rune.ofChar ':'], by simp, hword⟩
  · obtain ⟨rfl, -⟩ := Span.split_at_first hmem ho hsplit'
    obtain rfl : e = d := Option.some.inj (he.symm.trans hd)
    exact absurd hi hletter

theorem find?_cons_eq_none_iff : find? (c :: t) = none ↔ read? (c :: t) = none ∧ find? t = none := by
  rw [find?]
  cases read? (c :: t) with
  | none => simp
  | some found => simp

theorem find?_cons (h : read? (c :: t) = none) {before : Text} (hfind : find? t = some (before, id, r)) :
    find? (c :: t) = some (c :: before, id, r) := by
  rw [find?, h, hfind]
  rfl

/-- The marker that is written behind the colon of a word is the first of its line. -/
theorem find?_append {e : Rune} (hid : IsId id) (he : s.getLast? = some e)
    (hrune : isIdRune e = true) (hcolon : e ≠ Rune.ofChar ':')
    (hletter : e.letter ≠ Rune.ofChar 'i')
    (h : find? (s ++ Rune.ofChar ':' :: rest) = none) (t : Text) :
    find? (s ++ (": " ++ (text id ++ t))) = some (s ++ ": ", id, t) := by
  have hshut : ∀ d ∈ (": " : Text), ∀ u, read? (d :: u) = none := by
    intro d hd u
    have hopening : Text.dropWord? opening (d :: u) = none := by
      have hfirst : ∀ d ∈ (": " : Text), (Rune.ofChar '[').letter ≠ d.letter := by decide
      exact if_neg (hfirst d hd)
    exact read?_of_dropWord?_eq_none hopening
  have hbase : find? (Rune.ofChar ':' :: Rune.ofChar ' ' :: (text id ++ t)) =
      some ([Rune.ofChar ':', Rune.ofChar ' '], id, t) :=
    find?_cons (hshut _ (by decide) _) (find?_cons (hshut _ (by decide) _) (find?_text hid t))
  have hread : ∀ u : Text, u.getLast? = some e → read? (u ++ Rune.ofChar ':' :: rest) = none →
      read? (u ++ (": " ++ (text id ++ t))) = none := fun u hu hnone =>
    read?_append hu hrune hcolon hletter hnone _
  induction s with
  | nil => cases he
  | cons c s ih =>
      rw [List.cons_append, find?_cons_eq_none_iff] at h
      have hhere := hread (c :: s) he h.1
      cases s with
      | nil => exact find?_cons hhere hbase
      | cons d s => exact find?_cons hhere (ih he h.2)

/-! ## Markers that are read -/

/-- The text begins with a marker: the opening in some case, the id between blanks, and the bracket that
closes it. -/
def Begins (t word id rest : Text) : Prop :=
  ∃ gap gap', t = word ++ (gap ++ (id ++ (gap' ++ Rune.ofChar ']' :: rest))) ∧
    Text.SameWord word opening ∧ Text.isBlank gap = true ∧ IsId id ∧ Text.isBlank gap' = true

/-- Behind the blanks in front of an id there is the id, or the bracket if there is none. -/
private theorem exists_trimStart_gap {gap gap' : Text} (hgap : Text.isBlank gap = true)
    (hid : IsId id) (hgap' : Text.isBlank gap' = true) (rest : Text) :
    ∃ behind, Text.trimStart (gap ++ (id ++ (gap' ++ Rune.ofChar ']' :: rest))) =
      id ++ (behind ++ Rune.ofChar ']' :: rest) ∧ Text.isBlank behind = true := by
  rw [Text.trimStart_append hgap]
  cases id with
  | nil =>
      refine ⟨[], ?_, rfl⟩
      rw [List.nil_append, Text.trimStart_append hgap']
      exact Text.trimStart_cons (by decide)
  | cons c id =>
      exact ⟨gap', Text.trimStart_cons (isBlank_of_isIdRune (hid c List.mem_cons_self)), hgap'⟩

/-- A marker is read exactly where one begins. -/
theorem read?_eq_some_iff : read? t = some (id, rest) ↔ ∃ word, Begins t word id rest := by
  constructor
  · intro h
    cases hdrop : Text.dropWord? opening t with
    | none =>
        rw [read?_of_dropWord?_eq_none hdrop] at h
        cases h
    | some r =>
        rw [read?_of_dropWord? hdrop] at h
        split_ifs at h with hclosed
        obtain ⟨rfl, rfl⟩ := Prod.mk.inj (Option.some.inj h)
        obtain ⟨word, rfl, hword⟩ := Text.dropWord?_eq_some_iff.mp hdrop
        obtain ⟨rest, hrest⟩ := List.head?_eq_some_iff.mp hclosed
        refine ⟨word, Text.indent r, Text.indent ((Text.trimStart r).dropWhile isIdRune), ?_, hword,
          Text.isBlank_indent _, fun c hc => List.mem_takeWhile_imp hc, Text.isBlank_indent _⟩
        rw [hrest, List.tail_cons, ← hrest, behindId, Text.indent_append_trimStart,
          List.takeWhile_append_dropWhile, Text.indent_append_trimStart]
  · rintro ⟨word, gap, gap', rfl, hword, hgap, hid, hgap'⟩
    have hdrop : Text.dropWord? opening (word ++ (gap ++ (id ++ (gap' ++ Rune.ofChar ']' :: rest)))) =
        some (gap ++ (id ++ (gap' ++ Rune.ofChar ']' :: rest))) :=
      Text.dropWord?_eq_some_iff.mpr ⟨word, rfl, hword⟩
    obtain ⟨behind, htrim, hbehind⟩ := exists_trimStart_gap hgap hid hgap' rest
    have hstop : ∃ c u, behind ++ Rune.ofChar ']' :: rest = c :: u ∧ isIdRune c = false := by
      cases behind with
      | nil => exact ⟨_, _, rfl, by decide⟩
      | cons c behind =>
          refine ⟨_, _, rfl, ?_⟩
          have hblank := Text.isBlank_iff.mp hbehind c List.mem_cons_self
          rw [isIdRune, hblank, Bool.not_true, Bool.and_false]
    obtain ⟨c, u, hcons, hc⟩ := hstop
    have hrest : behindId (gap ++ (id ++ (gap' ++ Rune.ofChar ']' :: rest))) =
        Rune.ofChar ']' :: rest := by
      rw [behindId, htrim, hcons, Span.dropWhile_append_cons hid hc, ← hcons,
        Text.trimStart_append hbehind]
      exact Text.trimStart_cons (by decide)
    rw [read?_of_dropWord? hdrop, hrest, if_pos List.head?_cons, htrim, hcons,
      Span.takeWhile_append_cons hid hc, List.tail_cons]

/-- The marker that is found begins behind what stands before it. -/
theorem exists_begins_of_find? {before : Text} (h : find? t = some (before, id, rest)) :
    ∃ u word, t = before ++ u ∧ Begins u word id rest := by
  induction t generalizing before with
  | nil => cases h
  | cons c t ih =>
      rw [find?] at h
      cases hread : read? (c :: t) with
      | some found =>
          rw [hread] at h
          obtain ⟨rfl, hfound⟩ := Prod.mk.inj (Option.some.inj h)
          obtain ⟨word, hbegins⟩ := read?_eq_some_iff.mp (hread.trans (congrArg some hfound))
          exact ⟨_, word, rfl, hbegins⟩
      | none =>
          rw [hread] at h
          obtain ⟨⟨before', id', rest'⟩, hfind, hsame⟩ := Option.map_eq_some_iff.mp h
          obtain ⟨rfl, hfound⟩ := Prod.mk.inj hsame
          obtain ⟨rfl, rfl⟩ := Prod.mk.inj hfound
          obtain ⟨u, word, rfl, hbegins⟩ := ih hfind
          exact ⟨u, word, rfl, hbegins⟩

/-- What is left when a marker is taken out was there before. -/
theorem mem_of_mem_remove (h : c ∈ remove t) : c ∈ t := by
  rw [remove] at h
  split at h
  · rename_i before id rest hfind
    obtain ⟨u, word, rfl, gap, gap', rfl, -⟩ := exists_begins_of_find? hfind
    rcases List.mem_append.mp h with h | h
    · simp [h]
    · simp [h]
  · exact h

theorem find?_eq_none_iff : find? t = none ↔ ∀ s u, t = s ++ u → read? u = none := by
  induction t with
  | nil =>
      have hnil : read? [] = none := by decide
      constructor
      · intro _ s u hsplit
        rw [(List.append_eq_nil_iff.mp hsplit.symm).2, hnil]
      · intro _
        rfl
  | cons c t ih =>
      rw [find?_cons_eq_none_iff, ih]
      constructor
      · rintro ⟨hhere, hlater⟩ s u hsplit
        cases s with
        | nil => exact (congrArg read? hsplit).symm.trans hhere
        | cons d s => exact hlater s u (List.cons.inj hsplit).2
      · intro h
        exact ⟨h [] _ rfl, fun s u hsplit => h (c :: s) u (by rw [hsplit]; rfl)⟩

/-! ## Lines that count as marked -/

theorem isBegun_iff : isBegun t = true ↔ opening <:+: Text.lower t := Text.includes_iff

/-- A line with a written marker counts as marked. -/
theorem isBegun_append (s id t : Text) : isBegun (s ++ (text id ++ t)) = true := by
  have hopening : ∀ c ∈ opening, c.code ≠ 0x3A3 ∧ c.lower = [c] := by decide
  have htext : text id ++ t = opening ++ (id ++ "]" ++ t) := by
    simp only [text, List.append_assoc]
  obtain ⟨front, hfront⟩ := Text.lowerAfter_append [] s (text id ++ t)
  rw [isBegun_iff, Text.lower, hfront, htext, Text.lowerAfter_of_lower hopening]
  exact ⟨front, _, by rw [List.append_assoc]⟩

/-- A byte order mark in front of a line makes no difference. -/
theorem isBegun_bom_cons (t : Text) : isBegun (Rune.bom :: t) = isBegun t := by
  have hsees : Text.seesCased [Rune.bom] = false := by decide +kernel
  have hlower : Text.lower (Rune.bom :: t) = Rune.bom :: Text.lower t := by
    have hbom : Rune.bom.code ≠ 0x3A3 ∧ Rune.bom.lower = [Rune.bom] := by decide +kernel
    rw [Text.lower, Text.lowerAfter, if_neg hbom.1, hbom.2]
    exact congrArg _ (Text.lowerAfter_concat hsees [] t)
  have hstart : Text.startsWith (Rune.bom :: Text.lower t) opening = false := rfl
  rw [isBegun, isBegun, hlower, Text.includes, hstart, Bool.false_or]

end TodoLedger.Marker
