import TodoLedger.Proofs.Backup.Retention
/-!
# Names of backups

The stamps of moments from the year 1000 on are in the order of the moments, and so are the names of
the backups of one file. The backup of a file is not taken for one of another file, unless the name
of the one starts with the stem of the other.
-/

namespace TodoLedger

/-- The parts of a moment, the most significant first. -/
def DateTime.parts (t : DateTime) : List Nat :=
  [t.year, t.month, t.day, t.hour, t.minute, t.second, t.micro]

namespace Backups

variable {name other : Text} {t u : DateTime}

private theorem before_padded_append {width n m : Nat} {s r : Text} (hwidth : 0 < width)
    (hn : n < 10 ^ width) (hm : m < 10 ^ width) (h : n < m ∨ n = m ∧ Text.Before s r) :
    Text.Before (Text.padded width n ++ s) (Text.padded width m ++ r) := by
  rcases h with hlt | ⟨rfl, hrest⟩
  · apply (Text.before_padded hwidth hlt hm).append
    rw [Text.length_padded hwidth hn, Text.length_padded hwidth hm]
  · exact Text.before_append_left.mpr hrest

theorem stampOf_eq (h : 1000 ≤ t.year) : stampOf t =
    Text.padded 4 t.year ++ (Text.padded 2 t.month ++ (Text.padded 2 t.day ++ ("-" ++
      (Text.padded 2 t.hour ++ (Text.padded 2 t.minute ++ (Text.padded 2 t.second ++ ("-" ++
        Text.padded 6 t.micro))))))) := by
  rw [stampOf, DateTime.dateDigits, DateTime.timeDigits, @Text.padded_of_le t.year 3 (by decide) h]
  simp only [List.append_assoc]

/-- Stamps from the year 1000 on are in the order of their moments. -/
theorem before_stampOf (ht : 1000 ≤ t.year) (hu : 1000 ≤ u.year) (h : t.parts < u.parts) :
    Text.Before (stampOf t) (stampOf u) := by
  obtain ⟨hy, hmo, hd, hh, hmi, hs, hmu⟩ := t.parts_lt
  obtain ⟨hy', hmo', hd', hh', hmi', hs', hmu'⟩ := u.parts_lt
  simp only [DateTime.parts, List.cons_lt_cons_iff, List.not_lt_nil, and_false, or_false] at h
  rw [stampOf_eq ht, stampOf_eq hu]
  refine before_padded_append (by decide) hy hy' (h.imp_right (And.imp_right fun h => ?_))
  refine before_padded_append (by decide) hmo hmo' (h.imp_right (And.imp_right fun h => ?_))
  refine before_padded_append (by decide) hd hd' (h.imp_right (And.imp_right fun h => ?_))
  refine Text.before_append_left.mpr ?_
  refine before_padded_append (by decide) hh hh' (h.imp_right (And.imp_right fun h => ?_))
  refine before_padded_append (by decide) hmi hmi' (h.imp_right (And.imp_right fun h => ?_))
  refine before_padded_append (by decide) hs hs' (h.imp_right (And.imp_right fun h => ?_))
  exact Text.before_append_left.mpr (Text.before_padded (by decide) h hmu')

theorem before_fileName (ht : 1000 ≤ t.year) (hu : 1000 ≤ u.year) (h : t.parts < u.parts) :
    Text.Before (fileName name t) (fileName name u) :=
  Text.before_append_left.mpr (before_stampOf ht hu h)

/-! ## Stems -/

/-- What follows the dot of a stem, up to the end of the name of a backup. -/
private def afterDot (t : DateTime) : Text := "backup-" ++ stampOf t

private theorem noDot_afterDot (t : DateTime) : Rune.ofChar '.' ∉ afterDot t := by
  have hdigit : ∀ c : Rune, c.IsDigit → c ≠ Rune.ofChar '.' := fun c hc => hc.ne (by decide)
  intro h
  simp only [afterDot, stampOf, List.mem_append] at h
  rcases h with h | (((h | h) | h) | h) | h
  · exact absurd h (by decide)
  · exact hdigit _ (DateTime.isDigit_of_mem_dateDigits h) rfl
  · exact absurd h (by decide)
  · exact hdigit _ (DateTime.isDigit_of_mem_timeDigits h) rfl
  · exact absurd h (by decide)
  · exact hdigit _ (Text.isDigit_of_mem_padded h) rfl

/-- A backup of one file is taken for one of another only if the one's name starts with the other's
stem. -/
theorem eq_or_stem_isPrefix (h : stem other <+: fileName name t) :
    other = name ∨ stem other <+: name := by
  have hword : Rune.ofChar '.' ∉ ("backup-" : Text) := by decide
  have hstem : ∀ n, stem n = n ++ Rune.ofChar '.' :: ("backup-" : Text) := fun _ => rfl
  obtain ⟨tail, htail⟩ := h
  have hsplit : other ++ Rune.ofChar '.' :: (("backup-" : Text) ++ tail) =
      name ++ Rune.ofChar '.' :: afterDot t := by
    rw [hstem, fileName, hstem] at htail
    simpa [afterDot] using htail
  rcases List.append_eq_append_iff.mp hsplit with ⟨rest, hname, hrest⟩ | ⟨rest, hname, hrest⟩
  · cases rest with
    | nil => exact Or.inl (by simpa using hname.symm)
    | cons c rest =>
        -- The name goes on with the dot of the stem, and with the word behind it.
        rw [List.cons_append, List.cons.injEq] at hrest
        obtain ⟨rfl, hword'⟩ := hrest
        rcases List.append_eq_append_iff.mp hword' with ⟨more, hmore, -⟩ | ⟨more, hmore, hdot⟩
        · exact Or.inr ⟨more, by simp [hstem, hname, hmore]⟩
        · cases more with
          | nil => exact Or.inr ⟨[], by simp [hstem, hname, hmore]⟩
          | cons d more =>
              obtain ⟨rfl, -⟩ := List.cons.inj hdot
              exact absurd (by simp [hmore]) hword
  · cases rest with
    | nil => exact Or.inl (by simpa using hname)
    | cons c rest =>
        rw [List.cons_append, List.cons.injEq] at hrest
        exact absurd (by simp [hrest.2]) (noDot_afterDot t)

end Backups

end TodoLedger
