import Mathlib.Data.List.Forall2
import TodoLedger.Glob
import TodoLedger.Proofs.Text.Search
/-!
# What a glob pattern matches

A pattern matches a path when the segments of the path can be cut into blocks, one for each segment of
the pattern in order: `**` takes any block, and any other segment a block of one segment that it fits.
A wildcard segment fits another in the same way, by a cut of its characters into blocks, one for each
piece of the wildcard. The matching tries the blocks of a `**` and of a `*` one after the other.
-/

namespace TodoLedger.Glob

/-! ## Cuts into blocks -/

section Cuts

variable {α β : Type} {takes : α → List β → Prop} {p : α} {ps qs : List α} {l : List β}

/-- The list can be cut into blocks, one for each of the takers, which are taken by these in order. -/
def Cuts (takes : α → List β → Prop) (ps : List α) (l : List β) : Prop :=
  ∃ blocks : List (List β), List.Forall₂ takes ps blocks ∧ blocks.flatten = l

theorem cuts_nil_iff : Cuts takes [] l ↔ l = [] := by
  simp [Cuts, eq_comm]

theorem cuts_cons_iff : Cuts takes (p :: ps) l ↔
    ∃ block rest, takes p block ∧ Cuts takes ps rest ∧ block ++ rest = l := by
  constructor
  · rintro ⟨blocks, hblocks, rfl⟩
    cases hblocks with
    | cons hblock hrest => exact ⟨_, _, hblock, ⟨_, hrest, rfl⟩, rfl⟩
  · rintro ⟨block, rest, hblock, ⟨blocks, hblocks, rfl⟩, rfl⟩
    exact ⟨block :: blocks, .cons hblock hblocks, rfl⟩

theorem cuts_append_iff : Cuts takes (ps ++ qs) l ↔
    ∃ front back, Cuts takes ps front ∧ Cuts takes qs back ∧ front ++ back = l := by
  induction ps generalizing l with
  | nil => simp [cuts_nil_iff]
  | cons p ps ih =>
      rw [List.cons_append, cuts_cons_iff]
      constructor
      · rintro ⟨block, rest, hblock, hrest, rfl⟩
        obtain ⟨front, back, hfront, hback, rfl⟩ := ih.mp hrest
        exact ⟨block ++ front, back, cuts_cons_iff.mpr ⟨block, front, hblock, hfront, rfl⟩, hback,
          List.append_assoc _ _ _⟩
      · rintro ⟨front, back, hfront, hback, rfl⟩
        obtain ⟨block, rest, hblock, hrest, rfl⟩ := cuts_cons_iff.mp hfront
        exact ⟨block, rest ++ back, hblock, ih.mpr ⟨rest, back, hrest, hback, rfl⟩,
          (List.append_assoc _ _ _).symm⟩

/-- A taker of exactly one element takes the first. -/
theorem cuts_cons_iff_of_single {Q : β → Prop} (h : ∀ block, takes p block ↔ ∃ b, block = [b] ∧ Q b) :
    Cuts takes (p :: ps) l ↔ ∃ b rest, l = b :: rest ∧ Q b ∧ Cuts takes ps rest := by
  rw [cuts_cons_iff]
  constructor
  · rintro ⟨block, rest, hblock, hrest, rfl⟩
    obtain ⟨b, rfl, hb⟩ := (h block).mp hblock
    exact ⟨b, rest, rfl, hb, hrest⟩
  · rintro ⟨b, rest, rfl, hb, hrest⟩
    exact ⟨[b], rest, (h [b]).mpr ⟨b, rfl, hb⟩, hrest, rfl⟩

theorem mem_suffixes_iff {rest : List β} : rest ∈ suffixes l ↔ rest <:+ l := by
  induction l with
  | nil => simp [suffixes]
  | cons b l ih => rw [suffixes, List.mem_cons, ih, List.suffix_cons_iff]

/-- A taker of any block leaves an end of the list. -/
theorem any_suffixes_iff {f : List β → Bool} (hf : ∀ l, f l = true ↔ Cuts takes ps l)
    (hp : ∀ block, takes p block) : (suffixes l).any f = true ↔ Cuts takes (p :: ps) l := by
  rw [List.any_eq_true, cuts_cons_iff]
  constructor
  · rintro ⟨rest, hrest, hmatch⟩
    obtain ⟨block, rfl⟩ := mem_suffixes_iff.mp hrest
    exact ⟨block, rest, hp block, (hf rest).mp hmatch, rfl⟩
  · rintro ⟨block, rest, -, hrest, rfl⟩
    exact ⟨rest, mem_suffixes_iff.mpr (List.suffix_append _ _), (hf rest).mpr hrest⟩

end Cuts

/-! ## One segment -/

/-- The characters that a piece of a wildcard takes. -/
inductive Piece.Takes : Piece → Text → Prop
  | star {t : Text} : Takes .star t
  | one {c : Rune} : Takes .one [c]
  | rune {c : Rune} : Takes (.rune c) [c]
  | set {s : CharSet} {c : Rune} : s.has c = true → Takes (.set s) [c]

theorem matchPieces_iff {ps : List Piece} {t : Text} :
    matchPieces ps t = true ↔ Cuts Piece.Takes ps t := by
  induction ps generalizing t with
  | nil => rw [matchPieces, List.isEmpty_iff, cuts_nil_iff]
  | cons p ps ih =>
      cases p with
      | star =>
          rw [matchPieces]
          exact any_suffixes_iff (fun _ => ih) fun _ => .star
      | one =>
          rw [cuts_cons_iff_of_single (Q := fun _ => True) fun block => ?_]
          · cases t <;> simp [matchPieces, ih]
          · constructor
            · rintro ⟨⟩
              exact ⟨_, rfl, trivial⟩
            · rintro ⟨c, rfl, -⟩
              exact .one
      | rune d =>
          rw [cuts_cons_iff_of_single (Q := (· = d)) fun block => ?_]
          · cases t <;> simp [matchPieces, ih]
          · constructor
            · rintro ⟨⟩
              exact ⟨_, rfl, rfl⟩
            · rintro ⟨c, rfl, rfl⟩
              exact .rune
      | set s =>
          rw [cuts_cons_iff_of_single (Q := (s.has · = true)) fun block => ?_]
          · cases t <;> simp [matchPieces, ih]
          · constructor
            · rintro ⟨⟩
              exact ⟨_, rfl, ‹_›⟩
            · rintro ⟨c, rfl, hc⟩
              exact .set hc

/-- A segment of a pattern fits a segment of a path. -/
inductive Fits : Text → Text → Prop
  | any {segment : Text} : Fits anySegment segment
  | wildcard {pattern segment : Text} : pattern.any isWildcard = true →
      Cuts Piece.Takes (piecesFrom 0 (Text.lower pattern)) (Text.lower segment) →
      Fits pattern segment
  | word {pattern segment : Text} : pattern.any isWildcard = false →
      Text.lower segment = Text.lower pattern → Fits pattern segment

theorem matchSegment_iff {pattern segment : Text} :
    matchSegment pattern segment = true ↔ Fits pattern segment := by
  rw [matchSegment]
  constructor
  · intro h
    split_ifs at h with hany hwild
    · exact hany ▸ .any
    · exact .wildcard hwild (matchPieces_iff.mp h)
    · exact .word (Bool.eq_false_iff.mpr hwild) (of_decide_eq_true h)
  · rintro (_ | ⟨hwild, hcuts⟩ | ⟨hword, hsame⟩)
    · rw [if_pos rfl]
    · split_ifs
      · rfl
      · exact matchPieces_iff.mpr hcuts
    · split_ifs with hany hwild
      · rfl
      · rw [hword] at hwild
        cases hwild
      · exact decide_eq_true hsame

/-! ## All segments -/

/-- The segments of a path that a segment of a pattern takes. -/
inductive Takes : Text → List Text → Prop
  | many {block : List Text} : Takes anySegments block
  | one {pattern segment : Text} : pattern ≠ anySegments → Fits pattern segment →
      Takes pattern [segment]

theorem matchSegments_iff {ps path : List Text} :
    matchSegments ps path = true ↔ Cuts Takes ps path := by
  induction ps generalizing path with
  | nil => rw [matchSegments, List.isEmpty_iff, cuts_nil_iff]
  | cons p ps ih =>
      rw [matchSegments.eq_def]
      by_cases hmany : p = anySegments
      · subst hmany
        exact any_suffixes_iff (fun _ => ih) fun _ => .many
      · rw [cuts_cons_iff_of_single (Q := Fits p) fun block => ?_]
        · cases path <;> simp [hmany, matchSegment_iff, ih]
        · constructor
          · rintro (_ | ⟨-, hfits⟩)
            · exact absurd rfl hmany
            · exact ⟨_, rfl, hfits⟩
          · rintro ⟨s, rfl, hfits⟩
            exact .one hmany hfits

/-- Two `**` side by side take what one takes. -/
theorem cuts_repeated_iff {ps qs path : List Text} :
    Cuts Takes (ps ++ anySegments :: anySegments :: qs) path ↔
      Cuts Takes (ps ++ anySegments :: qs) path := by
  have htwo : ∀ path, Cuts Takes (anySegments :: anySegments :: qs) path ↔
      Cuts Takes (anySegments :: qs) path := by
    intro path
    constructor
    · intro h
      obtain ⟨block, rest, -, hrest, rfl⟩ := cuts_cons_iff.mp h
      obtain ⟨block', rest', -, hrest', rfl⟩ := cuts_cons_iff.mp hrest
      exact cuts_cons_iff.mpr ⟨block ++ block', rest', .many, hrest', List.append_assoc _ _ _⟩
    · exact fun h => cuts_cons_iff.mpr ⟨[], path, .many, h, rfl⟩
  simp only [cuts_append_iff, htwo]

/-! ## Spellings of a path -/

def IsSeparator (c : Rune) : Prop := c = '/' ∨ c = '\\'

instance (c : Rune) : Decidable (IsSeparator c) := inferInstanceAs (Decidable (_ ∨ _))

variable {a b : Text} {c d : Rune}

theorem segments_append_cons (hc : IsSeparator c) (a b : Text) :
    segments (a ++ c :: b) = segments a ++ segments b := by
  have hmap : Text.mapChar '\\' '/' (a ++ c :: b) =
      Text.mapChar '\\' '/' a ++ Rune.ofChar '/' :: Text.mapChar '\\' '/' b := by
    rcases hc with rfl | rfl <;> simp [Text.mapChar]
  rw [segments, hmap, Text.splitAt_append_cons, List.filter_append]
  rfl

theorem segments_nil : segments [] = [] := rfl

/-- The other text has the separators of the first, of either kind, and maybe another one that cuts off
an empty segment. -/
inductive Respelled : Text → Text → Prop
  | exchanged {a b : Text} {c d : Rune} : IsSeparator c → IsSeparator d →
      Respelled (a ++ c :: b) (a ++ d :: b)
  | doubled {a b : Text} {c d : Rune} : IsSeparator c → IsSeparator d →
      Respelled (a ++ c :: b) (a ++ c :: d :: b)
  | leading {a : Text} {c : Rune} : IsSeparator c → Respelled a (c :: a)
  | trailing {a : Text} {c : Rune} : IsSeparator c → Respelled a (a ++ [c])

theorem Respelled.segments_eq {s t : Text} (h : Respelled s t) : segments s = segments t := by
  cases h with
  | exchanged hc hd => rw [segments_append_cons hc, segments_append_cons hd]
  | @doubled a b c d hc hd =>
      have hempty := segments_append_cons hd [] b
      rw [List.nil_append, segments_nil, List.nil_append] at hempty
      rw [segments_append_cons hc, segments_append_cons hc, hempty]
  | @leading a c hc => exact (segments_append_cons hc [] s).symm
  | trailing hc => rw [segments_append_cons hc, segments_nil, List.append_nil]

/-- Whole segments stand in front of the place between the two texts, and behind it. -/
def IsBoundary (a b : Text) : Prop :=
  (∀ c, a.getLast? = some c → IsSeparator c) ∧ ∀ c, b.head? = some c → IsSeparator c

/-- The other pattern has a `**` twice that the first has once. -/
inductive Repeated : Text → Text → Prop
  | mk {a b : Text} {c : Rune} : IsBoundary a b → IsSeparator c →
      Repeated (a ++ (anySegments ++ b)) (a ++ (anySegments ++ c :: (anySegments ++ b)))

theorem segments_between (h : IsBoundary a b) (s : Text) :
    segments (a ++ (s ++ b)) = segments a ++ (segments s ++ segments b) := by
  have hback : segments (s ++ b) = segments s ++ segments b := by
    cases b with
    | nil => rw [segments_nil, List.append_nil, List.append_nil]
    | cons c b =>
        have hc := h.2 c rfl
        have hempty := segments_append_cons hc [] b
        rw [List.nil_append, segments_nil, List.nil_append] at hempty
        rw [segments_append_cons hc, hempty]
  rcases List.eq_nil_or_concat a with rfl | ⟨a, c, rfl⟩
  · rw [List.nil_append, hback, segments_nil, List.nil_append]
  · rw [List.concat_eq_append] at h ⊢
    have hc := h.1 c List.getLast?_concat
    rw [List.append_assoc, List.singleton_append, segments_append_cons hc, hback,
      segments_append_cons hc, segments_nil, List.append_nil]

theorem Repeated.segments_eq {s t : Text} (h : Repeated s t) : ∃ ps qs,
    segments s = ps ++ anySegments :: qs ∧ segments t = ps ++ anySegments :: anySegments :: qs := by
  cases h with
  | @mk a b c hboundary hc =>
      have hone : segments anySegments = [anySegments] := by decide
      have htwo := segments_append_cons hc anySegments anySegments
      refine ⟨segments a, segments b, ?_, ?_⟩
      · rw [segments_between hboundary, hone]
        rfl
      · rw [← List.cons_append, ← List.append_assoc anySegments, segments_between hboundary, htwo, hone]
        rfl

/-- A pattern matches a path if and only if the segments can be cut into blocks, and the answer depends
on the segments only, however often a `**` is repeated. -/
theorem matchesPath_iff_cuts (pattern path : Text) :
    (matchesPath pattern path = true ↔ Cuts Takes (segments pattern) (segments path)) ∧
      (∀ pattern', Repeated pattern pattern' ∨ Respelled pattern pattern' →
        matchesPath pattern' path = matchesPath pattern path) ∧
      ∀ path', Respelled path path' → matchesPath pattern path' = matchesPath pattern path := by
  refine ⟨matchSegments_iff, ?_, fun path' h => by rw [matchesPath, ← h.segments_eq, matchesPath]⟩
  rintro pattern' (h | h)
  · obtain ⟨ps, qs, honce, htwice⟩ := h.segments_eq
    rw [Bool.eq_iff_iff, matchesPath, matchesPath, matchSegments_iff, matchSegments_iff, honce, htwice]
    exact cuts_repeated_iff
  · rw [matchesPath, ← h.segments_eq, matchesPath]

/-- All below a directory, whatever the case of its name. -/
theorem matchesPath_iff_cuts_build :
    Repeated "build/**" "build/**\\**" ∧ Respelled "build/**" "build//**" ∧
      Respelled "Build\\x.o" "Build/x.o" ∧
      Cuts Takes (segments "build/**") (segments "Build\\x.o") ∧
      matchesPath "build/**\\**" "Build\\x.o" = true ∧
      matchesPath "build//**" "Build\\x.o" = true ∧ matchesPath "build/**" "Build/x.o" = true := by
  have hslash : IsSeparator '/' := by decide
  have hbackslash : IsSeparator '\\' := by decide
  have hboundary : IsBoundary "build/" [] :=
    ⟨fun c hc => Option.some.inj hc ▸ hslash, fun c hc => by cases hc⟩
  have hrepeated : Repeated "build/**" "build/**\\**" := .mk hboundary hbackslash
  have hdoubled : Respelled "build/**" "build//**" := .doubled (a := "build") (b := "**") hslash hslash
  have hexchanged : Respelled "Build\\x.o" "Build/x.o" :=
    .exchanged (a := "Build") (b := "x.o") hbackslash hslash
  have hmatches : matchesPath "build/**" "Build\\x.o" = true := by decide +kernel
  obtain ⟨hiff, hpattern, hpath⟩ := matchesPath_iff_cuts "build/**" "Build\\x.o"
  exact ⟨hrepeated, hdoubled, hexchanged, hiff.mp hmatches,
    (hpattern _ (Or.inl hrepeated)).trans hmatches, (hpattern _ (Or.inr hdoubled)).trans hmatches,
    (hpath _ hexchanged).trans hmatches⟩

end TodoLedger.Glob
