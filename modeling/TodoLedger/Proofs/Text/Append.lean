import TodoLedger.Document.Storage
import TodoLedger.Proofs.Text.Cut
/-!
# Adding lines to a text

Lines that are put behind a text with a line feed, where its last line is open, leave the lines of the
text and are its next lines. A byte order mark alone makes one line more.
-/

namespace TodoLedger

open Utf8

namespace Text

variable {t u : Text} {c : Rune} {ls : List Line}

/-- What has to stand between a text and a line behind it. -/
def gap (t : Text) : Text :=
  match t.getLast? with
  | none => []
  | some c => if c.isLineEnd then [] else [Rune.ofChar '\n']

theorem gap_cases (t : Text) : gap t = [] ∨ gap t = [Rune.ofChar '\n'] := by
  rw [gap]
  split
  · exact Or.inl rfl
  · split_ifs
    · exact Or.inl rfl
    · exact Or.inr rfl

theorem gap_append (hne : u ≠ []) (t : Text) : gap (t ++ u) = gap u := by
  have hlast : u.getLast? = some (u.getLast hne) := List.getLast?_eq_some_getLast hne
  rw [gap, gap, List.getLast?_append, hlast]
  rfl

theorem gap_cons (hne : t ≠ []) (c : Rune) : gap (c :: t) = gap t :=
  gap_append hne [c]

theorem gap_of_endFree (hne : t ≠ []) (h : EndFree t) : gap t = [Rune.ofChar '\n'] := by
  have hlast : t.getLast? = some (t.getLast hne) := List.getLast?_eq_some_getLast hne
  rw [gap, hlast]
  simp only [h _ (List.getLast_mem hne), Bool.false_eq_true, if_false]

/-- With what has to stand before it a stable text stays stable, and starts with no escaped byte if it
did not before. -/
theorem isStable_gap_append (hu : IsStable u) (hhead : ∀ c, u.head? = some c → isEscape c = false)
    (t : Text) : IsStable (gap t ++ u) ∧ ∀ c, (gap t ++ u).head? = some c → isEscape c = false := by
  rcases gap_cases t with hgap | hgap
  · rw [hgap]
    exact ⟨hu, hhead⟩
  · rw [hgap]
    refine ⟨(isStable_cons (by decide) (by decide)).mpr hu, fun c hc => ?_⟩
    obtain rfl := Option.some.inj hc
    decide

theorem gap_text {l : Line} (h : l.ending ≠ .open) : gap l.text = [] := by
  have hne : l.ending.text ≠ [] := by
    cases hending : l.ending <;> simp_all [Ending.text]
  rw [Line.text, gap_append hne]
  cases hending : l.ending with
  | «open» => exact absurd hending h
  | lf => decide
  | cr => decide
  | crlf => decide

private theorem ofLines_ne_nil {l : Line} (h : WellCut (l :: ls)) : ofLines (l :: ls) ≠ [] := by
  have hopened := h.opened l (by simp)
  rw [ofLines_cons, Line.text]
  cases hending : l.ending with
  | «open» => simp [hopened hending]
  | lf => simp [Ending.text]
  | cr => simp [Ending.text]
  | crlf => simp [Ending.text]

private theorem head?_append_gap (h : WellCut ls) (hu : u.head? ≠ some (Rune.ofChar '\n'))
    (hls : ls.head? ≠ some ⟨[], .lf⟩) :
    (ofLines ls ++ (gap (ofLines ls) ++ u)).head? ≠ some (Rune.ofChar '\n') := by
  cases ls with
  | nil => exact hu
  | cons l ls =>
      have hhead := head?_ofLines_ne h hls
      obtain ⟨d, r, hcons⟩ := List.exists_cons_of_ne_nil (ofLines_ne_nil h)
      rw [hcons] at hhead ⊢
      exact hhead

private theorem exists_lines_ofLines_append (h : WellCut ls)
    (hu : u.head? ≠ some (Rune.ofChar '\n')) :
    ∃ closed : List Line, lines (ofLines ls ++ (gap (ofLines ls) ++ u)) = closed ++ lines u ∧
      closed.map Line.body = ls.map Line.body := by
  induction h with
  | nil => exact ⟨[], rfl, rfl⟩
  | @last body hne hfree =>
      have htext : ofLines [⟨body, .open⟩] = body := by simp [Line.text, Ending.text]
      have hline : body ++ ([Rune.ofChar '\n'] ++ u) = Line.text ⟨body, .lf⟩ ++ u := by
        simp [Line.text, Ending.text]
      rw [htext, gap_of_endFree hne hfree, hline, lines_text_append hfree (by simp) (by simp)]
      exact ⟨[⟨body, .lf⟩], rfl, rfl⟩
  | @cons l ls hfree hends hreturn hls ih =>
      obtain ⟨closed, hclosed, hbodies⟩ := ih
      have hgap : gap (ofLines (l :: ls)) = gap (ofLines ls) := by
        cases ls with
        | nil => rw [ofLines_cons, ofLines_nil, List.append_nil, gap_text hends]; rfl
        | cons m ls => rw [ofLines_cons, gap_append (ofLines_ne_nil hls)]
      rw [hgap, ofLines_cons, List.append_assoc, lines_text_append hfree hends
        fun hcr => head?_append_gap hls hu (hreturn hcr), hclosed]
      exact ⟨l :: closed, rfl, by rw [List.map_cons, hbodies, List.map_cons]⟩

/-- Lines behind a text leave its lines alone, but for the end of the last one. -/
theorem exists_lines_append (hu : u.head? ≠ some (Rune.ofChar '\n')) (t : Text) :
    ∃ closed : List Line, lines (t ++ (gap t ++ u)) = closed ++ lines u ∧
      closed.map Line.body = bodies t := by
  have happend := exists_lines_ofLines_append (wellCut_lines t) hu
  rwa [ofLines_lines] at happend

theorem bodies_append (hu : u.head? ≠ some (Rune.ofChar '\n')) (t : Text) :
    bodies (t ++ (gap t ++ u)) = bodies t ++ bodies u := by
  obtain ⟨closed, hclosed, hbodies⟩ := exists_lines_append hu t
  rw [bodies, hclosed, List.map_append, hbodies]
  rfl

/-- The same behind a byte order mark; if that is all, an empty line stands between. -/
theorem bodies_dropBom_append (hu : u.head? ≠ some (Rune.ofChar '\n'))
    (hbom : u.head? ≠ some Rune.bom) (t : Text) :
    bodies (dropBom (t ++ (gap t ++ u))) = bodies (dropBom t) ++ bodies u ∨
      dropBom t = [] ∧ bodies (dropBom (t ++ (gap t ++ u))) = [] :: bodies u := by
  cases t with
  | nil =>
      left
      have hdrop : dropBom u = u := by
        cases u with
        | nil => rfl
        | cons d u => rw [dropBom, if_neg fun hd => hbom (congrArg some hd)]
      exact congrArg bodies hdrop
  | cons c t =>
      by_cases hc : c = Rune.bom
      · subst hc
        have hdrop : ∀ r : Text, dropBom (Rune.bom :: r) = r := fun r => by rw [dropBom, if_pos rfl]
        rw [List.cons_append, hdrop, hdrop]
        by_cases hne : t = []
        · right
          subst hne
          have hgap : gap [Rune.bom] = [Rune.ofChar '\n'] := by decide
          have hline : [] ++ ([Rune.ofChar '\n'] ++ u) = Line.text ⟨[], .lf⟩ ++ u := rfl
          refine ⟨rfl, ?_⟩
          rw [hgap, hline, bodies, lines_text_append endFree_nil (by simp) (by simp)]
          rfl
        · left
          rw [gap_cons hne]
          exact bodies_append hu t
      · left
        have hdrop : ∀ r : Text, dropBom (c :: r) = c :: r := fun r => by rw [dropBom, if_neg hc]
        rw [List.cons_append, hdrop, hdrop]
        exact bodies_append hu (c :: t)

end Text

/-! ## The end of a file -/

private theorem isLineEnd_of_code {c : Rune} : c.isLineEnd = (c.code = 10 || c.code = 13) := by
  have hlf : c = Rune.ofChar '\n' ↔ c.code = 10 := ⟨fun h => h ▸ rfl, fun h => Rune.ext h⟩
  have hcr : c = Rune.ofChar '\r' ↔ c.code = 13 := ⟨fun h => h ▸ rfl, fun h => Rune.ext h⟩
  rw [Rune.isLineEnd]
  simp only [hlf, hcr]

/-- A character ends a line exactly if the last of its bytes does. -/
private theorem endsLine_append_encodeRune (s : Bytes) (c : Rune) :
    endsLine (s ++ encodeRune c) = c.isLineEnd := by
  rw [isLineEnd_of_code]
  rcases encodeRune_cases c with ⟨hcode, hbytes⟩ | ⟨hcode, hne, hbytes⟩
  · have hbyte : ∀ n < 0x80, UInt8.ofNat c.code = UInt8.ofNat n ↔ c.code = n := by
      intro n hn
      rw [← UInt8.toNat_inj, UInt8.toNat_ofNat', UInt8.toNat_ofNat', Nat.mod_eq_of_lt (by omega),
        Nat.mod_eq_of_lt (by omega)]
    have hten : UInt8.ofNat c.code = 10 ↔ c.code = 10 := hbyte 10 (by decide)
    have hthirteen : UInt8.ofNat c.code = 13 ↔ c.code = 13 := hbyte 13 (by decide)
    rw [hbytes, endsLine, List.getLast?_concat]
    simp only [hten, hthirteen]
  · have hlast : (s ++ encodeRune c).getLast? = some ((encodeRune c).getLast hne) := by
      rw [List.getLast?_append, List.getLast?_eq_some_getLast hne]
      rfl
    have hhigh := hbytes _ (List.getLast_mem hne)
    have hbyte : ∀ b : UInt8, b.toNat < 0x80 → (encodeRune c).getLast hne ≠ b := by
      intro b hb heq
      rw [heq] at hhigh
      omega
    have hten : c.code ≠ 10 := by omega
    have hthirteen : c.code ≠ 13 := by omega
    rw [endsLine, hlast]
    simp only [hbyte 10 (by decide), hbyte 13 (by decide), hten, hthirteen]

/-- Whether a file ends a line can be seen at its last byte. -/
theorem gap_decode (bytes : Bytes) :
    (if endsLine bytes then "" else "\n" : Text) = Text.gap (decode bytes) := by
  have hbytes : bytesOf (decode bytes) = bytes := bytesOf_decode bytes
  generalize decode bytes = t at hbytes
  subst hbytes
  rcases List.eq_nil_or_concat t with rfl | ⟨s, c, rfl⟩
  · rfl
  · rw [List.concat_eq_append]
    have hlast : (s ++ [c]).getLast? = some c := List.getLast?_concat
    have hsplit : bytesOf (s ++ [c]) = bytesOf s ++ encodeRune c := by
      rw [bytesOf_append, bytesOf_cons, bytesOf_nil, List.append_nil]
    rw [hsplit, endsLine_append_encodeRune, Text.gap, hlast]
    rfl

/-- What is written behind a file is read behind its text, unless it goes on with an escaped byte. -/
theorem decode_append {t : Text} (bytes : Bytes) (ht : IsStable t)
    (hhead : ∀ c, t.head? = some c → isEscape c = false) :
    decode (bytes ++ bytesOf t) = decode bytes ++ t := by
  have hboth : bytes ++ bytesOf t = bytesOf (decode bytes ++ t) := by
    rw [bytesOf_append, bytesOf_decode]
  rw [hboth, ((isStable_decode bytes).append ht hhead).decode_bytesOf]

/-- Whatever is written behind a line end from an ASCII character on is read for itself. -/
theorem decode_gap_append {c : Rune} (hencodable : isEncodable c = true) (hc : isEscape c = false)
    (bytes : Bytes) (t : Text) :
    decode (bytes ++ bytesOf (Text.gap (decode bytes) ++ c :: t)) =
      decode bytes ++ (Text.gap (decode bytes) ++ c :: decode (bytesOf t)) := by
  have hsame : bytesOf (Text.gap (decode bytes) ++ c :: t) =
      bytesOf (Text.gap (decode bytes) ++ c :: decode (bytesOf t)) := by
    rw [bytesOf_append, bytesOf_append, bytesOf_cons, bytesOf_cons, bytesOf_decode]
  have hstable : IsStable (c :: decode (bytesOf t)) :=
    (isStable_cons hencodable hc).mpr (isStable_decode _)
  obtain ⟨hadded, hhead⟩ := Text.isStable_gap_append hstable (fun d hd => by
    obtain rfl := Option.some.inj hd
    exact hc) (decode bytes)
  rw [hsame, decode_append bytes hadded hhead]

end TodoLedger
