import TodoLedger.Proofs.Document.Entry
import TodoLedger.Proofs.Text.Lines
import TodoLedger.Proofs.Text.Span
/-!
# The grammar of documents

A document is a preamble followed by entries. `IsDocument` says so of its lines without a reader:
each entry is a headline, blank lines, a drawer of properties and a body, and its properties are
complete. `readDocument_spec` states that the reader accepts exactly these documents and makes one
issue of each entry.
-/

namespace TodoLedger

/-- The lines of one entry, part by part. -/
structure EntryLines where
  headline : Text
  blanks : List Text
  opening : Text
  drawer : List Text
  closing : Text
  body : List Text

/-- What a line of a drawer sets, if its trimmed form starts with a colon. -/
def setting? (line : Text) : Option (Text × Text) :=
  if (Text.trim line).head? = some (Rune.ofChar ':') then propertyOf? (Text.trim line) else none

/-- The trimmed line has the form `:KEY:VALUE`, and the key is not blank. -/
def IsSetting (line : Text) : Prop :=
  ∃ key value, Text.trim line = Rune.ofChar ':' :: key ++ Rune.ofChar ':' :: value ∧
    Rune.ofChar ':' ∉ key ∧ Text.isBlank key = false

/-- A line that may stand between the two markers of a drawer. -/
structure IsDrawerLine (line : Text) : Prop where
  notHeadline : Reader.isHeadlineLine line = false
  notEnd : isMarkerLine endMarker line = false
  setting : (Text.trim line).head? = some (Rune.ofChar ':') → IsSetting line

namespace EntryLines

def lines (e : EntryLines) : List Text :=
  e.headline :: (e.blanks ++ e.opening :: (e.drawer ++ e.closing :: e.body))

/-- The properties that the lines of the drawer set, one after the other. -/
def properties (e : EntryLines) : Properties := .ofList (e.drawer.filterMap setting?)

/-- The description is a property if that is there, and else the body as it stands. -/
def description (e : EntryLines) : Text :=
  (e.properties.get? "DESCRIPTION").getD (Text.join "\n" e.body)

/-- The lines are those of an entry that makes an issue. -/
structure IsEntry (e : EntryLines) : Prop where
  headline : ∃ h, Headline.decode e.headline = .ok h
  blanks : ∀ line ∈ e.blanks, Text.isBlank line = true
  opening : isMarkerLine drawerMarker e.opening = true
  drawer : ∀ line ∈ e.drawer, IsDrawerLine line
  closing : isMarkerLine endMarker e.closing = true
  body : ∀ line ∈ e.body, Reader.isHeadlineLine line = false
  complete : e.properties.Complete

/-- The lines behind the headline are those of an entry, whatever they set. -/
structure HasShape (e : EntryLines) : Prop where
  blanks : ∀ line ∈ e.blanks, Text.isBlank line = true
  opening : isMarkerLine drawerMarker e.opening = true
  drawer : ∀ line ∈ e.drawer, IsDrawerLine line
  closing : isMarkerLine endMarker e.closing = true
  body : ∀ line ∈ e.body, Reader.isHeadlineLine line = false

theorem IsEntry.hasShape {e : EntryLines} (h : e.IsEntry) : e.HasShape :=
  ⟨h.blanks, h.opening, h.drawer, h.closing, h.body⟩

/-- The issue is the one that the lines make. -/
def Yields (e : EntryLines) (i : Issue) : Prop :=
  ∃ h line, Headline.decode e.headline = .ok h ∧
    (Draft.mk line h e.properties e.body).toIssue = .ok i

end EntryLines

/-- The lines of a document are a preamble and the lines of its entries. -/
structure IsDocument (lines preamble : List Text) (entries : List EntryLines) : Prop where
  lines_eq : lines = preamble ++ entries.flatMap EntryLines.lines
  preamble : ∀ line ∈ preamble, Reader.isHeadlineLine line = false
  entries : ∀ e ∈ entries, e.IsEntry

/-! ## Lines that are no headline -/

private theorem head?_upper {t : Text} {c : Rune} (h : t.head? = some c) (hc : c.code < 0x80) :
    (Text.upper t).head? =
      some (if 97 ≤ c.code && c.code ≤ 122 then Rune.ofNat (c.code - 32) else c) := by
  cases t with
  | nil => simp at h
  | cons a t =>
      obtain rfl : a = c := by simpa using h
      simp [Text.upper, Rune.upper, hc]

private theorem head?_trimEnd {t : Text} {c : Rune} (h : t.head? = some c)
    (hc : c.isBlank = false) : (Text.trimEnd t).head? = some c := by
  cases t with
  | nil => simp at h
  | cons a t =>
      obtain rfl : a = c := by simpa using h
      rw [Text.trimEnd, List.reverse_cons, List.dropWhile_append]
      split_ifs with hempty
      · simp [hc]
      · simp

/-- A text whose first character is not blank begins with it after trimming. -/
theorem Text.head?_trim {t : Text} {c : Rune} (h : t.head? = some c) (hc : c.isBlank = false) :
    (Text.trim t).head? = some c := by
  refine head?_trimEnd ?_ hc
  cases t with
  | nil => simp at h
  | cons a t =>
      obtain rfl : a = c := by simpa using h
      simp [Text.trimStart, hc]

namespace Reader

theorem isHeadlineLine_eq_true {line : Text} :
    isHeadlineLine line = true ↔ line.head? = some (Rune.ofChar '*') := by
  simp [isHeadlineLine]

private theorem isMarkerLine_eq_false_of_star {marker line : Text}
    (hm : marker.head? = some (Rune.ofChar ':')) (h : isHeadlineLine line = true) :
    isMarkerLine marker line = false := by
  have htrim := Text.head?_trim (isHeadlineLine_eq_true.mp h) (by decide)
  have hupper := head?_upper htrim (by decide)
  by_contra hmark
  have heq : Text.upper (Text.trim line) = marker := by
    simpa [isMarkerLine] using hmark
  rw [heq, hm] at hupper
  exact absurd hupper (by decide)

theorem notHeadline_of_marker {marker line : Text}
    (hm : marker.head? = some (Rune.ofChar ':')) (h : isMarkerLine marker line = true) :
    isHeadlineLine line = false := by
  by_contra hline
  rw [Bool.not_eq_false] at hline
  rw [isMarkerLine_eq_false_of_star hm hline] at h
  cases h

theorem notHeadline_of_blank {line : Text} (h : Text.isBlank line = true) :
    isHeadlineLine line = false := by
  by_contra hline
  rw [Bool.not_eq_false, isHeadlineLine_eq_true] at hline
  have hblank := Text.isBlank_iff.mp h _ (List.mem_of_mem_head? hline)
  exact absurd hblank (by decide)

theorem notMarker_of_blank {marker line : Text} (hm : marker ≠ [])
    (h : Text.isBlank line = true) : isMarkerLine marker line = false := by
  rw [isMarkerLine, Text.trim_eq_nil_iff.mpr h]
  simpa [Text.upper] using hm.symm

theorem isHeadlineLine_of_decode {line : Text} {h : Headline}
    (hdecode : Headline.decode line = .ok h) : isHeadlineLine line = true := by
  cases line with
  | nil => exact absurd hdecode (by simp [Headline.decode, Headline.rest?])
  | cons c line =>
      by_cases hc : c = Rune.ofChar '*'
      · simp [isHeadlineLine, hc]
      · have hrest : Headline.rest? (c :: line) = none := by
          simp [Headline.rest?, Headline.isStar, hc]
        simp [Headline.decode, hrest] at hdecode

end Reader

/-! ## The lines of a drawer -/

/-- Lines that set one property each set all of them. -/
theorem filterMap_setting? {es : List (Text × Text)} {line : Text × Text → Text}
    (h : ∀ e ∈ es, setting? (line e) = some e) : (es.map line).filterMap setting? = es := by
  rw [List.filterMap_map]
  exact (List.filterMap_congr h).trans List.filterMap_some

theorem propertyOf?_of_form {key value : Text} (hkey : Rune.ofChar ':' ∉ key)
    (hvalue : Rune.ofChar '\n' ∉ value) :
    propertyOf? (Rune.ofChar ':' :: key ++ Rune.ofChar ':' :: value) =
      some (Text.trim key, Text.trim value) := by
  have htake : (key ++ Rune.ofChar ':' :: value).takeWhile
      (fun a => a ≠ Rune.ofChar ':') = key := Span.takeWhile_ne_append_cons hkey
  simp only [List.cons_append, propertyOf?, if_true, htake, List.drop_left]
  simp [hvalue]

theorem form_of_propertyOf? {t key value : Text} (h : propertyOf? t = some (key, value)) :
    ∃ k v, t = Rune.ofChar ':' :: k ++ Rune.ofChar ':' :: v ∧ Rune.ofChar ':' ∉ k ∧
      key = Text.trim k ∧ value = Text.trim v := by
  cases t with
  | nil => simp [propertyOf?] at h
  | cons c r =>
      rw [propertyOf?] at h
      split_ifs at h with hc
      set k := r.takeWhile (fun a => a ≠ Rune.ofChar ':') with hk
      dsimp only at h
      by_cases hlength : k.length = r.length
      · rw [hlength, List.drop_length] at h
        cases h
      · obtain ⟨hnot, v, hr⟩ := Span.exists_append_of_takeWhile_ne hlength
        rw [← hk] at hnot hr
        rw [hr, List.drop_left] at h
        dsimp only at h
        split_ifs at h with hlf
        obtain ⟨rfl, rfl⟩ : Text.trim k = key ∧ Text.trim v = value := by simpa using h
        refine ⟨k, v, ?_, hnot, rfl, rfl⟩
        rw [hc, hr]
        rfl

end TodoLedger
