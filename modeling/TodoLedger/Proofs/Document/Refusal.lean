import TodoLedger.Proofs.Document.Lone
import TodoLedger.Proofs.Workspace.Sample
/-!
# How a document is refused

A document that is not read is refused at one of its lines. There is one exception: a position with too
many digits, set by a line of a drawer, ends the reading without a line. A reader that has come some
lines far keeps what this rests on: it counts its lines, it has a draft wherever it needs one, and what
the draft holds was set by lines before.
-/

namespace TodoLedger

/-- One of the positions of a source is a number with too many digits. -/
def Properties.IsOverlong (p : Properties) (n : Nat) : Prop :=
  Text.maxDigits < n ∧ ∃ key ∈ [sourceLineKey, sourceColumnKey], ∃ value, p.get? key = some value ∧
    Text.isDecimal (Text.trim value) = true ∧ (Text.trim value).length = n

namespace Draft

variable {d : Draft} {fault : ReadFault} {id : Text}

/-- The fault points at the headline of the draft, or a position has too many digits. -/
inductive Refuses (d : Draft) : ReadFault → Prop
  | atLine (cause : DocumentFault) : Refuses d (.document d.line cause)
  | overlong {n : Nat} : d.properties.IsOverlong n → Refuses d (.tooManyDigits n)

theorem refuses_of_checkPositions {keys : List Text}
    (hkeys : ∀ key ∈ keys, key ∈ [sourceLineKey, sourceColumnKey])
    (h : d.checkPositions id keys = .error fault) : d.Refuses fault := by
  induction keys with
  | nil => cases h
  | cons key keys ih =>
      obtain ⟨hkey, hrest⟩ := List.forall_mem_cons.mp hkeys
      rw [checkPositions] at h
      split_ifs at h with hdecimal hlength hpos
      · cases h
        exact .atLine _
      · cases h
        refine .overlong ⟨hlength, key, hkey, ?_⟩
        cases hget : d.properties.get? key with
        | none =>
            rw [hget] at hdecimal
            exact absurd rfl hdecimal
        | some value => exact ⟨value, rfl, by simpa [hget] using hdecimal, by simp⟩
      · cases h
        exact .atLine _
      · exact ih hrest h

theorem refuses_of_checkSource (h : d.checkSource id = .error fault) : d.Refuses fault := by
  rw [checkSource] at h
  split at h
  · cases h
  · dsimp only at h
    split at h
    · exact refuses_of_checkPositions (fun _ hkey => hkey) h
    · cases h
      exact .atLine _

/-- A draft that makes no issue is refused at its headline, or for a position. -/
theorem refuses_of_toIssue (h : d.toIssue = .error fault) : d.Refuses fault := by
  rw [toIssue] at h
  split at h
  · cases h
    exact .atLine _
  · split at h
    · cases h
      exact .atLine _
    · split at h
      · cases h
        exact .atLine _
      · rename_i createdAt _
        cases hsource : d.checkSource (Text.trim ((d.properties.get? "ID").getD [])) with
        | error fault' =>
            rw [hsource] at h
            obtain rfl := Except.error.inj h
            exact refuses_of_checkSource hsource
        | ok _ =>
            rw [hsource] at h
            simp only [bind, Except.bind] at h
            split at h
            · cases h
            · cases h
              exact .atLine _

/-- A draft that is complete but for a line with too many digits is refused for it. -/
theorem toIssue_of_overlong {d : Draft} {id value : Text} {moment : DateTime}
    (hid : d.properties.get? "ID" = some id) (hblank : Text.isBlank id = false)
    (hcreated : d.properties.CreatedAt moment)
    (hsource : ∀ key ∈ sourceKeys, d.properties.has key = true)
    (hvalue : d.properties.get? sourceLineKey = some value)
    (hdecimal : Text.isDecimal (Text.trim value) = true)
    (hlong : Text.maxDigits < (Text.trim value).length) :
    d.toIssue = .error (.tooManyDigits (Text.trim value).length) := by
  obtain ⟨created, hfirst, hmoment⟩ := hcreated
  have hany : sourceKeys.any d.properties.has = true :=
    List.any_eq_true.mpr ⟨sourceLineKey, by simp [sourceKeys], hsource _ (by simp [sourceKeys])⟩
  have hmissing : (sourceKeys.filter fun key => !d.properties.has key) = [] := by
    rw [List.filter_eq_nil_iff]
    intro key hkey
    simp [hsource key hkey]
  have hcheck : d.checkSource (Text.trim id) = .error (.tooManyDigits (Text.trim value).length) := by
    rw [checkSource]
    simp only [hany, Bool.not_true, Bool.false_eq_true, if_false, hmissing, List.isEmpty_nil, if_true]
    rw [checkPositions]
    simp only [hvalue, Option.getD_some, hdecimal, Bool.not_true, Bool.false_eq_true, if_false,
      hlong, if_true]
  rw [toIssue]
  simp only [hid, Option.getD_some, Text.trim_isEmpty, hblank, Bool.false_eq_true, if_false, hfirst,
    hmoment, hcheck]
  rfl

end Draft

theorem propertyOf?_of_setting? {line : Text} {e : Text × Text} (h : setting? line = some e) :
    propertyOf? (Text.trim line) = some e := by
  rw [setting?] at h
  split_ifs at h
  exact h

theorem isTrimmed_of_setting? {line key value : Text} (h : setting? line = some (key, value)) :
    Text.IsTrimmed value := by
  obtain ⟨k, v, -, -, -, rfl⟩ := form_of_propertyOf? (propertyOf?_of_setting? h)
  exact Text.isTrimmed_trim v

/-- One of the lines sets a position of a source to a number with too many digits. -/
def SetsOverlong (lines : List Text) (n : Nat) : Prop :=
  Text.maxDigits < n ∧ ∃ line ∈ lines, ∃ key value, setting? line = some (key, value) ∧
    (Properties.sameKey key sourceLineKey = true ∨ Properties.sameKey key sourceColumnKey = true) ∧
      Text.isDecimal value = true ∧ value.length = n

/-- Why lines are refused: for one of them, or for a position with too many digits. -/
inductive Refused (lines : List Text) : ReadFault → Prop
  | atLine {k : Int} {cause : DocumentFault} : 1 ≤ k → k ≤ lines.length →
      Refused lines (.document k cause)
  | overlong {n : Nat} : SetsOverlong lines n → Refused lines (.tooManyDigits n)

theorem Refused.append {lines : List Text} {fault : ReadFault} (h : Refused lines fault)
    (rest : List Text) : Refused (lines ++ rest) fault := by
  cases h with
  | atLine hone hle =>
      refine .atLine hone ?_
      rw [List.length_append]
      omega
  | overlong h =>
      obtain ⟨hlength, line, hline, hsets⟩ := h
      exact .overlong ⟨hlength, line, List.mem_append_left _ hline, hsets⟩

namespace Reader

variable {lines rest : List Text} {line : Text} {r r' : Reader} {d : Draft} {fault : ReadFault}

/-- The draft was begun at one of the lines, and what it holds was set by lines. -/
structure Drafted (lines : List Text) (d : Draft) : Prop where
  one_le : 1 ≤ d.line
  le : d.line ≤ lines.length
  sets : ∀ key value, d.properties.get? key = some value →
    ∃ line ∈ lines, ∃ k, setting? line = some (k, value) ∧ Properties.sameKey k key = true

/-- What holds of a reader that has come to the last of some lines. -/
structure At (lines : List Text) (r : Reader) : Prop where
  line : r.line = lines.length
  busy : r.phase ≠ .unassigned → ∃ d, r.draft = some d
  drafted : ∀ d, r.draft = some d → Drafted lines d

theorem Drafted.append (h : Drafted lines d) (rest : List Text) : Drafted (lines ++ rest) d where
  one_le := h.one_le
  le := by
    have := h.le
    rw [List.length_append]
    omega
  sets := by
    intro key value hget
    obtain ⟨line, hline, hsets⟩ := h.sets key value hget
    exact ⟨line, List.mem_append_left _ hline, hsets⟩

theorem Drafted.refused (h : Drafted lines d) (hd : d.Refuses fault) : Refused lines fault := by
  cases hd with
  | atLine cause => exact .atLine h.one_le h.le
  | overlong hlong =>
      obtain ⟨hlength, key, hkey, value, hget, hdecimal, hn⟩ := hlong
      obtain ⟨line, hline, k, hsets, hsame⟩ := h.sets key value hget
      have htrim := (isTrimmed_of_setting? hsets).trim_eq
      rw [htrim] at hdecimal hn
      refine .overlong ⟨hlength, line, hline, k, value, hsets, ?_, hdecimal, hn⟩
      rcases List.mem_cons.mp hkey with rfl | hkey
      · exact Or.inl hsame
      · obtain rfl := List.mem_singleton.mp hkey
        exact Or.inr hsame

theorem at_start : At [] start := ⟨rfl, by simp [start], by simp [start]⟩

/-- The reader turns to the next line. -/
theorem At.next (h : r.At lines) (line : Text) :
    At (lines ++ [line]) { r with line := r.line + 1 } where
  line := by
    rw [List.length_append, List.length_singleton, ← h.line]
  busy := h.busy
  drafted := fun d hd => (h.drafted d hd).append [line]

private theorem At.refused_line (h : r.At lines) (hline : line ∈ lines) (cause : DocumentFault) :
    Refused lines (.document r.line cause) := by
  have hpos := List.length_pos_of_mem hline
  rw [h.line]
  exact .atLine (by omega) (by omega)

/-! ## One line -/

theorem At.settleIfAny (h : r.At lines) :
    (∀ settled, r.settleIfAny = .ok settled → settled.At lines) ∧
      ∀ fault, r.settleIfAny = .error fault → Refused lines fault := by
  rw [Reader.settleIfAny, settle]
  cases hdraft : r.draft with
  | none =>
      refine ⟨fun settled hsettled => ?_, fun fault hfault => by cases hfault⟩
      obtain rfl := Except.ok.inj hsettled
      exact h
  | some d =>
      simp only [Option.isNone_some, Bool.false_eq_true, if_false]
      cases hissue : d.toIssue with
      | ok issue =>
          refine ⟨fun settled hsettled => ?_, fun fault hfault => by cases hfault⟩
          obtain rfl := Except.ok.inj hsettled
          exact ⟨h.line, fun hphase => absurd rfl hphase, by simp⟩
      | error fault =>
          refine ⟨fun settled hsettled => (by cases hsettled), fun fault' hfault => ?_⟩
          obtain rfl := Except.error.inj hfault
          exact (h.drafted d hdraft).refused (Draft.refuses_of_toIssue hissue)

theorem At.feedHeadline (h : r.At lines) (hline : line ∈ lines) :
    (r.feedHeadline line).1.At lines ∧
      ∀ fault, (r.feedHeadline line).2 = some fault → Refused lines fault := by
  obtain ⟨hok, herror⟩ := h.settleIfAny
  rw [Reader.feedHeadline]
  split_ifs
  · exact ⟨h, fun fault hfault => Option.some.inj hfault ▸ h.refused_line hline _⟩
  · cases hsettled : r.settleIfAny with
    | error fault => exact ⟨h, fun fault' hfault => Option.some.inj hfault ▸ herror fault hsettled⟩
    | ok settled =>
        have hat := hok settled hsettled
        cases Headline.decode line with
        | error cause =>
            exact ⟨hat, fun fault hfault => Option.some.inj hfault ▸ hat.refused_line hline _⟩
        | ok headline =>
            refine ⟨⟨hat.line, fun _ => ⟨_, rfl⟩, fun d hd => ?_⟩, fun fault hfault => by cases hfault⟩
            obtain rfl := Option.some.inj hd
            have hpos := List.length_pos_of_mem hline
            have hlength := hat.line
            refine ⟨?_, ?_, fun key value hget => by cases hget⟩
            · show (1 : Int) ≤ settled.line
              omega
            · show (settled.line : Int) ≤ lines.length
              omega

/-- A draft with another body was begun at the same line and holds the same. -/
private theorem Drafted.of_properties_eq {d' : Draft} (h : Drafted lines d) (hline : d'.line = d.line)
    (hproperties : d'.properties = d.properties) : Drafted lines d' := by
  refine ⟨hline ▸ h.one_le, hline ▸ h.le, ?_⟩
  rw [hproperties]
  exact h.sets

theorem At.inDrawer (h : r.At lines) (hdraft : r.draft = some d) (hline : line ∈ lines) :
    (r.inDrawer d line).1.At lines ∧
      ∀ fault, (r.inDrawer d line).2 = some fault → Refused lines fault := by
  have hd := h.drafted d hdraft
  have hbusy : ∃ d, r.draft = some d := ⟨d, hdraft⟩
  rw [Reader.inDrawer]
  split_ifs with hend hcolon
  · exact ⟨⟨h.line, fun _ => hbusy, h.drafted⟩, by simp⟩
  · exact ⟨h, by simp⟩
  · rw [ne_eq, not_not] at hcolon
    cases hproperty : propertyOf? (Text.trim line) with
    | none => exact ⟨h, fun fault hfault => Option.some.inj hfault ▸ h.refused_line hline _⟩
    | some e =>
        obtain ⟨key, value⟩ := e
        have hsetting : setting? line = some (key, value) := by
          rw [setting?, if_pos hcolon, hproperty]
        simp only
        split_ifs
        · exact ⟨h, fun fault hfault => Option.some.inj hfault ▸ h.refused_line hline _⟩
        · refine ⟨⟨h.line, fun _ => ⟨_, rfl⟩, fun d' hd' => ?_⟩, by simp⟩
          obtain rfl := Option.some.inj hd'
          refine ⟨hd.one_le, hd.le, fun other value' hget => ?_⟩
          rw [Properties.get?_set] at hget
          split_ifs at hget with hsame
          · obtain rfl := Option.some.inj hget
            exact ⟨line, hline, key, hsetting, hsame⟩
          · exact hd.sets other value' hget

theorem At.feedInner (h : r.At lines) (hline : line ∈ lines) :
    (r.feedInner line).1.At lines ∧
      ∀ fault, (r.feedInner line).2 = some fault → Refused lines fault := by
  rw [Reader.feedInner]
  cases hphase : r.phase with
  | unassigned => exact ⟨h, by simp⟩
  | headline =>
      obtain ⟨d, hdraft⟩ := h.busy (by simp [hphase])
      have hd := h.drafted d hdraft
      rw [hdraft]
      refine ⟨?_, by simp⟩
      show At lines (r.afterHeadline d line)
      rw [afterHeadline]
      split
      · exact ⟨h.line, fun _ => ⟨_, rfl⟩, fun d' hd' => Option.some.inj hd' ▸ hd.of_properties_eq rfl rfl⟩
      · exact ⟨h.line, fun _ => ⟨_, rfl⟩, fun d' hd' => Option.some.inj hd' ▸ hd.of_properties_eq rfl rfl⟩
  | properties =>
      obtain ⟨d, hdraft⟩ := h.busy (by simp [hphase])
      rw [hdraft]
      exact h.inDrawer hdraft hline
  | body =>
      obtain ⟨d, hdraft⟩ := h.busy (by simp [hphase])
      have hd := h.drafted d hdraft
      rw [hdraft]
      exact ⟨⟨h.line, fun _ => ⟨_, rfl⟩,
        fun d' hd' => Option.some.inj hd' ▸ hd.of_properties_eq rfl rfl⟩, by simp⟩

/-- A line leaves the reader where it can go on, or is refused. -/
theorem At.feedNext (h : r.At lines) (line : Text) :
    (r.feedNext line).1.At (lines ++ [line]) ∧
      ∀ fault, (r.feedNext line).2 = some fault → Refused (lines ++ [line]) fault := by
  have hline : line ∈ lines ++ [line] := by simp
  rw [Reader.feedNext, feed]
  split_ifs
  · exact (h.next line).feedHeadline hline
  · exact (h.next line).feedInner hline

/-! ## All lines -/

theorem At.feedAll (h : r.At lines) :
    (∀ r', r.feedAll rest = .ok r' → r'.At (lines ++ rest)) ∧
      ∀ fault, r.feedAll rest = .error fault → Refused (lines ++ rest) fault := by
  induction rest generalizing r lines with
  | nil =>
      refine ⟨fun r' hr => ?_, fun fault hfault => by cases hfault⟩
      obtain rfl := Except.ok.inj hr
      rwa [List.append_nil]
  | cons line rest ih =>
      obtain ⟨hat, hrefused⟩ := h.feedNext line
      rw [Reader.feedAll]
      rcases hfeed : r.feedNext line with ⟨next, _ | fault⟩
      · rw [hfeed] at hat
        have hrest := ih hat
        rwa [List.append_assoc, List.singleton_append] at hrest
      · refine ⟨fun r' hr => (by cases hr), fun fault' hfault => ?_⟩
        obtain rfl := Except.error.inj hfault
        have hgrown := (hrefused fault (by rw [hfeed])).append rest
        rwa [List.append_assoc, List.singleton_append] at hgrown

/-- At the end of the lines a drawer that is open or an entry that makes no issue is refused. -/
theorem At.finish (h : r.At lines) (hfault : r.finish = .error fault) : Refused lines fault := by
  rw [Reader.finish] at hfault
  split_ifs at hfault with hphase
  · obtain rfl := Except.error.inj hfault
    obtain ⟨d, hd⟩ := h.busy (by simp [hphase])
    have hone := (h.drafted d hd).one_le
    have hle := (h.drafted d hd).le
    rw [h.line]
    exact .atLine (by omega) (by omega)
  · exact h.settleIfAny.2 fault hfault

end Reader

/-- A document that is not read is refused at one of its lines, or for a position with too many
digits. -/
theorem refused_of_readDocument {text : Text} {fault : ReadFault}
    (h : readDocument text = .error fault) : Refused (Text.bodies (Text.dropBom text)) fault := by
  rw [readDocument] at h
  obtain ⟨hok, herror⟩ := @Reader.At.feedAll [] (Text.bodies (Text.dropBom text)) _ Reader.at_start
  rw [List.nil_append] at hok herror
  cases hfeed : Reader.start.feedAll (Text.bodies (Text.dropBom text)) with
  | error fault' =>
      rw [hfeed] at h
      obtain rfl := Except.error.inj h
      exact herror fault' hfeed
  | ok r =>
      rw [hfeed] at h
      simp only [bind, Except.bind] at h
      cases hfinish : r.finish with
      | error fault' =>
          rw [hfinish] at h
          obtain rfl := Except.error.inj h
          exact (hok r hfeed).finish hfinish
      | ok settled =>
          rw [hfinish] at h
          cases h

/-! ## A position with too many digits -/

/-- The properties of an entry that was gathered from a line with a number of so many digits. -/
def overlongSettings (n : Nat) : List (Text × Text) :=
  [("ID", "a"), ("CREATED", "<2025-12-18 Thu 14:30>"), (sourceFileKey, "b"),
   (sourceLineKey, List.replicate n (Rune.ofChar '1')), (sourceColumnKey, "1"), (sourceHashKey, "c")]

/-- The entry that sets these properties. -/
def overlongEntry (n : Nat) : EntryLines where
  headline := "* TODO d"
  blanks := []
  opening := ":PROPERTIES:"
  drawer := (overlongSettings n).map fun e => propertyLine e.1 e.2
  closing := ":END:"
  body := []

def overlongDocument (n : Nat) : Text := .ofBodies (overlongEntry n).lines

section Overlong

variable {n : Nat}

private theorem trim_ones :
    Text.trim (List.replicate n (Rune.ofChar '1')) = List.replicate n (Rune.ofChar '1') := by
  refine (Text.isTrimmed_of_not_blank fun c hc => ?_).trim_eq
  rw [List.eq_of_mem_replicate hc]
  decide

private theorem of_mem_overlongSettings {e : Text × Text} (he : e ∈ overlongSettings n) :
    (IsKey e.1 ∧ ∀ c ∈ e.1, c.IsBasic) ∧ (∀ c ∈ e.2, c.IsBasic) ∧ Text.trim e.2 = e.2 := by
  have hdigits : ∀ c ∈ List.replicate n (Rune.ofChar '1'), c.IsBasic := by
    intro c hc
    rw [List.eq_of_mem_replicate hc]
    decide
  simp only [overlongSettings, List.mem_cons, List.not_mem_nil, or_false] at he
  rcases he with rfl | rfl | rfl | rfl | rfl | rfl
  · decide +kernel
  · decide +kernel
  · decide +kernel
  · have hkey : IsKey sourceLineKey ∧ ∀ c ∈ sourceLineKey, c.IsBasic := by decide +kernel
    exact ⟨hkey, hdigits, trim_ones⟩
  · decide +kernel
  · decide +kernel

private theorem apart_overlongSettings : Properties.Apart ((overlongSettings n).map Prod.fst) := by
  show Properties.Apart ["ID", "CREATED", sourceFileKey, sourceLineKey, sourceColumnKey, sourceHashKey]
  decide +kernel

private theorem properties_overlongEntry : (overlongEntry n).properties = ⟨overlongSettings n⟩ := by
  have hall : ∀ e ∈ overlongSettings n, setting? (propertyLine e.1 e.2) = some e := by
    intro e he
    obtain ⟨⟨hkey, -⟩, hbasic, htrim⟩ := of_mem_overlongSettings he
    rw [setting?_propertyLine hkey.isSetKey (Text.lineClass_endFree.of_basic hbasic).not_mem_lf,
      htrim]
  rw [EntryLines.properties, overlongEntry, filterMap_setting? hall]
  exact Properties.ofList_of_apart apart_overlongSettings

private theorem hasShape_overlongEntry : (overlongEntry n).HasShape where
  blanks := by simp [overlongEntry]
  opening := by
    show isMarkerLine drawerMarker ":PROPERTIES:" = true
    decide +kernel
  drawer := by
    intro line hline
    obtain ⟨e, he, rfl⟩ := List.mem_map.mp hline
    exact isDrawerLine_propertyLine (of_mem_overlongSettings he).1.1 e.2
  closing := by
    show isMarkerLine endMarker ":END:" = true
    decide +kernel
  body := by simp [overlongEntry]

private theorem fitsLine_of_mem_overlongEntry {line : Text}
    (hline : line ∈ (overlongEntry n).lines) : Text.FitsLine line := by
  have hends : ∀ line ∈ [("* TODO d" : Text), ":PROPERTIES:", ":END:"], ∀ c ∈ line, c.IsBasic := by
    decide
  rw [EntryLines.lines, overlongEntry, List.nil_append, List.mem_cons, List.mem_cons,
    List.mem_append, List.mem_map, List.mem_singleton] at hline
  rcases hline with rfl | rfl | ⟨e, he, rfl⟩ | rfl
  · exact Text.fitsLine_of_basic (hends _ (by simp))
  · exact Text.fitsLine_of_basic (hends _ (by simp))
  · obtain ⟨⟨-, hkey⟩, hvalue, -⟩ := of_mem_overlongSettings he
    exact Issue.fits_propertyLine Text.lineClass_fitsLine (Text.fitsLine_of_basic hkey)
      (Text.fitsLine_of_basic hvalue)
  · exact Text.fitsLine_of_basic (hends _ (by simp))

private theorem get?_overlongSettings {key value : Text} (h : (key, value) ∈ overlongSettings n) :
    Properties.get? ⟨overlongSettings n⟩ key = some value :=
  Properties.get?_of_mem apart_overlongSettings h

private theorem toIssue_overlongSettings (h : Text.maxDigits < n) (line : Int) (headline : Headline)
    (body : List Text) :
    (Draft.mk line headline ⟨overlongSettings n⟩ body).toIssue = .error (.tooManyDigits n) := by
  obtain ⟨moment, hmoment, -⟩ : ∃ moment,
      Timestamp.decode "<2025-12-18 Thu 14:30>" = .ok moment ∧ moment.year = 2025 := by
    decide +kernel
  have hid : Properties.get? ⟨overlongSettings n⟩ "ID" = some "a".toText :=
    get?_overlongSettings (by simp [overlongSettings])
  have hcreated : Properties.get? ⟨overlongSettings n⟩ "CREATED" =
      some "<2025-12-18 Thu 14:30>".toText := get?_overlongSettings (by simp [overlongSettings])
  have hnumber : Properties.get? ⟨overlongSettings n⟩ sourceLineKey =
      some (List.replicate n (Rune.ofChar '1')) := get?_overlongSettings (by simp [overlongSettings])
  have hfirst : Properties.first? ⟨overlongSettings n⟩ createdKeys =
      some "<2025-12-18 Thu 14:30>".toText := by
    rw [Properties.first?, createdKeys, List.findSome?_cons, hcreated]
  have hsource : ∀ key ∈ sourceKeys, Properties.has ⟨overlongSettings n⟩ key = true := by
    intro key hkey
    obtain ⟨value, hvalue⟩ : ∃ value, (key, value) ∈ overlongSettings n := by
      simp only [sourceKeys, List.mem_cons, List.not_mem_nil, or_false] at hkey
      rcases hkey with rfl | rfl | rfl | rfl
      · exact ⟨"b", by simp [overlongSettings]⟩
      · exact ⟨List.replicate n (Rune.ofChar '1'), by simp [overlongSettings]⟩
      · exact ⟨"1", by simp [overlongSettings]⟩
      · exact ⟨"c", by simp [overlongSettings]⟩
    rw [Properties.has, get?_overlongSettings hvalue]
    rfl
  have hdecimal : Text.isDecimal (List.replicate n (Rune.ofChar '1')) = true := by
    refine Text.isDecimal_of_isDigit (fun hnil => ?_) fun c hc => ?_
    · rw [List.replicate_eq_nil_iff] at hnil
      omega
    · rw [List.eq_of_mem_replicate hc]
      exact ⟨by decide, by decide⟩
  have hrefused := Draft.toIssue_of_overlong (d := ⟨line, headline, ⟨overlongSettings n⟩, body⟩)
    hid (by decide) ⟨_, hfirst, hmoment⟩ hsource hnumber
  rw [trim_ones, List.length_replicate] at hrefused
  exact hrefused hdecimal h

theorem isStable_overlongDocument (n : Nat) : Utf8.IsStable (overlongDocument n) :=
  Text.isStable_ofBodies fun _ hline => fitsLine_of_mem_overlongEntry hline

/-- A document whose one entry has a line with too many digits is refused for no line. -/
theorem readDocument_overlongDocument (h : Text.maxDigits < n) :
    readDocument (overlongDocument n) = .error (.tooManyDigits n) := by
  have hfree : ∀ line ∈ (overlongEntry n).lines, Text.EndFree line := fun line hline =>
    Text.lineClass_fitsLine.endFree (fitsLine_of_mem_overlongEntry hline)
  have hdecode : Headline.decode (overlongEntry n).headline = .ok ⟨1, .todo, .none, "d", []⟩ := by
    show Headline.decode "* TODO d" = _
    decide +kernel
  rw [overlongDocument, readDocument_lone_of_decode hasShape_overlongEntry hfree hdecode,
    properties_overlongEntry, toIssue_overlongSettings h]
  rfl

end Overlong

end TodoLedger
