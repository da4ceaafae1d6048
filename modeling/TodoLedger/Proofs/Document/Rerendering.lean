import TodoLedger.Proofs.Document.Made
import TodoLedger.Proofs.Document.Written
import TodoLedger.Proofs.Headline.Title
import TodoLedger.Proofs.Workspace.Sample
/-!
# Writing an issue that was read

An issue that was read of a document is written and read again. If the written text can be read, its id,
its state, its level and its time of creation come back. The rest need not: a property with the key `END`
and no value is written as the end of the drawer, so that the properties behind it are lost; breaks inside
a value, which end no line of a document, are written as spaces; and an id in place of a title is shown
as it is, though it may be read as a cookie or as tags. `survivesRendering_iff` says when the whole record
comes back.
-/

namespace TodoLedger

open Properties (sameKey)

namespace Issue

variable {i j : Issue}

/-! ## What comes back -/

/-- The issue that was read has the id, the state, the level and the minute of the one that was
written. -/
structure SameEntry (i j : Issue) : Prop where
  id : j.id = i.id
  state : j.state = i.state
  level : j.level = i.level
  createdAt : j.createdAt = i.createdAt.startOfMinute

/-- It also has the priority, the tags and the reference to a source. -/
structure SameRecord (i j : Issue) : Prop extends SameEntry i j where
  priority : j.priority = i.priority
  tags : j.tags = i.tags
  sourceFile : j.sourceFile? = i.sourceFile?
  sourceLine : j.sourceLine? = i.sourceLine?
  sourceColumn : j.sourceColumn? = i.sourceColumn?
  sourceHash : j.sourceHash? = i.sourceHash?

instance (i j : Issue) : Decidable (i.SameRecord j) :=
  decidable_of_iff ((j.id = i.id ∧ j.state = i.state ∧ j.level = i.level ∧
      j.createdAt = i.createdAt.startOfMinute) ∧ j.priority = i.priority ∧ j.tags = i.tags ∧
      j.sourceFile? = i.sourceFile? ∧ j.sourceLine? = i.sourceLine? ∧
      j.sourceColumn? = i.sourceColumn? ∧ j.sourceHash? = i.sourceHash?)
    ⟨fun ⟨⟨id, state, level, createdAt⟩, priority, tags, file, line, column, hash⟩ =>
        ⟨⟨id, state, level, createdAt⟩, priority, tags, file, line, column, hash⟩,
      fun h => ⟨⟨h.id, h.state, h.level, h.createdAt⟩, h.priority, h.tags, h.sourceFile,
        h.sourceLine, h.sourceColumn, h.sourceHash⟩⟩

/-- Written and read again, the issue is one issue with the same record. -/
def SurvivesRendering (i : Issue) : Prop := ∃ j, readDocument i.render = .ok [j] ∧ i.SameRecord j

instance (i : Issue) : Decidable i.SurvivesRendering :=
  match hread : readDocument i.render with
  | .ok [j] => decidable_of_iff (i.SameRecord j) (by simp [SurvivesRendering, hread])
  | .ok [] => isFalse (by simp [SurvivesRendering, hread])
  | .ok (_ :: _ :: _) => isFalse (by simp [SurvivesRendering, hread])
  | .error _ => isFalse (by simp [SurvivesRendering, hread])

/-- The headline can be read, what it shows and what is kept give the priority and the tags, and the
reference to a source is kept as it is. -/
structure IsShown (i : Issue) : Prop where
  headline : ∃ h, Headline.decode i.renderHeadline = .ok h ∧
    ((i.kept.get? "PRIORITY").bind Priority.ofName?).getD h.priority = i.priority ∧
    distinct (((i.kept.get? "TAGS").map Entry.tagsOf).getD h.tags) = i.tags
  source : ∀ key ∈ sourceKeys, i.kept.get? key = i.properties.get? key

/-- What is written of an issue that was read makes an entry. -/
theorem IsRead.makesEntry (h : i.IsRead) : i.MakesEntry :=
  ⟨h.fits, h.isTrimmed_id, h.notBlank, h.apart, fun e he => (h.entries e he).1.1⟩

section Recovered

variable {headline : Headline} {body : List Text}

private theorem shown_recovered :
    (i.recovered headline body).priority =
        ((i.kept.get? "PRIORITY").bind Priority.ofName?).getD headline.priority ∧
      (i.recovered headline body).tags =
        distinct (((i.kept.get? "TAGS").map Entry.tagsOf).getD headline.tags) := by
  have hlater : "PRIORITY".toText ∈ laterKeys ∧ "TAGS".toText ∈ laterKeys := by decide
  rw [← get?_written hlater.1, ← get?_written hlater.2]
  exact ⟨rfl, rfl⟩

private theorem sameEntry_recovered (h : i.IsRead)
    (hdecode : Headline.decode i.renderHeadline = .ok headline) :
    i.SameEntry (i.recovered headline body) := by
  rw [Headline.decode_renderHeadline h.fits.id h.fits.tags] at hdecode
  split at hdecode
  · cases hdecode
  · obtain rfl := Except.ok.inj hdecode
    exact ⟨rfl, rfl, max_eq_left h.one_le_level, rfl⟩

end Recovered

/-- A position of an issue that was read is on one line. -/
private theorem isPosition_of_get? (h : i.IsRead) {key v : Text}
    (hkey : key = sourceLineKey ∨ key = sourceColumnKey) (hget : i.properties.get? key = some v) :
    IsPosition v ∧ Text.singleLine v = v := by
  have hvalue : i.properties.valueOf key = v := by
    rw [Properties.valueOf, hget]
    rfl
  have hposition : IsPosition v := by
    rcases h.source with hnone | ⟨-, hline, hcolumn⟩
    · have hmissing : i.properties.has key = false := by
        rcases hkey with rfl | rfl
        · exact hnone _ (by simp [sourceKeys])
        · exact hnone _ (by simp [sourceKeys])
      rw [Properties.has, hget] at hmissing
      cases hmissing
    · rcases hkey with rfl | rfl
      · exact hvalue ▸ hline
      · exact hvalue ▸ hcolumn
  have htrimmed := (h.of_get? hget).1
  have hfree := Text.breakFree_of_isDecimal hposition.isDecimal
  rw [htrimmed.trim_eq] at hfree
  exact ⟨hposition, Text.singleLine_eq_self_iff.mpr ⟨hfree, htrimmed⟩⟩

/-- A position that is read as it was is kept as it was. -/
private theorem get?_kept_of_position (h : i.IsRead) {key : Text}
    (hkey : key = sourceLineKey ∨ key = sourceColumnKey)
    (hsame : (i.kept.get? key).bind positive? = (i.properties.get? key).bind positive?) :
    i.kept.get? key = i.properties.get? key := by
  cases hkept : i.kept.get? key with
  | some value =>
      obtain ⟨v, hget, rfl⟩ := of_get?_kept h.makesEntry hkept
      rw [hget, (isPosition_of_get? h hkey hget).2]
  | none =>
      cases hget : i.properties.get? key with
      | none => rfl
      | some v =>
          obtain ⟨hposition, -⟩ := isPosition_of_get? h hkey hget
          rw [hkept, hget, Option.bind_some, Text.positive?_of_isDecimal hposition.isDecimal
            hposition.length_le hposition.pos] at hsame
          cases hsame

/-- The reference to a source comes back if its properties are kept, and only then. -/
private theorem sameSource_iff (h : i.IsRead)
    (hj : ∀ key ∈ sourceKeys, j.properties.get? key = i.kept.get? key) :
    (j.sourceFile? = i.sourceFile? ∧ j.sourceLine? = i.sourceLine? ∧
        j.sourceColumn? = i.sourceColumn? ∧ j.sourceHash? = i.sourceHash?) ↔
      ∀ key ∈ sourceKeys, i.kept.get? key = i.properties.get? key := by
  simp only [sourceKeys, List.forall_mem_cons, List.not_mem_nil, false_imp_iff, implies_true,
    and_true] at hj ⊢
  obtain ⟨hfile, hline, hcolumn, hhash⟩ := hj
  rw [sourceFile?, sourceFile?, sourceLine?, sourceLine?, sourceColumn?, sourceColumn?, sourceHash?,
    sourceHash?, hfile, hline, hcolumn, hhash]
  constructor
  · rintro ⟨hfile, hline, hcolumn, hhash⟩
    exact ⟨hfile, get?_kept_of_position h (Or.inl rfl) hline,
      get?_kept_of_position h (Or.inr rfl) hcolumn, hhash⟩
  · rintro ⟨hfile, hline, hcolumn, hhash⟩
    rw [hfile, hline, hcolumn, hhash]
    exact ⟨rfl, rfl, rfl, rfl⟩

private theorem survivesRendering_iff_isShown (h : i.IsRead) (hyear : 1000 ≤ i.createdAt.year) :
    i.SurvivesRendering ↔ i.IsShown := by
  obtain ⟨body, hread⟩ := readDocument_render_iff h.makesEntry hyear
  have hget : ∀ headline, ∀ key ∈ sourceKeys,
      (i.recovered headline body).properties.get? key = i.kept.get? key :=
    fun headline key hkey => get?_recovered (by simp [laterKeys, hkey])
  constructor
  · rintro ⟨j, hj, hrecord⟩
    obtain ⟨headline, hdecode, -, hlist⟩ := (hread [j]).mp hj
    obtain rfl := List.singleton_inj.mp hlist
    obtain ⟨hpriority, htags⟩ := @shown_recovered i headline body
    refine ⟨⟨headline, hdecode, ?_, ?_⟩, (sameSource_iff h (hget headline)).mp
      ⟨hrecord.sourceFile, hrecord.sourceLine, hrecord.sourceColumn, hrecord.sourceHash⟩⟩
    · rw [← hpriority, hrecord.priority]
    · rw [← htags, hrecord.tags]
  · rintro ⟨⟨headline, hdecode, hpriority, htags⟩, hsource⟩
    have hfull : i.kept.HasNoOrFullSource :=
      (Properties.hasNoOrFullSource_congr hsource).mpr h.source
    obtain ⟨hsamePriority, hsameTags⟩ := @shown_recovered i headline body
    obtain ⟨hfile, hline, hcolumn, hhash⟩ := (sameSource_iff h (hget headline)).mpr hsource
    exact ⟨_, (hread _).mpr ⟨headline, hdecode, hfull, rfl⟩, sameEntry_recovered h hdecode,
      hsamePriority.trans hpriority, hsameTags.trans htags, hfile, hline, hcolumn, hhash⟩

/-! ## Issues that come back -/

/-- No property is written as the end of the drawer, no break of a line is lost that matters, and the
headline can show the title or the id. -/
structure IsPlain (i : Issue) : Prop where
  notEnd : ∀ e ∈ i.properties.entries, Text.upper e.1 = "END" → Text.isBlank e.2 = false
  breakFree : ∀ key ∈ ["TAGS".toText, sourceFileKey, sourceHashKey],
    ∀ v, i.properties.get? key = some v → Text.BreakFree v
  isShowable : Headline.IsShowable i

private theorem kept_of_notEnd (h : i.IsRead)
    (hend : ∀ e ∈ i.properties.entries, Text.upper e.1 = "END" → Text.isBlank e.2 = false) :
    i.kept = ⟨i.others⟩ := by
  rw [kept, List.takeWhile_eq_self_iff.mpr]
  intro e he
  obtain ⟨d, hd, rfl⟩ := List.mem_map.mp he
  have hmem := (List.mem_filter.mp hd).1
  rw [Bool.not_eq_true', Bool.eq_false_iff]
  intro hcloses
  obtain ⟨hkey, hblank⟩ := of_isMarkerLine_propertyLine (h.entries d hmem).1.1.noColon hcloses
  have hvalue := Text.isBlank_of_isBlank_singleLine hblank
  rw [hend d hmem hkey] at hvalue
  cases hvalue

/-- What is looked up is kept on one line. -/
private theorem get?_others {key : Text} (hkey : key ∈ laterKeys) :
    Properties.get? ⟨i.others⟩ key = (i.properties.get? key).map Text.singleLine := by
  have hlater : ∀ word ∈ laterKeys, isLeadingKey word = false := by decide +kernel
  have hnot := hlater key hkey
  have hfind : (i.properties.entries.filter fun e => !isLeadingKey e.1).find?
      (fun e => sameKey e.1 key) = i.properties.entries.find? fun e => sameKey e.1 key := by
    rw [List.find?_filter]
    congr 1
    funext e
    cases hsame : sameKey e.1 key with
    | false => simp
    | true => simp [isLeadingKey_of_sameKey (List.mem_append_right _ hkey) hsame, hnot]
  rw [Properties.get?, others, List.find?_map]
  show Option.map Prod.snd (Option.map _ (List.find? (fun e : Text × Text => sameKey e.1 key) _)) = _
  rw [hfind, Properties.get?, Option.map_map, Option.map_map]
  rfl

/-- A name that is read on one line was read before. -/
private theorem ofName?_of_singleLine {v : Text} (htrimmed : Text.IsTrimmed v)
    (hfree : Text.EndFree v) {p : Priority}
    (hread : Priority.ofName? (Text.singleLine v) = some p) : Priority.ofName? v = some p := by
  have hname : Text.upper p.name = Text.upper (Text.singleLine v) := by
    have hfound := List.find?_some hread
    rw [decide_eq_true_eq, (Text.isTrimmed_singleLine v).trim_eq] at hfound
    exact hfound
  have hspace : Rune.ofChar ' ' ∉ Text.upper p.name := by
    cases p <;> decide
  -- A break would be a space on one line, and no name has one.
  have hbreak : Text.BreakFree v := by
    intro c hc
    by_contra hbreak
    rw [Bool.not_eq_false] at hbreak
    have hmem : Rune.ofChar ' ' ∈ Text.singleLine v := by
      rw [Text.singleLine_eq_map hfree htrimmed, List.mem_map]
      exact ⟨c, hc, if_pos hbreak⟩
    rw [hname] at hspace
    exact hspace (List.mem_flatMap.mpr ⟨_, hmem, by decide⟩)
  rwa [Text.singleLine_eq_self_iff.mpr ⟨hbreak, htrimmed⟩] at hread

/-- An issue without markup is shown as it is. -/
private theorem IsPlain.isShown (h : i.IsRead) (hplain : i.IsPlain) : i.IsShown := by
  have hkept : ∀ key ∈ laterKeys, i.kept.get? key = (i.properties.get? key).map Text.singleLine := by
    rw [kept_of_notEnd h hplain.notEnd]
    exact fun key hkey => get?_others hkey
  have hsame : ∀ key ∈ laterKeys,
      (∀ v, i.properties.get? key = some v → Text.singleLine v = v) →
      i.kept.get? key = i.properties.get? key := by
    intro key hkey hline
    rw [hkept key hkey]
    cases hget : i.properties.get? key with
    | none => rfl
    | some v => exact congrArg some (hline v hget)
  have hfree : ∀ key ∈ ["TAGS".toText, sourceFileKey, sourceHashKey],
      ∀ v, i.properties.get? key = some v → Text.singleLine v = v := fun key hkey v hget =>
    Text.singleLine_eq_self_iff.mpr ⟨hplain.breakFree key hkey v hget, (h.of_get? hget).1⟩
  obtain ⟨title, hshown⟩ := Headline.shown?_titleOf Text.lineClass_endFree h.fits.title
    (fun t ht => ⟨(h.tags t ht).1, (h.tags t ht).2⟩) hplain.isShowable
  have hdecode := Headline.decode_renderHeadline h.fits.id h.fits.tags
  rw [hshown] at hdecode
  refine ⟨⟨_, hdecode, ?_, ?_⟩, fun key hkey => ?_⟩
  · rw [hkept "PRIORITY" (by simp [laterKeys])]
    cases hget : i.properties.get? "PRIORITY" with
    | none => rfl
    | some v =>
        obtain ⟨htrimmed, hend⟩ := h.of_get? hget
        cases hread : Priority.ofName? (Text.singleLine v) with
        | none => simp [hread]
        | some p =>
            have hpriority := h.priority p
            rw [hget] at hpriority
            rw [hpriority (ofName?_of_singleLine htrimmed hend hread)]
            simp [hread]
  · rw [hsame "TAGS" (by simp [laterKeys]) (hfree "TAGS" (by simp))]
    cases hget : i.properties.get? "TAGS" with
    | none => exact distinct_of_nodup h.nodup
    | some v => exact (h.setTags v hget).symm
  · refine hsame key (by simp [laterKeys, hkey]) ?_
    simp only [sourceKeys, List.mem_cons, List.not_mem_nil, or_false] at hkey
    rcases hkey with rfl | rfl | rfl | rfl
    · exact hfree _ (by simp)
    · exact fun v hget => (isPosition_of_get? h (Or.inl rfl) hget).2
    · exact fun v hget => (isPosition_of_get? h (Or.inr rfl) hget).2
    · exact hfree _ (by simp)

end Issue

/-- An issue that was read is written and read again. If the text is read at all it makes one issue with
the id, the state, the level and the minute of the first. The whole record comes back exactly if the
headline and the properties that are kept show it, and so it does of every issue that is plain. -/
theorem survivesRendering_iff {text : Text} {issues : List Issue} {i : Issue}
    (hread : readDocument text = .ok issues) (hi : i ∈ issues) (hyear : 1000 ≤ i.createdAt.year) :
    (∀ js, readDocument i.render = .ok js → ∃ j, js = [j] ∧ i.SameEntry j) ∧
      (i.SurvivesRendering ↔ i.IsShown) ∧ (i.IsPlain → i.SurvivesRendering) := by
  have h := isRead_of_readDocument hread hi
  have hiff := Issue.survivesRendering_iff_isShown h hyear
  refine ⟨fun js hjs => ?_, hiff, fun hplain => hiff.mpr (hplain.isShown h)⟩
  obtain ⟨body, hrender⟩ := Issue.readDocument_render_iff h.makesEntry hyear
  obtain ⟨headline, hdecode, -, rfl⟩ := (hrender js).mp hjs
  exact ⟨_, rfl, Issue.sameEntry_recovered h hdecode⟩

/-- A document of one entry with an id and further lines of its drawer. -/
def loneDocument (id : Text) (settings : List Text) : Text :=
  Text.ofBodies (["* TODO t".toText, ":PROPERTIES:".toText, ":ID: " ++ id,
    ":CREATED: <2025-12-18 Thu 14:30>".toText] ++ settings ++ [":END:".toText])

/-- Lines that give a reference to a source. -/
def referenceLines : List Text :=
  [":SOURCE_FILE: a.py", ":SOURCE_LINE: 7", ":SOURCE_COLUMN: 3", ":SOURCE_UUID: u"]

theorem survivesRendering_iff_sample : ∃ issues,
    readDocument (loneDocument "a" (":TAGS: b:c".toText :: referenceLines)) = .ok issues ∧
      ∃ i ∈ issues, 1000 ≤ i.createdAt.year ∧ i.IsPlain ∧
        (∀ js, readDocument i.render = .ok js → ∃ j, js = [j] ∧ i.SameEntry j) ∧
        (i.SurvivesRendering ↔ i.IsShown) ∧ (i.IsPlain → i.SurvivesRendering) := by
  obtain ⟨issues, hread, i, hi, hyear, hend, hfree, hshowable⟩ : ∃ issues,
      readDocument (loneDocument "a" (":TAGS: b:c".toText :: referenceLines)) = .ok issues ∧
        ∃ i ∈ issues, 1000 ≤ i.createdAt.year ∧
          (∀ e ∈ i.properties.entries, Text.upper e.1 = "END" → Text.isBlank e.2 = false) ∧
          (∀ key ∈ ["TAGS".toText, sourceFileKey, sourceHashKey],
            ∀ v ∈ i.properties.get? key, ∀ c ∈ v, c.isBreak = false) ∧
          ∃ c ∈ i.title, c.isBlank = false ∧ Headline.isMarkup c = false := by
    decide +kernel
  have hplain : i.IsPlain := ⟨hend, fun key hkey v hget => hfree key hkey v hget, Or.inl hshowable⟩
  exact ⟨issues, hread, i, hi, hyear, hplain, survivesRendering_iff hread hi hyear⟩

/-- The document can be read, but not every issue of it comes back. -/
def IsLossy (text : Text) : Prop := ∃ issues, readDocument text = .ok issues ∧
  ∃ i ∈ issues, 1000 ≤ i.createdAt.year ∧ ¬i.SurvivesRendering

instance (text : Text) : Decidable (IsLossy text) :=
  inferInstanceAs (Decidable (∃ issues, readDocument text = .ok issues ∧
    ∃ i ∈ issues, 1000 ≤ i.createdAt.year ∧ ¬i.SurvivesRendering))

/-- Issues are lost for a property that is written as the end of the drawer, for a title of markup whose
id is a group of tags or a cookie or ends in tags, and for breaks in tags and in the reference to a
source. -/
theorem isLossy_samples : IsLossy (loneDocument "a" (":END :".toText :: referenceLines)) ∧
    (IsLossy (loneDocument ":a:" [":TITLE: ::"]) ∧ IsLossy (loneDocument "[#A]" [":TITLE: ::"]) ∧
      IsLossy (loneDocument "x :a:" [":TITLE: ::"])) ∧
    IsLossy (loneDocument "a" [":TAGS: b\x0cc"]) ∧
    IsLossy (loneDocument "a" (referenceLines ++ [":SOURCE_FILE: a\x0cb.py".toText])) ∧
    IsLossy (loneDocument "a" (referenceLines ++ [":SOURCE_UUID: u\u2028v".toText])) := by
  decide +kernel

end TodoLedger
