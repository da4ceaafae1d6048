import TodoLedger.Document.Reader
import TodoLedger.Proofs.Text.Trim
import Mathlib.Tactic.Common
/-!
# When an entry makes an issue

An entry makes an issue exactly when its properties hold an id that is not blank, a time of
creation that can be read, and no or all of the source properties, whose line and column are
positions. The issue is then a function of the headline, the properties and the body.
-/

namespace TodoLedger

/-- The text is a number from 1 up, written with at most `Text.maxDigits` digits. -/
structure IsPosition (value : Text) : Prop where
  isDecimal : Text.isDecimal (Text.trim value) = true
  length_le : (Text.trim value).length ≤ Text.maxDigits
  pos : 1 ≤ Text.digitsValue (Text.trim value)

namespace Properties

/-- The value of a key, empty where the key is missing. -/
def valueOf (p : Properties) (key : Text) : Text := (p.get? key).getD []

/-- There is an id, and it is not blank. -/
def HasId (p : Properties) : Prop := ∃ id, p.get? "ID" = some id ∧ Text.isBlank id = false

/-- The first key for the time of creation that is there holds the moment. -/
def CreatedAt (p : Properties) (moment : DateTime) : Prop :=
  ∃ value, p.first? createdKeys = some value ∧ Timestamp.decode value = .ok moment

/-- None of the source properties is there, or all are and hold positions. -/
def HasNoOrFullSource (p : Properties) : Prop :=
  (∀ key ∈ sourceKeys, p.has key = false) ∨
    (∀ key ∈ sourceKeys, p.has key = true) ∧
      IsPosition (p.valueOf sourceLineKey) ∧ IsPosition (p.valueOf sourceColumnKey)

/-- What the properties of an entry must hold. -/
structure Complete (p : Properties) : Prop where
  id : p.HasId
  created : ∃ moment, p.CreatedAt moment
  source : p.HasNoOrFullSource

/-- The source properties decide. -/
theorem hasNoOrFullSource_congr {p q : Properties}
    (h : ∀ key ∈ sourceKeys, p.get? key = q.get? key) :
    p.HasNoOrFullSource ↔ q.HasNoOrFullSource := by
  have hhas : ∀ b, (∀ key ∈ sourceKeys, p.has key = b) ↔ ∀ key ∈ sourceKeys, q.has key = b :=
    fun b => forall₂_congr fun key hkey => by rw [has, has, h key hkey]
  have hline : p.valueOf sourceLineKey = q.valueOf sourceLineKey := by
    rw [valueOf, valueOf, h sourceLineKey (by simp [sourceKeys])]
  have hcolumn : p.valueOf sourceColumnKey = q.valueOf sourceColumnKey := by
    rw [valueOf, valueOf, h sourceColumnKey (by simp [sourceKeys])]
  rw [HasNoOrFullSource, HasNoOrFullSource, hhas, hhas, hline, hcolumn]

theorem CreatedAt.eq {p : Properties} {value : Text} {moment moment' : DateTime}
    (h : p.CreatedAt moment) (hget : p.get? "CREATED" = some value)
    (hvalue : Timestamp.decode value = .ok moment') : moment = moment' := by
  obtain ⟨value', hfirst, hmoment⟩ := h
  rw [first?, createdKeys, List.findSome?_cons, hget] at hfirst
  obtain rfl := Option.some.inj hfirst
  exact Except.ok.inj (hmoment.symm.trans hvalue)

end Properties

namespace Draft

theorem checkPositions_eq_ok_iff (d : Draft) (id : Text) (keys : List Text) :
    d.checkPositions id keys = .ok () ↔
      ∀ key ∈ keys, IsPosition (d.properties.valueOf key) := by
  induction keys with
  | nil => simp [checkPositions]
  | cons key keys ih =>
      rw [checkPositions]
      simp only [List.forall_mem_cons, ← ih]
      set value := Text.trim ((d.properties.get? key).getD []) with hvalue
      have hpos : IsPosition (d.properties.valueOf key) ↔
          Text.isDecimal value = true ∧ value.length ≤ Text.maxDigits ∧
            1 ≤ Text.digitsValue value :=
        ⟨fun h => ⟨h.1, h.2, h.3⟩, fun h => ⟨h.1, h.2.1, h.2.2⟩⟩
      rw [hpos]
      split_ifs with hdec hlen hone
      · simp at hdec
        simp [hdec]
      · simp [Nat.not_le.mpr hlen]
      · have : ¬1 ≤ Text.digitsValue value := Nat.not_le.mpr hone
        simp [this]
      · simp at hdec
        simp [hdec, Nat.not_lt.mp hlen, Nat.not_lt.mp hone]

theorem checkSource_eq_ok_iff (d : Draft) (id : Text) :
    d.checkSource id = .ok () ↔ d.properties.HasNoOrFullSource := by
  rw [checkSource, Properties.HasNoOrFullSource]
  by_cases hany : sourceKeys.any d.properties.has = true
  · have hsome : ¬∀ key ∈ sourceKeys, d.properties.has key = false := by
      obtain ⟨key, hkey, hhas⟩ := List.any_eq_true.mp hany
      exact fun h => by simp [h key hkey] at hhas
    by_cases hall : ∀ key ∈ sourceKeys, d.properties.has key = true
    · have hmissing : sourceKeys.filter (fun key => !d.properties.has key) = [] := by
        rw [List.filter_eq_nil_iff]
        intro key hkey
        simp [hall key hkey]
      simp only [hany, Bool.not_true, Bool.false_eq_true, if_false, hmissing, List.isEmpty_nil,
        if_true, checkPositions_eq_ok_iff, hsome, false_or, List.forall_mem_cons]
      constructor
      · rintro ⟨hline, hcolumn, -⟩
        exact ⟨hall, hline, hcolumn⟩
      · rintro ⟨-, hline, hcolumn⟩
        exact ⟨hline, hcolumn, by simp⟩
    · have hmissing : sourceKeys.filter (fun key => !d.properties.has key) ≠ [] := by
        intro h
        apply hall
        intro key hkey
        simpa using List.filter_eq_nil_iff.mp h key hkey
      simp only [hany, Bool.not_true, Bool.false_eq_true, if_false, List.isEmpty_iff, hmissing,
        hsome, hall, false_and, or_self, reduceCtorEq]
  · have hnone : ∀ key ∈ sourceKeys, d.properties.has key = false := by
      intro key hkey
      by_contra hhas
      exact hany (List.any_eq_true.mpr ⟨key, hkey, by simpa using hhas⟩)
    simp only [hany, Bool.not_false, if_true, true_iff]
    exact Or.inl hnone

/-- The issue of a complete entry with an id and a time of creation. -/
def issueWith (d : Draft) (id : Text) (createdAt : DateTime) : Issue :=
  let p := d.properties
  { id
    title := if (p.valueOf "TITLE").isEmpty then d.headline.title else p.valueOf "TITLE"
    description := (p.get? "DESCRIPTION").getD (Text.join "\n" d.body)
    createdAt
    state := d.headline.state
    priority := ((p.get? "PRIORITY").bind Priority.ofName?).getD d.headline.priority
    tags := distinct (((p.get? "TAGS").map Entry.tagsOf).getD d.headline.tags)
    properties := p
    level := d.headline.level }

theorem title_issueWith {d : Draft} {id title : Text} {moment : DateTime} (hne : title ≠ [])
    (h : d.properties.get? "TITLE" = some title) : (d.issueWith id moment).title = title := by
  have hempty : title.isEmpty = false := by simpa using hne
  rw [issueWith]
  simp only [Properties.valueOf, h, Option.getD_some, hempty, Bool.false_eq_true, if_false]

theorem entry_toIssue {d : Draft} {id : Text} (createdAt : DateTime)
    (hid : d.properties.get? "ID" = some id) (hne : id ≠ []) :
    d.entry.toIssue createdAt = .ok (d.issueWith id createdAt) := by
  have hempty : id.isEmpty = false := by simpa using hne
  rw [Entry.toIssue]
  simp only [Draft.entry, hid, Issue.make?, hempty]
  rfl

theorem toIssue_eq_ok_iff (d : Draft) (i : Issue) :
    d.toIssue = .ok i ↔ ∃ id moment, d.properties.get? "ID" = some id ∧
      Text.isBlank id = false ∧ d.properties.CreatedAt moment ∧
      d.properties.HasNoOrFullSource ∧ i = d.issueWith id moment := by
  rw [toIssue]
  cases hid : d.properties.get? "ID" with
  | none =>
      have hempty : (Text.trim ((none : Option Text).getD [])).isEmpty = true := rfl
      simp only [hempty, if_true, reduceCtorEq, false_and, exists_false]
  | some id =>
      simp only [Option.getD_some, Text.trim_isEmpty, Option.some.injEq]
      by_cases hblank : Text.isBlank id = true
      · simp only [hblank, if_true]
        constructor
        · intro h; cases h
        · rintro ⟨_, _, rfl, h, _⟩
          rw [hblank] at h
          cases h
      · have hne : id ≠ [] := by
          rintro rfl
          exact hblank rfl
        rw [if_neg hblank]
        simp only [Properties.CreatedAt]
        cases hfirst : d.properties.first? createdKeys with
        | none => simp
        | some value =>
            cases hdecode : Timestamp.decode value with
            | error cause => simp [hdecode]
            | ok moment =>
                have hissue := entry_toIssue moment hid hne
                simp only [hdecode, hissue]
                cases hsource : d.checkSource (Text.trim id) with
                | error fault =>
                    have hnot : ¬d.properties.HasNoOrFullSource := by
                      rw [← checkSource_eq_ok_iff d (Text.trim id), hsource]
                      simp
                    simp [bind, Except.bind, hnot]
                | ok _ =>
                    have hfull : d.properties.HasNoOrFullSource :=
                      (checkSource_eq_ok_iff d (Text.trim id)).mp hsource
                    simp only [Bool.not_eq_true] at hblank
                    simp [bind, Except.bind, hfull, hblank, hdecode, eq_comm]

/-- An entry makes an issue exactly when its properties are complete. -/
theorem exists_toIssue_iff (d : Draft) :
    (∃ i, d.toIssue = .ok i) ↔ d.properties.Complete := by
  constructor
  · rintro ⟨i, hi⟩
    obtain ⟨id, moment, hid, hblank, hcreated, hsource, _⟩ := (toIssue_eq_ok_iff d i).mp hi
    exact ⟨⟨id, hid, hblank⟩, ⟨moment, hcreated⟩, hsource⟩
  · rintro ⟨⟨id, hid, hblank⟩, ⟨moment, hcreated⟩, hsource⟩
    exact ⟨_, (toIssue_eq_ok_iff d _).mpr
      ⟨id, moment, hid, hblank, hcreated, hsource, rfl⟩⟩

end Draft

end TodoLedger
