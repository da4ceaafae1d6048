import TodoLedger.Proofs.Document.Refusal
/-!
# Calling a reader in any order

A reader is given lines, is told that the document ends and is made to turn its entry into an issue. Who
calls it may do so in any order, and may go on after a fault. Every call leaves the reader `Consistent`:
it has an entry exactly if it stands in one, and a drawer that is still to come has left no trace in it.
So no call finds an entry missing, and the issues that are made stay.
-/

namespace TodoLedger

/-- What holds of an entry that has been read up to a phase. -/
structure Draft.InPhase (phase : Phase) (d : Draft) : Prop where
  beforeDrawer : phase = .headline →
    (∀ line ∈ d.body, Text.isBlank line = true) ∧ d.properties = .empty
  keys : ∀ key ∈ d.properties.keys, key ≠ [] ∧ Text.IsTrimmed key
  body : ∀ line ∈ d.body, line.head? ≠ some (Rune.ofChar '*')

namespace Reader

inductive Call
  | feed (number : Nat) (line : Text)
  | finish
  | settle

/-- What a call leaves: the reader, and a fault if there was one. -/
def perform (r : Reader) : Call → Reader × Option ReadFault
  | .feed number line => { r with line := number }.feed line
  | .finish =>
    match r.finish with
    | .ok r' => (r', none)
    | .error fault => (r, some fault)
  | .settle =>
    match r.settle with
    | .ok (_, r') => (r', none)
    | .error fault => (r, some fault)

/-- The reader behind all calls, whether they failed or not. -/
def after (calls : List Call) : Reader := calls.foldl (fun r call => (r.perform call).1) start

structure Consistent (r : Reader) : Prop where
  unassigned_iff : r.phase = .unassigned ↔ r.draft = none
  draft : ∀ d, r.draft = some d → d.InPhase r.phase
  issues : ∀ i ∈ r.issues, ∀ key ∈ i.properties.keys, key ≠ [] ∧ Text.IsTrimmed key

/-- What a call may leave behind a reader: one issue more at most, and no fault for want of an entry. -/
structure Leaves (r : Reader) (outcome : Reader × Option ReadFault) : Prop where
  consistent : outcome.1.Consistent
  issues : ∃ more : List Issue, more.length ≤ 1 ∧ outcome.1.issues = r.issues ++ more
  fault : ∀ phase, outcome.2 ≠ some (.noEntry phase)

end Reader

/-! ## The entry -/

namespace Draft

variable {d : Draft} {phase phase' : Phase} {line : Text}

theorem InPhase.change (h : d.InPhase phase) (hphase : phase' ≠ .headline) : d.InPhase phase' where
  beforeDrawer := fun hheadline => absurd hheadline hphase
  keys := h.keys
  body := h.body

theorem inPhase_ofHeadline (n : Int) (headline : Headline) (phase : Phase) :
    (ofHeadline n headline).InPhase phase where
  beforeDrawer _ := ⟨by simp [ofHeadline], rfl⟩
  keys := by simp [ofHeadline, Properties.keys, Properties.empty]
  body := by simp [ofHeadline]

theorem InPhase.addBody (h : d.InPhase phase) (hline : line.head? ≠ some (Rune.ofChar '*'))
    (hblank : phase' = .headline → phase = .headline ∧ Text.isBlank line = true) :
    (Reader.addBody d line).InPhase phase' where
  beforeDrawer hphase := by
    obtain ⟨hbefore, hline⟩ := hblank hphase
    obtain ⟨hbody, hproperties⟩ := h.beforeDrawer hbefore
    exact ⟨List.forall_mem_append.mpr ⟨hbody, List.forall_mem_singleton.mpr hline⟩, hproperties⟩
  keys := h.keys
  body := List.forall_mem_append.mpr ⟨h.body, List.forall_mem_singleton.mpr hline⟩

/-- A drawer begins. -/
theorem InPhase.opened (h : d.InPhase phase) : InPhase .properties { d with body := [] } where
  beforeDrawer := by simp
  keys := h.keys
  body := by simp

/-- A drawer sets a property. -/
theorem InPhase.set {key value : Text} (h : d.InPhase .properties)
    (hset : propertyOf? (Text.trim line) = some (key, value)) (hne : key ≠ []) :
    InPhase .properties { d with properties := d.properties.set key value } where
  beforeDrawer := by simp
  keys := by
    obtain ⟨k, v, -, -, rfl, -⟩ := form_of_propertyOf? hset
    rw [Properties.keys_set]
    split_ifs
    · exact h.keys
    · exact List.forall_mem_append.mpr
        ⟨h.keys, List.forall_mem_singleton.mpr ⟨hne, Text.isTrimmed_trim k⟩⟩
  body := h.body

theorem properties_of_toIssue {i : Issue} (h : d.toIssue = .ok i) : i.properties = d.properties := by
  obtain ⟨id, moment, -, -, -, -, rfl⟩ := (toIssue_eq_ok_iff d i).mp h
  rfl

theorem ne_noEntry_of_toIssue {fault : ReadFault} (h : d.toIssue = .error fault) (phase : Phase) :
    some fault ≠ some (.noEntry phase) := by
  cases refuses_of_toIssue h <;> simp

end Draft

/-! ## One call -/

namespace Reader

variable {r r' : Reader} {d : Draft} {i : Issue} {line : Text} {fault : ReadFault}

theorem consistent_start : start.Consistent :=
  ⟨iff_of_true rfl rfl, by simp [start], by simp [start]⟩

/-- A call that changes nothing, passed over or refused. -/
theorem Consistent.unmoved (h : r.Consistent) {fault : Option ReadFault}
    (hfault : ∀ phase, fault ≠ some (.noEntry phase)) : r.Leaves (r, fault) :=
  ⟨h, ⟨[], Nat.zero_le _, (List.append_nil _).symm⟩, hfault⟩

/-- The entry is exchanged for what has been read of it since. -/
theorem Consistent.redraft (h : r.Consistent) (phase : Phase) (hphase : phase ≠ .unassigned)
    (hd : d.InPhase phase) : r.Leaves ({ r with phase, draft := some d }, none) where
  consistent := ⟨iff_of_false hphase (by simp), fun d' hd' => Option.some.inj hd' ▸ hd, h.issues⟩
  issues := ⟨[], Nat.zero_le _, (List.append_nil _).symm⟩
  fault := by simp

theorem Consistent.settled (h : r.Consistent) (hdraft : r.draft = some d) (hissue : d.toIssue = .ok i) :
    r.Leaves ({ r with phase := .unassigned, draft := none, issues := r.issues ++ [i] }, none) where
  consistent := by
    refine ⟨iff_of_true rfl rfl, by simp, List.forall_mem_append.mpr ⟨h.issues, ?_⟩⟩
    rw [List.forall_mem_singleton, Draft.properties_of_toIssue hissue]
    exact (h.draft d hdraft).keys
  issues := ⟨[i], Nat.le_refl 1, rfl⟩
  fault := by simp

theorem Consistent.settleIfAny (h : r.Consistent) :
    (∀ r', r.settleIfAny = .ok r' → r.Leaves (r', none)) ∧
      ∀ fault, r.settleIfAny = .error fault → r.Leaves (r, some fault) := by
  rw [Reader.settleIfAny, settle]
  cases hdraft : r.draft with
  | none =>
      refine ⟨fun r' hr => ?_, fun fault hfault => by cases hfault⟩
      obtain rfl := Except.ok.inj hr
      exact h.unmoved (by simp)
  | some d =>
      simp only [Option.isNone_some, Bool.false_eq_true, if_false]
      cases hissue : d.toIssue with
      | ok i =>
          refine ⟨fun r' hr => ?_, fun fault hfault => by cases hfault⟩
          obtain rfl := Except.ok.inj hr
          exact h.settled hdraft hissue
      | error fault =>
          refine ⟨fun r' hr => (by cases hr), fun fault' hfault => ?_⟩
          obtain rfl := Except.error.inj hfault
          exact h.unmoved (Draft.ne_noEntry_of_toIssue hissue)

theorem Consistent.feedHeadline (h : r.Consistent) (line : Text) :
    r.Leaves (r.feedHeadline line) := by
  obtain ⟨hok, herror⟩ := h.settleIfAny
  rw [Reader.feedHeadline]
  split_ifs
  · exact h.unmoved (by simp)
  · cases hsettled : r.settleIfAny with
    | error fault => exact herror fault hsettled
    | ok settled =>
        have hleaves := hok settled hsettled
        cases Headline.decode line with
        | error cause => exact ⟨hleaves.consistent, hleaves.issues, by simp⟩
        | ok headline =>
            -- The entry that was read is settled, whatever becomes of the next one.
            have hbegun := hleaves.consistent.redraft .headline (by simp)
              (Draft.inPhase_ofHeadline settled.line headline .headline)
            exact ⟨hbegun.consistent, hleaves.issues, hbegun.fault⟩

theorem Consistent.inDrawer (h : r.Consistent) (hphase : r.phase = .properties)
    (hdraft : r.draft = some d) (line : Text) : r.Leaves (r.inDrawer d line) := by
  have hd := h.draft d hdraft
  rw [hphase] at hd
  rw [Reader.inDrawer]
  split_ifs
  · have hleaves := h.redraft .body (by simp) (hd.change (by simp))
    rwa [← hdraft] at hleaves
  · exact h.unmoved (by simp)
  · cases hset : propertyOf? (Text.trim line) with
    | none => exact h.unmoved (by simp)
    | some e =>
        obtain ⟨key, value⟩ := e
        simp only
        split_ifs with hempty
        · exact h.unmoved (by simp)
        · have hleaves := h.redraft .properties (by simp)
            (hd.set hset (by simpa using hempty))
          rwa [← hphase] at hleaves

/-- Until the drawer begins the body takes blank lines only; a line that is not blank ends the wait. -/
theorem Consistent.afterHeadline (h : r.Consistent) (hd : d.InPhase .headline)
    (hline : line.head? ≠ some (Rune.ofChar '*')) : r.Leaves (r.afterHeadline d line, none) := by
  rw [Reader.afterHeadline]
  split
  · exact h.redraft .properties (by simp) hd.opened
  · refine h.redraft _ ?_ (hd.addBody hline fun hphase => ⟨rfl, ?_⟩)
    · split_ifs <;> simp
    · by_contra hblank
      rw [if_neg hblank] at hphase
      cases hphase

theorem Consistent.exists_draft (h : r.Consistent) (hphase : r.phase ≠ .unassigned) :
    ∃ d, r.draft = some d := by
  rwa [← Option.ne_none_iff_exists', ne_eq, ← h.unassigned_iff]

theorem Consistent.feedInner (h : r.Consistent) (hline : line.head? ≠ some (Rune.ofChar '*')) :
    r.Leaves (r.feedInner line) := by
  rw [Reader.feedInner]
  cases hphase : r.phase with
  | unassigned => exact h.unmoved (by simp)
  | headline =>
      obtain ⟨d, hdraft⟩ := h.exists_draft (by simp [hphase])
      rw [hdraft]
      exact h.afterHeadline (hphase ▸ h.draft d hdraft) hline
  | properties =>
      obtain ⟨d, hdraft⟩ := h.exists_draft (by simp [hphase])
      rw [hdraft]
      exact h.inDrawer hphase hdraft line
  | body =>
      obtain ⟨d, hdraft⟩ := h.exists_draft (by simp [hphase])
      rw [hdraft]
      exact h.redraft .body (by simp) ((h.draft d hdraft).addBody hline (by simp))

theorem Consistent.feed (h : r.Consistent) (line : Text) : r.Leaves (r.feed line) := by
  rw [Reader.feed, isHeadlineLine]
  split_ifs with hline
  · exact h.feedHeadline line
  · exact h.feedInner (by simpa using hline)

theorem Consistent.perform (h : r.Consistent) (call : Call) : r.Leaves (r.perform call) := by
  cases call with
  | feed number line =>
      have hturned : Consistent { r with line := number } := ⟨h.unassigned_iff, h.draft, h.issues⟩
      obtain ⟨hconsistent, hissues, hfault⟩ := hturned.feed line
      exact ⟨hconsistent, hissues, hfault⟩
  | finish =>
      obtain ⟨hok, herror⟩ := h.settleIfAny
      rw [Reader.perform, Reader.finish]
      by_cases hphase : r.phase = .properties
      · rw [if_pos hphase]
        exact h.unmoved (by simp)
      · rw [if_neg hphase]
        cases hsettled : r.settleIfAny with
        | ok r' => exact hok r' hsettled
        | error fault => exact herror fault hsettled
  | settle =>
      rw [Reader.perform, Reader.settle]
      cases hdraft : r.draft with
      | none => exact h.unmoved (by simp)
      | some d =>
          dsimp only
          cases hissue : d.toIssue with
          | ok i => exact h.settled hdraft hissue
          | error fault => exact h.unmoved (Draft.ne_noEntry_of_toIssue hissue)

/-! ## Any number of calls -/

theorem after_concat (calls : List Call) (call : Call) :
    after (calls ++ [call]) = ((after calls).perform call).1 := by
  rw [after, List.foldl_concat]
  rfl

theorem consistent_after (calls : List Call) : (after calls).Consistent := by
  induction calls using List.reverseRecOn with
  | nil => exact consistent_start
  | append_singleton calls call ih =>
      rw [after_concat]
      exact (ih.perform call).consistent

theorem issues_after_prefix (calls later : List Call) :
    (after calls).issues <+: (after (calls ++ later)).issues := by
  induction later using List.reverseRecOn with
  | nil => simp
  | append_singleton later call ih =>
      obtain ⟨more, -, hmore⟩ := ((consistent_after (calls ++ later)).perform call).issues
      rw [← List.append_assoc, after_concat, hmore]
      exact ih.trans (List.prefix_append _ _)

/-- Behind any calls the reader is consistent. The next call, failed or not, adds at most one issue to
those that are made, which stay, and never finds the reader in an entry without having one. -/
theorem calls_leave_consistent (calls : List Call) :
    (after calls).Consistent ∧
      (∀ later, (after calls).issues <+: (after (calls ++ later)).issues) ∧
      ∀ call, (∃ more : List Issue, more.length ≤ 1 ∧
          ((after calls).perform call).1.issues = (after calls).issues ++ more) ∧
        ∀ phase, ((after calls).perform call).2 ≠ some (.noEntry phase) := by
  have hafter := consistent_after calls
  refine ⟨hafter, issues_after_prefix calls, fun call => ?_⟩
  have hleaves := hafter.perform call
  exact ⟨hleaves.issues, hleaves.fault⟩

/-- A headline that is refused ends the entry before it all the same. -/
example :
    let r := after [.feed 1 "* TODO b", .feed 2 ":PROPERTIES:", .feed 3 ":ID: 1",
      .feed 4 ":CREATED: <2025-12-18 Thu 14:30>", .feed 5 ":END:", .feed 6 "* c"]
    r.phase = .unassigned ∧ r.draft = none ∧ r.issues.length = 1 := by
  decide +kernel

end Reader

end TodoLedger
