import TodoLedger.Proofs.Comment.Marker
import TodoLedger.Proofs.Edit
import TodoLedger.Proofs.Patch
import TodoLedger.Proofs.Tasks
import TodoLedger.Proofs.Text.Letter
import TodoLedger.Proofs.Workspace.Sample
/-!
# When a line counts as gathered

The search for tasks passes a line over if a whole marker stands in it, in any case, or if the opening of
one shows in its lower-case form. The edit that inserts a marker looks for the opening in the lower-case
form alone. The two tests differ on an I that is a variant of the ASCII letter: a marker that is spelled
with it is read, but does not show.
-/

namespace TodoLedger

namespace Marker

variable {line : Text}

/-- A whole marker stands in the line. -/
def IsWhole (line : Text) : Prop :=
  ∃ before u word id rest, line = before ++ u ∧ Begins u word id rest

/-- The opening of a marker stands in the line, in ASCII letters of any case. -/
def IsSpelled (line : Text) : Prop :=
  ∃ word, word <:+: line ∧ Text.SameWord word opening ∧ ∀ c ∈ word, c.code < 0x80

/-- A whole marker stands in the line, but none is spelled in ASCII letters. -/
def IsForeign (line : Text) : Prop := IsWhole line ∧ ¬IsSpelled line

theorem isBegun_iff_isSpelled : isBegun line = true ↔ IsSpelled line := by
  have hopening : Text.ShowsSpelling opening := ⟨by decide, by decide⟩
  have hletters : opening.map Rune.letter = opening := by decide
  rw [isBegun_iff, Text.infix_lower_iff hopening (by decide), IsSpelled]
  simp only [Text.SameWord, hletters]

theorem find?_isSome_iff : (find? line).isSome = true ↔ IsWhole line := by
  constructor
  · intro h
    obtain ⟨⟨before, id, rest⟩, hfind⟩ := Option.isSome_iff_exists.mp h
    obtain ⟨u, word, hsplit, hbegins⟩ := exists_begins_of_find? hfind
    exact ⟨before, u, word, id, rest, hsplit, hbegins⟩
  · rintro ⟨before, u, word, id, rest, hsplit, hbegins⟩
    rw [Option.isSome_iff_ne_none]
    intro hnone
    have hread := find?_eq_none_iff.mp hnone before u hsplit
    rw [read?_eq_some_iff.mpr ⟨word, hbegins⟩] at hread
    cases hread

theorem idOf?_ne_none_iff : idOf? line ≠ none ↔ IsWhole line ∨ IsSpelled line := by
  rw [← find?_isSome_iff, ← isBegun_iff_isSpelled, idOf?]
  cases find? line with
  | some found => simp
  | none => simp

end Marker

/-- None of the tasks of the line is found unless marked ones are wanted, and those that are found then
have an id. -/
def CountsAsGathered (path : Path) (t : Text) (n : Nat) : Prop :=
  (∀ task ∈ tasksOf path false t, task.line ≠ n) ∧
    ∀ task ∈ tasksOf path true t, task.line = n → task.issueId ≠ none

/-- A line on which some form finds a comment with a text. -/
def HasComment (path : Path) (line : Text) : Prop :=
  ∃ f ∈ Scan.ofLine (CommentSyntax.ofPath path) line, f.text ≠ []

instance (path : Path) (line : Text) : Decidable (HasComment path line) :=
  inferInstanceAs (Decidable (∃ f ∈ Scan.ofLine (CommentSyntax.ofPath path) line, f.text ≠ []))

section Line

variable {path : Path} {t line : Text} {k : Nat}

theorem mem_tasksOf_of_mem_tasksOfLine {withMarked : Bool} {task : Task}
    (hline : (withoutBom (Text.bodies t))[k]? = some line)
    (h : task ∈ tasksOfLine path withMarked (k + 1) line) : task ∈ tasksOf path withMarked t :=
  mem_tasksOf_iff.mpr ⟨k, line, hline, (line_of_mem_tasksOfLine h).2, h⟩

theorem issueId_of_mem_tasksOf {withMarked : Bool} {task : Task}
    (hline : (withoutBom (Text.bodies t))[k]? = some line) (h : task ∈ tasksOf path withMarked t)
    (hnumber : task.line = (k + 1 : Nat)) :
    task.issueId = Marker.idOf? line ∧ (task.issueId = none ∨ withMarked = true) := by
  obtain ⟨k', line', hline', hnumber', htask⟩ := mem_tasksOf_iff.mp h
  obtain rfl : k = k' := by omega
  obtain rfl := Option.some.inj (hline.symm.trans hline')
  obtain ⟨hwanted, f, -, -, rfl⟩ := mem_tasksOfLine_iff.mp htask
  exact ⟨rfl, hwanted⟩

/-- A line with a comment counts as gathered for a whole marker and for the opening of one. -/
theorem countsAsGathered_iff (hline : (withoutBom (Text.bodies t))[k]? = some line)
    (hcomment : HasComment path line) :
    CountsAsGathered path t (k + 1) ↔ Marker.IsWhole line ∨ Marker.IsSpelled line := by
  rw [← Marker.idOf?_ne_none_iff]
  constructor
  · rintro ⟨hnone, -⟩ hunmarked
    obtain ⟨f, hf, hne⟩ := hcomment
    have htext := Scan.Found.textOn_of_unmarked hunmarked f
    obtain ⟨task, htask⟩ : ∃ task, task ∈ tasksOfLine path false (k + 1) line :=
      ⟨_, mem_tasksOfLine_iff.mpr ⟨Or.inl hunmarked, f, hf, htext ▸ hne, rfl⟩⟩
    exact hnone task (mem_tasksOf_of_mem_tasksOfLine hline htask) (line_of_mem_tasksOfLine htask).2
  · intro hmarked
    constructor
    · intro task htask hnumber
      obtain ⟨hid, hwanted⟩ := issueId_of_mem_tasksOf hline htask hnumber
      exact hmarked (hid.symm.trans (hwanted.resolve_right (by decide)))
    · intro task htask hnumber
      rw [(issueId_of_mem_tasksOf hline htask hnumber).1]
      exact hmarked

end Line

namespace Patch

variable {b : Backups} {path : Path} {w : Workspace} {bytes : Bytes} {line id : Text} {k : Nat}
  {r : Task}

def refusal : Text := "Line already has reference"

/-- The insertion of a marker leaves the line alone because it has one. -/
def Refuses (b : Backups) (path : Path) (r : Task) (id : Text) (w : Workspace) : Prop :=
  ((apply b path (.insertMarker r id)).runOn w).1 = .ok ⟨path, .unchanged, refusal⟩

/-- A marker is refused where the opening of one is spelled in ASCII letters. -/
theorem refuses_iff (hcontent : w.content path = .ok bytes)
    (hline : (withoutBom (Text.bodies (Utf8.decode bytes)))[k]? = some line)
    (hr : r.line = (k + 1 : Nat)) : Refuses b path r id w ↔ Marker.IsSpelled line := by
  obtain ⟨l, mark, hl, hbody, hmark⟩ := exists_mark hline
  have hbegun : Marker.isBegun l.body = Marker.isBegun line := by
    rw [hbody]
    obtain ⟨rfl, -⟩ | ⟨rfl, -⟩ := hmark
    · rfl
    · exact Marker.isBegun_bom_cons line
  rw [Refuses, apply_eq_unchanged_iff hcontent, ← Marker.isBegun_iff_isSpelled, ← hbegun,
    @Edit.apply_getElem? (.insertMarker r id) _ _ _ _ hr hl, Edit.applyLine]
  by_cases hmarked : Marker.isBegun l.body = true
  · rw [if_pos hmarked]
    exact iff_of_true rfl hmarked
  · rw [if_neg hmarked]
    refine iff_of_false ?_ hmarked
    cases markedBody? r.column id l.body with
    | none =>
        intro h
        have hmessage : "No TODO keyword found on line".toText ≠ refusal := by decide
        exact hmessage (Edited.unchanged.inj (Except.ok.inj h))
    | some body =>
        intro h
        cases Except.ok.inj h

/-- On a line with a comment, what counts as gathered is refused and what is refused counts as gathered,
except for a line whose whole marker is spelled with a letter outside ASCII. It counts as gathered, but a
second marker is not refused. -/
theorem countsAsGathered_iff_refuses (hcontent : w.content path = .ok bytes)
    (hline : (withoutBom (Text.bodies (Utf8.decode bytes)))[k]? = some line)
    (hcomment : HasComment path line) (hr : r.line = (k + 1 : Nat)) :
    (Refuses b path r id w → CountsAsGathered path (Utf8.decode bytes) (k + 1)) ∧
      (CountsAsGathered path (Utf8.decode bytes) (k + 1) ∧ ¬Refuses b path r id w ↔
        Marker.IsForeign line) := by
  rw [countsAsGathered_iff hline hcomment, refuses_iff hcontent hline hr, Marker.IsForeign]
  tauto

/-- A file in whose first line the marker is spelled with the dotless I, and in whose second with
capitals. -/
def twoMarkers : Workspace :=
  .ofFiles ["d"] [("a.py", "# TODO: [org\u0131:x] b\n# FIXME: [ORGI: y ] c\n")]

/-- The second line counts as gathered and is refused. -/
theorem countsAsGathered_iff_refuses_capitals : ∃ bytes,
    twoMarkers.content ⟨.relative, ["a.py"]⟩ = .ok bytes ∧
      (withoutBom (Text.bodies (Utf8.decode bytes)))[1]? = some "# FIXME: [ORGI: y ] c".toText ∧
      HasComment ⟨.relative, ["a.py"]⟩ "# FIXME: [ORGI: y ] c" ∧
      ∀ b id, ∀ r : Task, r.line = 2 → Refuses b ⟨.relative, ["a.py"]⟩ r id twoMarkers ∧
        CountsAsGathered ⟨.relative, ["a.py"]⟩ (Utf8.decode bytes) 2 := by
  obtain ⟨bytes, hcontent, hline⟩ : ∃ bytes, twoMarkers.content ⟨.relative, ["a.py"]⟩ = .ok bytes ∧
      (withoutBom (Text.bodies (Utf8.decode bytes)))[1]? = some "# FIXME: [ORGI: y ] c".toText := by
    decide +kernel
  have hcomment : HasComment ⟨.relative, ["a.py"]⟩ "# FIXME: [ORGI: y ] c" := by decide +kernel
  have hspelled : Marker.IsSpelled "# FIXME: [ORGI: y ] c" :=
    ⟨"[ORGI:", ⟨"# FIXME: ", " y ] c", by decide⟩, by rw [Text.SameWord]; decide, by decide⟩
  refine ⟨bytes, hcontent, hline, hcomment, fun b id r hr => ?_⟩
  have hrefuses : Refuses b ⟨.relative, ["a.py"]⟩ r id twoMarkers :=
    (refuses_iff hcontent hline hr).mpr hspelled
  exact ⟨hrefuses, (countsAsGathered_iff_refuses hcontent hline hcomment hr).1 hrefuses⟩

/-- The first line counts as gathered, with the id of its marker, but a second marker is written. -/
theorem gathered_not_refused : ∃ bytes,
    twoMarkers.content ⟨.relative, ["a.py"]⟩ = .ok bytes ∧
      HasComment ⟨.relative, ["a.py"]⟩ "# TODO: [org\u0131:x] b" ∧
      tasksOf ⟨.relative, ["a.py"]⟩ false (Utf8.decode bytes) = [] ∧
      (∃ r ∈ tasksOf ⟨.relative, ["a.py"]⟩ true (Utf8.decode bytes), r.line = 1 ∧
        r.issueId = some "x".toText ∧
        ((apply ⟨⟨.relative, ["kept"]⟩, 1⟩ ⟨.relative, ["a.py"]⟩ (.insertMarker r "z")).runOn
          twoMarkers).1 = .ok ⟨⟨.relative, ["a.py"]⟩, .applied, "Inserted reference z"⟩) := by
  decide +kernel

end Patch

end TodoLedger
