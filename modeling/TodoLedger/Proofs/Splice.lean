import TodoLedger.Proofs.Comment.Keyword
import TodoLedger.Proofs.Edit
import TodoLedger.Proofs.Text.Cut
import TodoLedger.Proofs.Workspace.Sample
import TodoLedger.Proofs.Workspace.Write
import TodoLedger.Patch
/-!
# What an edit writes

A patch that is applied replaces the bytes of one physical line. `Edit.Rewrites` says by what, for
each of the three edits; the bytes of the other lines are those that were read, whether they can be
decoded or not.
-/

namespace TodoLedger

open Work Workspace Utf8

variable {e : Edit} {comments : CommentSyntax} {l : Line} {new : List Line} {m : Text} {b : Backups}
  {p : Path} {w w' : Workspace} {patch : Patch}

/-- The bytes that take the place of a line. A marker takes that of the blanks behind the colon of a
keyword, which stays as it is written; a comment keeps the indent and the ending of the line. -/
inductive Edit.Rewrites (comments : CommentSyntax) (l : Line) : Edit → Bytes → Prop
  | marked {task : Task} {id before word blanks rest : Text} :
      IsMarkedKeyword (task.column - 1).toNat l.body before word (blanks ++ rest) →
      (∀ c ∈ blanks, c.isSpaceOrTab = true) → (∀ c, rest.head? = some c → c.isSpaceOrTab = false) →
      Rewrites comments l (.insertMarker task id)
        (bytesOf before ++ bytesOf word ++ bytesOf (": " ++ Marker.text id ++ " ") ++
          bytesOf rest ++ bytesOf l.ending.text)
  | removed {line : Int} : Rewrites comments l (.removeLine line) []
  | commented {line : Int} {note : Text} :
      Rewrites comments l (.commentOut line note)
        (bytesOf (Text.indent l.body) ++
          bytesOf (comments.wrap (Text.trim l.body) ++ " " ++ comments.wrap note) ++
          bytesOf l.ending.text)

theorem Edit.rewrites_of_applyLine (h : e.applyLine comments l = .ok (new, m)) :
    e.Rewrites comments l (bytesOf (Text.ofLines new)) := by
  cases e with
  | insertMarker task id =>
      rw [applyLine] at h
      split_ifs at h
      cases hbody : markedBody? task.column id l.body with
      | none =>
          rw [hbody] at h
          cases h
      | some body =>
          rw [hbody] at h
          cases h
          obtain ⟨before, word, rest, hmarked, rfl⟩ := markedBody?_eq_some hbody
          have hsplit := (List.takeWhile_append_dropWhile (p := Rune.isSpaceOrTab) (l := rest)).symm
          rw [hsplit] at hmarked
          have hrewrites := @Rewrites.marked comments l task id _ _ _ _ hmarked
            (fun c hc => List.mem_takeWhile_imp hc) fun c hc => Span.not_of_head?_dropWhile hc
          simpa [Text.ofLines, Line.text] using hrewrites
  | removeLine line =>
      cases h
      exact .removed
  | commentOut line note =>
      cases h
      simpa [Text.ofLines, Line.text, commentedBody] using
        @Rewrites.commented comments l line note

/-- An edit that changes a file cuts out the bytes of its target. -/
theorem Edit.splices {lines ls : List Line} (h : e.apply p lines = .ok (.changed ls m)) :
    ∃ front l back new, lines = front ++ l :: back ∧ e.target = (front.length + 1 : Nat) ∧
      e.Rewrites (CommentSyntax.ofPath p) l new ∧
      bytesOf (Text.ofLines ls) =
        (front.map Line.bytes).flatten ++ new ++ (back.map Line.bytes).flatten := by
  obtain ⟨front, l, back, new, hlines, htarget, hnew, rfl⟩ := apply_eq_changed h
  refine ⟨front, l, back, _, hlines, htarget, rewrites_of_applyLine hnew, ?_⟩
  rw [Text.ofLines_append, Text.ofLines_append, bytesOf_append, bytesOf_append, Text.bytesOf_ofLines front,
    Text.bytesOf_ofLines back]

namespace Patch

/-- The text of the edited lines was written, and it was read from the bytes of the file. -/
def IsWritten (e : Edit) (p : Path) (w w' : Workspace) : Prop :=
  ∃ bytes ls m, w.content p = .ok bytes ∧
    e.apply p (Text.lines (decode bytes)) = .ok (.changed ls m) ∧
    w'.content p = .ok (bytesOf (Text.ofLines ls))

private theorem content_of_writeText {t : Text} {u : Unit}
    (hrun : (writeText p t).runOn w = (.ok u, w')) : w'.content p = .ok (bytesOf t) := by
  have hencode : ∃ bytes, encode t = .ok bytes := by
    obtain ⟨_, w₁, -, hrun⟩ := runOn_bind_eq_ok_iff.mp hrun
    cases hbytes : encode t with
    | ok bytes => exact ⟨bytes, rfl⟩
    | error fault =>
        rw [hbytes] at hrun
        cases hrun
  obtain ⟨bytes, hbytes⟩ := hencode
  rw [runOn_writeText hbytes, runOn_writeBytes] at hrun
  obtain ⟨-, rfl⟩ := encode_eq_ok_iff.mp hbytes
  cases hwrite : w.withContent p (bytesOf t) with
  | error fault =>
      rw [hwrite] at hrun
      cases hrun
  | ok v =>
      rw [hwrite] at hrun
      cases hrun
      exact content_of_withContent hwrite

private theorem isWritten_of_attempt (hrun : (attempt b p e).runOn w = (.ok patch, w'))
    (h : patch.isChange = true) : IsWritten e p w w' := by
  rw [attempt, runOn_bind, runOn_readText] at hrun
  cases hcontent : w.content p with
  | error fault =>
      rw [hcontent] at hrun
      cases hrun
  | ok bytes =>
      rw [hcontent] at hrun
      simp only [Except.map] at hrun
      rw [runOn_bind, runOn_ask] at hrun
      cases hedit : e.apply p (Text.lines (decode bytes)) with
      | error fault =>
          rw [hedit] at hrun
          cases hrun
      | ok edited =>
          rw [hedit] at hrun
          cases edited with
          | unchanged m =>
              cases hrun
              cases h
          | changed ls m =>
              obtain ⟨backup, w₁, -, hrun⟩ := runOn_bind_eq_ok_iff.mp hrun
              obtain ⟨_, w₂, hwrite, hrun⟩ := runOn_bind_eq_ok_iff.mp hrun
              cases hrun
              exact ⟨bytes, ls, m, hcontent, hedit, content_of_writeText hwrite⟩

theorem isWritten_of_isChange (hrun : (apply b p e).runOn w = (.ok patch, w'))
    (h : patch.isChange = true) : IsWritten e p w w' := by
  obtain ⟨there, w₁, hthere, hrun⟩ := runOn_bind_eq_ok_iff.mp hrun
  obtain rfl : w = w₁ := by
    rw [runOn_isFile] at hthere
    exact (Prod.mk.inj hthere).2
  cases there with
  | false => cases hrun
  | true =>
      simp only [Bool.not_true, Bool.false_eq_true, if_false] at hrun
      rw [runOn_tryCatch] at hrun
      split at hrun
      · rename_i patch' w₂ htry
        cases hrun
        obtain ⟨patch', w₃, hattempt, hreport⟩ := runOn_bind_eq_ok_iff.mp htry
        by_cases hchange : patch'.isChange = true
        · rw [if_pos hchange, runOn_bind_of_ok (runOn_report _)] at hreport
          cases hreport
          obtain ⟨bytes, ls, m, hcontent, hedit, hafter⟩ := isWritten_of_attempt hattempt hchange
          exact ⟨bytes, ls, m, hcontent, hedit, hafter⟩
        · rw [if_neg hchange] at hreport
          cases hreport
          exact absurd h hchange
      · rename_i fault w₂ htry
        split_ifs at hrun
        · cases hrun
          cases h
        · cases hrun

/-- An edit that is applied replaces the physical line that it names; the bytes before and behind
that line are those that were read. -/
theorem content_of_applied (b : Backups) (p : Path) (e : Edit) (w w' : Workspace) (patch : Patch)
    (hrun : (apply b p e).runOn w = (.ok patch, w')) (happlied : patch.outcome = .applied) :
    ∃ bytes front l back new, w.content p = .ok bytes ∧
      Text.lines (decode bytes) = front ++ l :: back ∧
      Bytes.Cut bytes (front.map Line.bytes ++ l.bytes :: back.map Line.bytes) ∧
      e.target = (front.length + 1 : Nat) ∧
      e.Rewrites (CommentSyntax.ofPath p) l new ∧
      w'.content p =
        .ok ((front.map Line.bytes).flatten ++ new ++ (back.map Line.bytes).flatten) := by
  have hchange : patch.isChange = true := by rw [isChange, happlied]; rfl
  obtain ⟨bytes, ls, m, hcontent, hedit, hafter⟩ := isWritten_of_isChange hrun hchange
  obtain ⟨front, l, back, new, hlines, htarget, hnew, hbytes⟩ := Edit.splices hedit
  have hcut := Bytes.cut_decode bytes
  rw [hlines, List.map_append, List.map_cons] at hcut
  refine ⟨bytes, front, l, back, new, hcontent, hlines, hcut, htarget, hnew, ?_⟩
  rw [hafter, hbytes]

/-! ## A file of mixed lines -/

/-- A file that cannot be decoded, with three kinds of line ends. -/
def mixedLines : Workspace :=
  .ofFiles ["w"] [("a.py", Rune.ofNat 0xDCFF :: " = 1\r\n  # todo:\t b\rc\n")]

/-- The task of the second line. -/
def mixedTask : Task :=
  ⟨⟨.relative, ["a.py"]⟩, 2, 3, "  # todo:\t b", "TODO", "b", "PY", none⟩

theorem content_of_applied_mixedLines :
    ∃ patch w', (apply ⟨⟨.relative, ["kept"]⟩, 1⟩ ⟨.relative, ["a.py"]⟩
        (.insertMarker mixedTask "b-1")).runOn mixedLines = (.ok patch, w') ∧
      patch.outcome = .applied ∧
      ∃ bytes front l back new, mixedLines.content ⟨.relative, ["a.py"]⟩ = .ok bytes ∧
        Text.lines (decode bytes) = front ++ l :: back ∧
        Bytes.Cut bytes (front.map Line.bytes ++ l.bytes :: back.map Line.bytes) ∧
        (Edit.insertMarker mixedTask "b-1").target = (front.length + 1 : Nat) ∧
        (Edit.insertMarker mixedTask "b-1").Rewrites
          (CommentSyntax.ofPath ⟨.relative, ["a.py"]⟩) l new ∧
        w'.content ⟨.relative, ["a.py"]⟩ =
          .ok ((front.map Line.bytes).flatten ++ new ++ (back.map Line.bytes).flatten) := by
  have happlied : ∃ patch, ((apply ⟨⟨.relative, ["kept"]⟩, 1⟩ ⟨.relative, ["a.py"]⟩
      (.insertMarker mixedTask "b-1")).runOn mixedLines).1 = .ok patch ∧
        patch.outcome = .applied := by
    decide +kernel
  rcases hrun : (apply ⟨⟨.relative, ["kept"]⟩, 1⟩ ⟨.relative, ["a.py"]⟩
    (.insertMarker mixedTask "b-1")).runOn mixedLines with ⟨r, w'⟩
  rw [hrun] at happlied
  obtain ⟨patch, rfl, happlied⟩ := happlied
  exact ⟨patch, w', rfl, happlied, content_of_applied _ _ _ _ _ _ hrun happlied⟩

example : ((apply ⟨⟨.relative, ["kept"]⟩, 1⟩ ⟨.relative, ["a.py"]⟩
      (.insertMarker mixedTask "b-1")).runOn mixedLines).2.textAt ⟨.relative, ["a.py"]⟩ =
    Rune.ofNat 0xDCFF :: " = 1\r\n  # todo: [orgi:b-1] b\rc\n" := by
  decide +kernel

end Patch

end TodoLedger
