import TodoLedger.Proofs.Comment.Cover
import TodoLedger.Proofs.Patch.Shift
import TodoLedger.Proofs.Text.OneLine
import TodoLedger.Proofs.Text.Reread
/-!
# Lines that are commented out

Where the language closes its comments by a token, a line is put between the tokens as it stands. What
is read back is a comment as a whole if and only if the line continues a comment that is open in front
of it. So lines without the closing token are commented out; a line that is a comment already is not.
-/

namespace TodoLedger

open Work Workspace Utf8

namespace CommentSyntax.IsBlock

variable {comments : CommentSyntax} {note body : Text} {Q : Text → Prop}

theorem commentedBody_eq (h : comments.IsBlock) (note body : Text) :
    commentedBody comments note body = Text.indent body ++ (comments.opening ++ Rune.ofChar ' ' ::
      (Text.trim body ++ Rune.ofChar ' ' :: (comments.closing ++ Rune.ofChar ' ' ::
        (comments.opening ++ Rune.ofChar ' ' :: (note ++ Rune.ofChar ' ' :: comments.closing))))) := by
  have hclosing : comments.closing ≠ [] := h.turn_ne_nil true
  have hblank : (" " : Text) = [Rune.ofChar ' '] := rfl
  simp [commentedBody, wrap, hclosing, hblank]

/-- Lines and notes of a class make lines of the class. -/
theorem commentedBody_of_class (h : comments.IsBlock) (hQ : Text.LineClass Q)
    (hopening : ∀ c ∈ comments.opening, c.IsBasic) (hclosing : ∀ c ∈ comments.closing, c.IsBasic)
    (hbody : Q body) (hnote : Q note) : Q (commentedBody comments note body) := by
  have hspace : (Rune.ofChar ' ').IsBasic := by decide
  have hindent : Q (Text.indent body) := hQ.of_isInfix (List.takeWhile_prefix _).isInfix hbody
  have htrim : Q (Text.trim body) := hQ.of_isInfix (Text.trim_isInfix _) hbody
  have hremark := hQ.append_cons (hQ.of_basic hopening) hspace
    (hQ.append_cons hnote hspace (hQ.of_basic hclosing))
  have hcomment := hQ.append_cons htrim hspace (hQ.append_cons (hQ.of_basic hclosing) hspace hremark)
  obtain ⟨c, s, hs⟩ := List.exists_cons_of_ne_nil (h.turn_ne_nil false)
  have hsplit : comments.opening = c :: s := hs
  obtain ⟨hc, hbasic⟩ : c.IsBasic ∧ ∀ d ∈ s, d.IsBasic := List.forall_mem_cons.mp (hsplit ▸ hopening)
  have hline := hQ.append_cons hindent hc (hQ.append_cons (hQ.of_basic hbasic) hspace hcomment)
  rw [← List.cons_append, ← hsplit] at hline
  rwa [h.commentedBody_eq]

end CommentSyntax.IsBlock

theorem bytesOf_commentedBody_reread (comments : CommentSyntax) (note body : Text) :
    bytesOf (commentedBody comments (reread note) body) =
      bytesOf (commentedBody comments note body) := by
  simp only [commentedBody, CommentSyntax.wrap]
  split_ifs <;> simp only [bytesOf_append, bytesOf_reread]

/-- A line that is commented out is read back with the note as that is read back, among the lines
that stood there. -/
theorem CommentSyntax.IsBlock.lines_commentedOut {comments : CommentSyntax} {note : Text}
    {bytes : Bytes} {front back : List Line} {l : Line} (h : comments.IsBlock)
    (hopening : ∀ c ∈ comments.opening, c.IsBasic) (hclosing : ∀ c ∈ comments.closing, c.IsBasic)
    (hlines : Text.lines (decode bytes) = front ++ l :: back) (hnote : Text.EndFree note) :
    Text.lines (decode (bytesOf (Text.ofLines
        (front ++ [{ l with body := commentedBody comments note l.body }] ++ back)))) =
      front ++ { l with body := commentedBody comments (reread note) l.body } :: back := by
  have hmem : l ∈ Text.lines (decode bytes) := by simp [hlines]
  have hbody : IsStable l.body ∧ Text.EndFree l.body :=
    ⟨Text.isStable_of_mem_lines (isStable_decode bytes) hmem,
      (Text.wellCut_lines (decode bytes)).endFree l hmem⟩
  have hcommented := h.commentedBody_of_class Text.lineClass_endFree.and_isStable hopening hclosing
    hbody ⟨isStable_decode _, endFree_reread hnote⟩
  have hne : commentedBody comments (reread note) l.body ≠ [] := by
    rw [h.commentedBody_eq]
    simp
  obtain ⟨hstable, hback⟩ := Text.exchange_spec (isStable_decode bytes) hlines hne hcommented
  conv_rhs => rw [← hback, ← hstable.decode_bytesOf]
  simp [Line.text, bytesOf_append, bytesOf_commentedBody_reread]

theorem CommentSyntax.isBasic_tokens (path : Path) : (∀ c ∈ (ofPath path).opening, c.IsBasic) ∧
    ∀ c ∈ (ofPath path).closing, c.IsBasic := by
  have hall : ∀ f ∈ families, (∀ c ∈ f.1.opening, c.IsBasic) ∧ ∀ c ∈ f.1.closing, c.IsBasic := by
    decide +kernel
  obtain ⟨f, hf, hfamily⟩ := exists_family path
  exact hfamily ▸ hall f hf

namespace Patch

/-- The line at a position is exchanged for one that is a comment if the line continues one, and all
others are left. -/
def CommentsOut (comments : CommentSyntax) (before after : List Line) (n : Nat) : Prop :=
  ∃ l body, before[n]? = some l ∧ after = before.set n { l with body } ∧
    (comments.Covers body ↔ comments.Continues (Text.trim l.body)) ∧
    (¬comments.closing <:+: l.body → comments.Covers body)

/-- Where comments are closed by a token, a line is commented out if and only if it continues a comment.
For lines without the token that is so. -/
theorem commentOut_covers_iff (b : Backups) (t : Text) (n : Nat) (note : Text) (w v : Workspace)
    (bytes : Bytes) (r : Except Fault Patch) (hw : w.tree.WellFormed)
    (hcwd : w.tree.find? w.cwd = some .directory) (hcontent : w.content (Path.ofText t) = .ok bytes)
    (hpos : 1 ≤ n) (hn : n ≤ (Text.lines (decode bytes)).length)
    (hclosing : (CommentSyntax.ofPath (Path.ofText t)).closing ≠ [])
    (hfree : Text.EndFree note)
    (hnote : ¬(CommentSyntax.ofPath (Path.ofText t)).closing <:+: note)
    (hrun : (apply b (Path.ofText t) (.commentOut n note)).runOn w = (r, v)) :
    (IsApplied r ↔ CanSave b (Path.ofText t) w ∧ note.HasBytes) ∧
      (IsApplied r → ∃ after, v.content (Path.ofText t) = .ok after ∧
        CommentsOut (CommentSyntax.ofPath (Path.ofText t)) (Text.lines (decode bytes))
          (Text.lines (decode after)) (n - 1)) := by
  have hblock := CommentSyntax.isBlock_ofPath hclosing
  obtain ⟨hopeningBasic, hclosingBasic⟩ := CommentSyntax.isBasic_tokens (Path.ofText t)
  have hlt : n - 1 < (Text.lines (decode bytes)).length := by omega
  obtain ⟨front, l, back, hlines, hindex⟩ := Text.exists_split hlt
  have htarget : (Edit.commentOut n note).target = (front.length + 1 : Nat) := by
    show (n : Int) = _
    omega
  have hedit := @Edit.apply_at (.commentOut n note) (Path.ofText t) l front back htarget
  rw [← hlines] at hedit
  constructor
  · exact isApplied_iff hw hcwd hcontent hedit hrun
  · intro happlied
    have hreread : ¬(CommentSyntax.ofPath (Path.ofText t)).closing <:+: reread note := fun h =>
      hnote (infix_of_infix_reread (fun c hc => (hclosingBasic c hc).2) h)
    have hiff : (CommentSyntax.ofPath (Path.ofText t)).Covers
          (commentedBody (CommentSyntax.ofPath (Path.ofText t)) (reread note) l.body) ↔ _ :=
      hblock.covers_commentedBody_iff hreread
    refine ⟨_, content_of_isApplied hcontent hedit hrun happlied, l, _, ?_, ?_, hiff, fun hlack => ?_⟩
    · rw [hlines, hindex]
      simp
    · rw [hblock.lines_commentedOut hopeningBasic hclosingBasic hlines hfree, hlines, hindex]
      simp
    · exact hiff.mpr (CommentSyntax.continues_of_lacking fun h => hlack (h.trans (Text.trim_isInfix _)))

/-! ## Markup -/

/-- An element behind an indent, and a task in a comment. -/
def markupLines : Workspace := .ofFiles ["w"] [("a.html", "  <b>TODO</b>\r\n<!-- TODO: b -->\n")]

theorem commentOut_covers_iff_markupLines : ∃ r v bytes,
    markupLines.tree.WellFormed ∧ markupLines.tree.find? markupLines.cwd = some .directory ∧
      markupLines.content (Path.ofText "a.html") = .ok bytes ∧
      1 ≤ (Text.lines (decode bytes)).length ∧
      (CommentSyntax.ofPath (Path.ofText "a.html")).closing ≠ [] ∧ Text.EndFree "done" ∧
      ¬(CommentSyntax.ofPath (Path.ofText "a.html")).closing <:+: ("done" : Text) ∧
      (apply ⟨⟨.relative, ["kept"]⟩, 1⟩ (Path.ofText "a.html") (.commentOut 1 "done")).runOn
        markupLines = (r, v) ∧
      IsApplied r ∧ ∃ after, v.content (Path.ofText "a.html") = .ok after ∧
        ∃ body, Text.lines (decode after) = [⟨body, .crlf⟩, ⟨"<!-- TODO: b -->", .lf⟩] ∧
          (CommentSyntax.ofPath (Path.ofText "a.html")).Covers body := by
  have hw : markupLines.tree.WellFormed := Tree.wellFormed_of_plain (by decide +kernel)
  have hcwd : markupLines.tree.find? markupLines.cwd = some .directory := by decide +kernel
  obtain ⟨bytes, hcontent, hlines⟩ : ∃ bytes,
      markupLines.content (Path.ofText "a.html") = .ok bytes ∧
        Text.lines (decode bytes) = [⟨"  <b>TODO</b>", .crlf⟩, ⟨"<!-- TODO: b -->", .lf⟩] := by
    decide +kernel
  have hlength : 1 ≤ (Text.lines (decode bytes)).length := by rw [hlines]; decide
  have hclosing : (CommentSyntax.ofPath (Path.ofText "a.html")).closing ≠ [] := by decide +kernel
  have hfree : Text.EndFree "done" := by decide
  have hnote : ¬(CommentSyntax.ofPath (Path.ofText "a.html")).closing <:+: ("done" : Text) := by
    decide +kernel
  have happlied : IsApplied ((apply ⟨⟨.relative, ["kept"]⟩, 1⟩ (Path.ofText "a.html")
      (.commentOut 1 "done")).runOn markupLines).1 := by
    decide +kernel
  obtain ⟨after, hafter, l, body, hl, hset, -, hcovers⟩ :=
    (commentOut_covers_iff ⟨⟨.relative, ["kept"]⟩, 1⟩ "a.html" 1 "done" markupLines _ bytes _ hw hcwd
      hcontent (by decide) hlength hclosing hfree hnote rfl).2 happlied
  rw [hlines] at hl hset
  obtain rfl : ⟨"  <b>TODO</b>", .crlf⟩ = l := Option.some.inj hl
  exact ⟨_, _, bytes, hw, hcwd, hcontent, hlength, hclosing, hfree, hnote, rfl, happlied, after, hafter,
    body, hset, hcovers (by decide +kernel)⟩

/-- The task is in a comment already, which ends before the one around it does. -/
theorem commentOut_leaves_token_outside :
    IsApplied ((apply ⟨⟨.relative, ["kept"]⟩, 1⟩ (Path.ofText "a.html")
        (.commentOut 2 "done")).runOn markupLines).1 ∧
      Text.bodies (((apply ⟨⟨.relative, ["kept"]⟩, 1⟩ (Path.ofText "a.html")
          (.commentOut 2 "done")).runOn markupLines).2.textAt (Path.ofText "a.html")) =
        ["  <b>TODO</b>", "<!-- <!-- TODO: b --> --> <!-- done -->"] ∧
      (CommentSyntax.ofPath (Path.ofText "a.html")).closing ≠ [] ∧
      (CommentSyntax.ofPath (Path.ofText "a.html")).outside 0 false
        "<!-- <!-- TODO: b --> --> <!-- done -->" = ((" --> " : Text), false) ∧
      ¬(CommentSyntax.ofPath (Path.ofText "a.html")).Covers
        "<!-- <!-- TODO: b --> --> <!-- done -->" := by
  decide +kernel

end Patch

end TodoLedger
