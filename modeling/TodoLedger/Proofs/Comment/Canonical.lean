import TodoLedger.Link
import TodoLedger.Proofs.Comment.Marker
import TodoLedger.Proofs.Comment.Overlap
import TodoLedger.Proofs.Text.Letter
/-!
# What a task tells of its place

A task that is found has the line it stands on, the column at which its comment is opened there, and a
text that is trimmed, not empty and part of one line. Its keyword is what the line has in upper case.
This is one of the seven keywords exactly if the line spells it without the two letters that count as
variants of I and K but are upper case themselves.
-/

namespace TodoLedger

namespace Scan

variable {word : Text}

/-- A keyword in upper case is the keyword of the table, unless one of its letters stays as it is. -/
theorem IsKeyword.upper_mem_iff (h : IsKeyword word) :
    Text.upper word ∈ taskKeywords ↔ ∀ c ∈ word, c.isCapitalVariant = false := by
  obtain ⟨k, hk, hsame⟩ := h
  have hbasic : ∀ k ∈ taskKeywords, ∀ c ∈ k, c.letter.IsBasic := by decide
  have hletters : ∀ c ∈ word, c.letter.IsBasic := by
    intro c hc
    obtain ⟨d, hd, hletter⟩ := hsame.exists_letter hc
    exact hletter ▸ hbasic k hk d hd
  constructor
  · intro hmem c hc
    have hplain : ∀ k ∈ taskKeywords, ∀ d ∈ k, d.isCapitalVariant = false := by decide +kernel
    rw [Bool.eq_false_iff]
    intro hvariant
    have hstays := hplain _ hmem c (Text.mem_upper_of_isCapitalVariant hc hvariant)
    rw [hvariant] at hstays
    cases hstays
  · intro hplain
    have hupper : ∀ k ∈ taskKeywords, Text.upper (k.map Rune.letter) = k := by decide +kernel
    rw [Text.upper_eq_upper_letters hletters hplain, hsame, hupper k hk]
    exact hk

theorem exists_opensAt_of_mem_ofLine {comments : CommentSyntax} {line : Text} {f : Found}
    (h : f ∈ ofLine comments line) :
    ∃ form ∈ comments.forms, ∃ rest, OpensAt form.opener line f.offset f.keyword rest := by
  obtain ⟨form, hform, hf⟩ := List.mem_flatMap.mp h
  exact ⟨form, hform, (finds_ofForm line form).opens f hf⟩

theorem Found.mem_of_mem_textOn {f : Found} {line : Text} {c : Rune} (h : c ∈ f.textOn line) :
    c ∈ f.text := by
  rw [textOn] at h
  split_ifs at h with hmarked
  · exact Marker.mem_of_mem_remove ((Text.trim_isInfix _).subset h)
  · exact h

end Scan

/-- What a task tells of its text, its line and its keyword. -/
structure Task.IsCanonical (task : Task) (path : Path) (t : Text) : Prop where
  text : task.text ≠ [] ∧ Text.IsTrimmed task.text ∧ Text.EndFree task.text
  line : ∃ k, task.line = (k + 1 : Nat) ∧ (Text.bodies (Text.dropBom t))[k]? = some task.lineText
  keyword : ∃ form ∈ (CommentSyntax.ofPath path).forms, ∃ p word rest,
    task.column = (p + 1 : Nat) ∧ Scan.OpensAt form.opener task.lineText p word rest ∧
      task.keyword = Text.upper word ∧
      (task.keyword ∈ taskKeywords ↔ ∀ c ∈ word, c.isCapitalVariant = false)

theorem isCanonical_of_mem_tasksOfLine {path : Path} {withMarked : Bool} {t line : Text} {k : Nat}
    {task : Task} (hline : (Text.bodies (Text.dropBom t))[k]? = some line)
    (h : task ∈ tasksOfLine path withMarked (k + 1) line) : task.IsCanonical path t := by
  obtain ⟨-, f, hf, hne, rfl⟩ := mem_tasksOfLine_iff.mp h
  have hfree := Text.endFree_of_mem_bodies (List.mem_of_getElem? hline)
  have htext : Text.EndFree (f.textOn line) := fun c hc =>
    hfree c ((Scan.isOn_of_mem_ofLine hf).text.subset (Scan.Found.mem_of_mem_textOn hc))
  obtain ⟨form, hform, rest, hopens⟩ := Scan.exists_opensAt_of_mem_ofLine hf
  have hkeyword := hopens
  obtain ⟨-, -, -, -, -, hkeyword⟩ := hkeyword
  constructor
  case text => exact ⟨hne, Scan.Found.isTrimmed_textOn hf, htext⟩
  case line => exact ⟨k, rfl, hline⟩
  case keyword =>
    exact ⟨form, hform, f.offset, f.keyword, rest, rfl, hopens, rfl, hkeyword.upper_mem_iff⟩

/-- Every task that is found in a text tells its place in it. -/
theorem isCanonical_of_mem_tasksOf (path : Path) (withMarked : Bool) (t : Text) :
    ∀ task ∈ tasksOf path withMarked t, task.IsCanonical path t := by
  intro task htask
  rw [tasksOf, mem_tasksOfLines_iff] at htask
  obtain ⟨k, line, hline, htask⟩ := htask
  rw [Nat.add_comm] at htask
  exact isCanonical_of_mem_tasksOfLine hline htask

/-- A marked line behind a byte order mark, with the dotless I and the long S among its letters. -/
def variantLine : Text := "\ufeff/* f\u0131xme: [orgi:x] \u017f b */"

theorem isCanonical_variantLine : tasksOf ⟨.relative, ["a.c"]⟩ true variantLine =
      [⟨⟨.relative, ["a.c"]⟩, 1, 1, "/* f\u0131xme: [orgi:x] \u017f b */", "FIXME", "\u017f b", "C",
        some "x"⟩] ∧
    ∀ task ∈ tasksOf ⟨.relative, ["a.c"]⟩ true variantLine,
      task.IsCanonical ⟨.relative, ["a.c"]⟩ variantLine :=
  ⟨by decide +kernel, isCanonical_of_mem_tasksOf ⟨.relative, ["a.c"]⟩ true variantLine⟩

/-- With the Kelvin sign for its K a keyword is found, but it is none of the table, and it has no
priority. -/
theorem keyword_kelvinSign : tasksOf ⟨.relative, ["a.py"]⟩ false "# HAC\u212a: b" =
      [⟨⟨.relative, ["a.py"]⟩, 1, 1, "# HAC\u212a: b", "HAC\u212a", "b", "PY", none⟩] ∧
    "HAC\u212a".toText ∉ taskKeywords ∧
    ∀ task ∈ tasksOf ⟨.relative, ["a.py"]⟩ false "# HAC\u212a: b", task.priority = .none := by
  decide +kernel

end TodoLedger
