import TodoLedger.Proofs.Comment.Exchange
import TodoLedger.Proofs.Tasks
import Mathlib.Data.List.Forall2
/-!
# What is found on a line

A comment form says which marked comments a line has, and where. This module tells it by places of the
line alone: a comment that runs to the end of the line is the first that anything follows; comments
that are closed are sought from left to right, each behind the one before, and each has the text up to
the first closer. The scan finds these and no others.
-/

namespace TodoLedger

namespace Scan

/-- Behind `p` characters of the line a comment is opened: there stand the opener, blanks, a keyword
in some case and its colon, and then the rest. -/
def OpensAt (opener line : Text) (p : Nat) (word rest : Text) : Prop :=
  ∃ before gap, line = before ++ (opener ++ (gap ++ (word ++ Rune.ofChar ':' :: rest))) ∧
    before.length = p ∧ Text.isBlank gap = true ∧ IsKeyword word

/-- The part of a rest that stands before the first closer, and the part behind that closer. Where no
closer stands in the rest, all of it comes before. -/
inductive EndsAt (closer rest : Text) : Text → Text → Prop
  | closed {inside behind : Text} : rest = inside ++ (closer ++ behind) →
      (∀ s t, rest = s ++ (closer ++ t) → inside.length ≤ s.length) → EndsAt closer rest inside behind
  | unclosed : (∀ s t, rest ≠ s ++ (closer ++ t)) → EndsAt closer rest rest []

/-- A comment that runs to the end of the line: the first that is opened with something behind its
colon. -/
inductive ToLineEnd (opener line : Text) : List Found → Prop
  | none : (∀ p word rest, OpensAt opener line p word rest → rest = []) → ToLineEnd opener line []
  | one {p : Nat} {word rest : Text} : OpensAt opener line p word rest → rest ≠ [] →
      (∀ q < p, ∀ w r, OpensAt opener line q w r → r = []) →
      ToLineEnd opener line [⟨p, word, Text.trim rest⟩]

/-- The comments that are opened behind `n` characters or more: the first of them, and then those that
are opened behind its end. -/
inductive Blocks (opener closer line : Text) : Nat → List Found → Prop
  | none {n : Nat} : (∀ p, n ≤ p → ∀ word rest, ¬OpensAt opener line p word rest) →
      Blocks opener closer line n []
  | next {n p : Nat} {word rest inside behind : Text} {found : List Found} : n ≤ p →
      OpensAt opener line p word rest →
      (∀ q, n ≤ q → q < p → ∀ w r, ¬OpensAt opener line q w r) → EndsAt closer rest inside behind →
      Blocks opener closer line (line.length - behind.length) found →
      Blocks opener closer line n (⟨p, word, Text.trim inside⟩ :: found)

/-- What a form finds on a line. -/
def Finds (line : Text) : CommentForm → List Found → Prop
  | .toLineEnd opener => ToLineEnd opener line
  | .block opener closer => Blocks opener closer line 0

variable {opener closer line word rest word' rest' inside behind inside' behind' : Text}
  {p n offset skip : Nat} {found found' : List Found} {form : CommentForm} {f : Found}

/-! ## Where a comment is opened -/

theorem opensAt_iff : OpensAt opener line p word rest ↔
    opened? opener (line.drop p) = some (word, rest) := by
  rw [opened?_eq_some_iff]
  constructor
  · rintro ⟨before, gap, rfl, rfl, hgap, hword⟩
    exact ⟨gap, _, ⟨rfl, hgap, hword⟩, by simp⟩
  · rintro ⟨gap, lead, hlead, hsplit⟩
    have hlt : p < line.length := by
      by_contra hle
      rw [List.drop_eq_nil_of_le (Nat.le_of_not_lt hle)] at hsplit
      exact hlead.ne_nil (List.append_eq_nil_iff.mp hsplit.symm).1
    refine ⟨line.take p, gap, ?_, List.length_take_of_le hlt.le, hlead.gap, hlead.keyword⟩
    conv_lhs => rw [← List.take_append_drop p line, hsplit, hlead.split]
    simp

/-- A place settles the keyword and the rest. -/
theorem OpensAt.unique (h : OpensAt opener line p word rest) (h' : OpensAt opener line p word' rest') :
    word = word' ∧ rest = rest' := by
  have hsame := (opensAt_iff.mp h).symm.trans (opensAt_iff.mp h')
  exact Prod.mk.inj (Option.some.inj hsame)

theorem OpensAt.length_lt (h : OpensAt opener line p word rest) : p + rest.length < line.length := by
  obtain ⟨before, gap, rfl, rfl, -, -⟩ := h
  simp only [List.length_append, List.length_cons]
  omega

/-! ## Where a comment ends -/

/-- The place of the first closer settles what stands before and behind it. -/
theorem EndsAt.unique (h : EndsAt closer rest inside behind) (h' : EndsAt closer rest inside' behind') :
    inside = inside' ∧ behind = behind' := by
  cases h with
  | closed hsplit hfirst =>
      cases h' with
      | closed hsplit' hfirst' =>
          have hlength : inside.length = inside'.length :=
            Nat.le_antisymm (hfirst _ _ hsplit') (hfirst' _ _ hsplit)
          obtain ⟨hinside, hcloser⟩ := List.append_inj (hsplit.symm.trans hsplit') hlength
          exact ⟨hinside, List.append_cancel_left hcloser⟩
      | unclosed hnone => exact absurd hsplit (hnone _ _)
  | unclosed hnone =>
      cases h' with
      | closed hsplit' _ => exact absurd hsplit' (hnone _ _)
      | unclosed _ => exact ⟨rfl, rfl⟩

/-- A rest is cut where the comment ends. -/
theorem endsAt_cut (closer rest : Text) : EndsAt closer rest
    ((Text.cut? closer rest).getD (rest, [])).1 ((Text.cut? closer rest).getD (rest, [])).2 := by
  cases hcut : Text.cut? closer rest with
  | some found =>
      obtain ⟨inside, behind⟩ := found
      refine .closed (Text.of_cut?_eq_some hcut) fun s t hsplit => ?_
      obtain ⟨before, after, hfirst, hle⟩ := Text.exists_cut?_append closer s t
      rw [← hsplit, hcut] at hfirst
      cases hfirst
      exact hle
  | none =>
      refine .unclosed fun s t hsplit => ?_
      obtain ⟨before, after, hfirst, -⟩ := Text.exists_cut?_append closer s t
      rw [← hsplit, hcut] at hfirst
      cases hfirst

theorem EndsAt.length_le (h : EndsAt closer rest inside behind) : behind.length ≤ rest.length := by
  cases h with
  | closed hsplit _ =>
      rw [hsplit, List.length_append, List.length_append]
      omega
  | unclosed _ => exact Nat.zero_le _

/-! ## The scan finds what is there -/

theorem finds_toLineEnd (before : Text) (h : ∀ q < before.length, ∀ w r,
      OpensAt opener (before ++ line) q w r → r = []) :
    ToLineEnd opener (before ++ line) (toLineEnd opener before.length line) := by
  induction line generalizing before with
  | nil =>
      refine .none fun p word rest hopens => h p ?_ word rest hopens
      have hlt := hopens.length_lt
      rw [List.append_nil] at hlt
      omega
  | cons c r ih =>
      have hhere : ∀ {w r'}, OpensAt opener (before ++ c :: r) before.length w r' ↔
          opened? opener (c :: r) = some (w, r') := by
        intro w r'
        rw [opensAt_iff, List.drop_left]
      rw [toLineEnd]
      split
      · rename_i word a rest hopened
        exact .one (hhere.mpr hopened) (List.cons_ne_nil a rest) h
      · rename_i hnone
        have hnext := ih (before ++ [c])
        simp only [List.append_assoc, List.singleton_append, List.length_append,
          List.length_singleton] at hnext
        refine hnext fun q hq w r' hopens => ?_
        rcases Nat.lt_succ_iff_lt_or_eq.mp hq with hlt | rfl
        · exact h q hlt w r' hopens
        · cases r' with
          | nil => rfl
          | cons a rest => exact absurd (hhere.mp hopens) (hnone w a rest)

/-- Where no comment is opened the search may begin earlier. -/
theorem Blocks.earlier {m : Nat} (h : Blocks opener closer line n found) (hle : m ≤ n)
    (hnone : ∀ p, m ≤ p → p < n → ∀ word rest, ¬OpensAt opener line p word rest) :
    Blocks opener closer line m found := by
  cases h with
  | none hall =>
      refine .none fun p hp word rest hopens => ?_
      by_cases hpn : p < n
      · exact hnone p hp hpn word rest hopens
      · exact hall p (Nat.le_of_not_lt hpn) word rest hopens
  | next hp hopens hfirst hends hrest =>
      refine .next (hle.trans hp) hopens (fun q hq hlt w r => ?_) hends hrest
      by_cases hqn : q < n
      · exact hnone q hq hqn w r
      · exact hfirst q (Nat.le_of_not_lt hqn) hlt w r

theorem finds_blocks (before : Text) (skip : Nat) :
    Blocks opener closer (before ++ line) (before.length + skip)
      (blocks opener closer before.length skip line) := by
  induction line generalizing before skip with
  | nil =>
      rw [blocks]
      refine .none fun p hp word rest hopens => ?_
      have hlt := hopens.length_lt
      rw [List.append_nil] at hlt
      omega
  | cons c r ih =>
      have hnext := fun skip => ih (before ++ [c]) skip
      simp only [List.append_assoc, List.singleton_append, List.length_append,
        List.length_singleton] at hnext
      have hhere : ∀ {w r'}, OpensAt opener (before ++ c :: r) before.length w r' ↔
          opened? opener (c :: r) = some (w, r') := by
        intro w r'
        rw [opensAt_iff, List.drop_left]
      cases skip with
      | succ skip =>
          rw [blocks, Nat.add_comm skip, ← Nat.add_assoc]
          exact hnext skip
      | zero =>
          rw [blocks]
          cases hopened : opened? opener (c :: r) with
          | none =>
              refine (hnext 0).earlier (Nat.le_succ _) fun p hp hlt word rest hopens => ?_
              obtain rfl : p = before.length := by omega
              rw [hhere, hopened] at hopens
              cases hopens
          | some found =>
              obtain ⟨word, rest⟩ := found
              have hopens := hhere.mpr hopened
              have hends := endsAt_cut closer rest
              have hlt := hopens.length_lt
              have hle := hends.length_le
              refine .next (Nat.le_refl _) hopens (fun q hq hlt => by omega) hends ?_
              -- the rest of the scan begins behind the end of the comment
              have hlater := hnext (r.length - ((Text.cut? closer rest).getD (rest, [])).2.length)
              rw [List.length_append, List.length_cons] at hlt ⊢
              have hend : before.length + (r.length + 1) -
                  ((Text.cut? closer rest).getD (rest, [])).2.length =
                before.length + 1 + (r.length -
                  ((Text.cut? closer rest).getD (rest, [])).2.length) := by omega
              rwa [hend]

theorem finds_ofForm (line : Text) (form : CommentForm) : Finds line form (ofForm line form) := by
  cases form with
  | toLineEnd opener => exact finds_toLineEnd [] (by simp)
  | block opener closer => exact finds_blocks [] 0

/-! ## Nothing else is there -/

theorem ToLineEnd.unique (h : ToLineEnd opener line found) (h' : ToLineEnd opener line found') :
    found = found' := by
  cases h with
  | none hall =>
      cases h' with
      | none _ => rfl
      | one hopens hrest _ => exact absurd (hall _ _ _ hopens) hrest
  | @one p word rest hopens hrest hfirst =>
      cases h' with
      | none hall => exact absurd (hall _ _ _ hopens) hrest
      | @one p' word' rest' hopens' hrest' hfirst' =>
          have hplace : p = p' := by
            rcases Nat.lt_trichotomy p p' with hlt | heq | hlt
            · exact absurd (hfirst' p hlt _ _ hopens) hrest
            · exact heq
            · exact absurd (hfirst p' hlt _ _ hopens') hrest'
          subst hplace
          obtain ⟨rfl, rfl⟩ := hopens.unique hopens'
          rfl

theorem Blocks.unique (h : Blocks opener closer line n found)
    (h' : Blocks opener closer line n found') : found = found' := by
  induction h generalizing found' with
  | none hall =>
      cases h' with
      | none _ => rfl
      | next hp hopens _ _ _ => exact absurd hopens (hall _ hp _ _)
  | @next n p word rest inside behind found hp hopens hfirst hends hrest ih =>
      cases h' with
      | none hall => exact absurd hopens (hall _ hp _ _)
      | @next _ p' word' rest' inside' behind' found' hp' hopens' hfirst' hends' hrest' =>
          have hplace : p = p' := by
            rcases Nat.lt_trichotomy p p' with hlt | heq | hlt
            · exact absurd hopens (hfirst' p hp hlt _ _)
            · exact heq
            · exact absurd hopens' (hfirst p' hp' hlt _ _)
          subst hplace
          obtain ⟨rfl, rfl⟩ := hopens.unique hopens'
          obtain ⟨rfl, rfl⟩ := hends.unique hends'
          rw [ih hrest']

/-- The scan finds what a form finds, and no other list is what it finds. -/
theorem finds_iff : Finds line form found ↔ ofForm line form = found := by
  constructor
  · intro h
    have hscan := finds_ofForm line form
    cases form with
    | toLineEnd opener => exact hscan.unique h
    | block opener closer => exact hscan.unique h
  · rintro rfl
    exact finds_ofForm line form

end Scan

/-! ## The tasks of a text -/

/-- The tasks of a line without a marker: what the forms of comments find, form after form, as far as
it has a text. -/
def Shows (path : Path) (number : Nat) (line : Text) (tasks : List Task) : Prop :=
  ∃ found : List (List Scan.Found),
    List.Forall₂ (Scan.Finds line) (CommentSyntax.ofPath path).forms found ∧
      tasks = (found.flatten.filter fun f => f.text ≠ []).map fun f => f.toTask path number line

theorem tasksOfLines_eq (path : Path) (withMarked : Bool) (number : Nat) (ls : List Text) :
    tasksOfLines path withMarked number ls =
      (ls.zipIdx number).flatMap fun l => tasksOfLine path withMarked l.2 l.1 := by
  induction ls generalizing number with
  | nil => rfl
  | cons line ls ih => rw [tasksOfLines, ih, List.zipIdx_cons, List.flatMap_cons]

theorem tasksOfLine_of_unmarked {path : Path} {withMarked : Bool} {number : Nat} {line : Text}
    (h : Marker.idOf? line = none) : tasksOfLine path withMarked number line =
      ((Scan.ofLine (CommentSyntax.ofPath path) line).filter fun f => f.text ≠ []).map
        fun f => f.toTask path number line := by
  rw [tasksOfLine]
  simp only [h, Option.isSome_none, Bool.false_and, Bool.false_eq_true, if_false]
  rw [← List.filterMap_eq_map, List.filterMap_filter]
  refine List.filterMap_congr fun f _ => ?_
  cases htext : f.text with
  | nil => rfl
  | cons c r => simp [Scan.Found.toTask, htext]

/-- The tasks of a text are those of its lines, one line after the other, and a line without a marker
has the tasks that it shows and no others. -/
theorem tasksOf_line_by_line (path : Path) (withMarked : Bool) (t : Text) :
    tasksOf path withMarked t = ((Text.bodies (Text.dropBom t)).zipIdx 1).flatMap
        (fun l => tasksOfLine path withMarked l.2 l.1) ∧
      ∀ number line tasks, Marker.idOf? line = none →
        (tasksOfLine path withMarked number line = tasks ↔ Shows path number line tasks) := by
  refine ⟨tasksOfLines_eq path withMarked 1 _, fun number line tasks hmarked => ?_⟩
  have hfound : ∀ found : List (List Scan.Found),
      List.Forall₂ (Scan.Finds line) (CommentSyntax.ofPath path).forms found ↔
        found = (CommentSyntax.ofPath path).forms.map (Scan.ofForm line) := by
    intro found
    have hfinds : Scan.Finds line = fun form f => Scan.ofForm line form = f :=
      funext₂ fun form f => propext Scan.finds_iff
    rw [hfinds, ← List.forall₂_map_left_iff, List.forall₂_eq_eq_eq]
    exact eq_comm
  simp only [Shows, hfound, exists_eq_left]
  rw [tasksOfLine_of_unmarked hmarked, Scan.ofLine, List.flatMap_def]
  exact eq_comm

/-- A line with four marked comments, one without a text and one inside another. -/
def crowdedLine : Text := "/* TODO: */ /* FIXME: b // TODO: c */ x /* bug:d"

theorem tasksOf_line_by_line_crowdedLine :
    Marker.idOf? crowdedLine = none ∧
      tasksOf ⟨.relative, ["a.c"]⟩ false crowdedLine =
        [⟨⟨.relative, ["a.c"]⟩, 1, 25, crowdedLine, "TODO", "c */ x /* bug:d", "C", none⟩,
          ⟨⟨.relative, ["a.c"]⟩, 1, 13, crowdedLine, "FIXME", "b // TODO: c", "C", none⟩,
          ⟨⟨.relative, ["a.c"]⟩, 1, 41, crowdedLine, "BUG", "d", "C", none⟩] ∧
      Shows ⟨.relative, ["a.c"]⟩ 1 crowdedLine (tasksOf ⟨.relative, ["a.c"]⟩ false crowdedLine) := by
  have hmarked : Marker.idOf? crowdedLine = none := by decide +kernel
  obtain ⟨hlines, hshows⟩ := tasksOf_line_by_line ⟨.relative, ["a.c"]⟩ false crowdedLine
  have hbodies : Text.bodies (Text.dropBom crowdedLine) = [crowdedLine] := by decide +kernel
  rw [hbodies, List.zipIdx_singleton, List.flatMap_singleton] at hlines
  exact ⟨hmarked, by decide +kernel, (hshows 1 crowdedLine _ hmarked).mp hlines.symm⟩

end TodoLedger
