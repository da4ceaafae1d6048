import TodoLedger.Proofs.Gather.Effect
import TodoLedger.Proofs.Text.Standing
/-!
# One marker for each line

Tasks and new issues are one to one, but a line is marked only once. The id of the first task's issue
stands in one marker, the one on its line, and the ids of the other tasks' issues stand in none, if the
tokens that were drawn for the ids are distinct.
-/

namespace TodoLedger

open Work Workspace Utf8 Document

/-! ## The marker of a line -/

section Line

variable {p : Path} {s t x y a b id id' : Text} {pairs : List (Task × Issue)} {e : Task × Issue}
  {k : Nat}

theorem Marker.text_ne_nil (id : Text) : Marker.text id ≠ [] := List.cons_ne_nil _ _

theorem Marker.not_mem_text {c : Rune} (hid : ∀ c ∈ id, c.IsSlug)
    (hc : c ∉ ("[orgi:]" : Text) ∧ ¬c.IsSlug) : c ∉ Marker.text id := by
  have hfixed : ("[orgi:]" : Text) = Marker.opening ++ "]" := rfl
  rw [hfixed, List.mem_append, not_or] at hc
  rw [Marker.text, List.mem_append, List.mem_append]
  rintro ((hmem | hmem) | hmem)
  · exact hc.1.1 hmem
  · exact hc.2 (hid c hmem)
  · exact hc.1.2 hmem

theorem Marker.eq_of_stands (hid : ∀ c ∈ id, c.IsSlug) (hid' : ∀ c ∈ id', c.IsSlug)
    (h : Marker.text id = x ++ (Marker.text id' ++ y)) : id = id' ∧ x = [] ∧ y = [] := by
  have hforeign : ∀ {id : Text}, (∀ c ∈ id, c.IsSlug) → ∀ d, d.code = 91 ∨ d.code = 93 → d ∉ id := by
    intro id hid d hd hmem
    have hcode := (hid d hmem).code_cases
    omega
  have hbracket : (Rune.ofChar '[').code = 91 ∧ (Rune.ofChar ']').code = 93 := by decide
  have hx : x = [] := by
    cases x with
    | nil => rfl
    | cons c x =>
        have htail := congrArg List.tail h
        have hmem : Rune.ofChar '[' ∈ (Marker.text id).tail := by
          rw [htail]
          exact List.mem_append_right x (List.mem_append_left y List.mem_cons_self)
        have hfixed : Rune.ofChar '[' ∉ ("orgi:" : Text) ∧ Rune.ofChar '[' ∉ ("]" : Text) := by decide
        have hparts : (Marker.text id).tail = ("orgi:" : Text) ++ id ++ ("]" : Text) := rfl
        rw [hparts, List.mem_append, List.mem_append] at hmem
        rcases hmem with (hmem | hmem) | hmem
        · exact absurd hmem hfixed.1
        · exact absurd hmem (hforeign hid _ (Or.inl hbracket.1))
        · exact absurd hmem hfixed.2
  subst hx
  have hrest : id ++ Rune.ofChar ']' :: [] = id' ++ Rune.ofChar ']' :: y := by
    rw [List.nil_append, Marker.text, Marker.text, List.append_assoc, List.append_assoc,
      List.append_assoc] at h
    exact List.append_cancel_left h
  obtain ⟨hsame, hy⟩ := Span.split_at_first (hforeign hid _ (Or.inr hbracket.2))
    (hforeign hid' _ (Or.inr hbracket.2)) hrest
  exact ⟨hsame, rfl, hy.symm⟩

namespace Occurrence

variable (F : Occurrence p t)

/-- What stands on the marked line in front of the marker. -/
def markFront : Text := F.mark ++ (F.before ++ F.lead) ++ " "

/-- What stands on the marked line behind the marker. -/
def markBack : Text := " " ++ F.rest.dropWhile Rune.isSpaceOrTab

theorem body_markedLine (id : Text) :
    (F.markedLine id).body = F.markFront ++ (Marker.text id ++ F.markBack) := by
  simp [markedLine, markFront, markBack, lineWith, markedRest]

/-- The only marker on a marked line is the one that was written. -/
theorem eq_of_stands (hF : F.IsSound) (hid : ∀ c ∈ id, c.IsSlug) (hid' : ∀ c ∈ id', c.IsSlug)
    (h : (F.markedLine id).body = x ++ (Marker.text id' ++ y)) :
    id = id' ∧ x = F.markFront ∧ y = F.markBack := by
  have hplain : ¬Marker.text id' <:+: F.line.body := by
    rintro ⟨u, v, huv⟩
    have hbegun := F.isBegun_body hF
    rw [← huv, List.append_assoc, Marker.isBegun_append] at hbegun
    cases hbegun
  have hline : F.line.body = F.mark ++ (F.before ++ F.lead) ++ F.rest := by
    rw [F.body_lineWith, lineWith, List.append_assoc, List.append_assoc]
  have hfront : F.mark ++ (F.before ++ F.lead) <:+: F.line.body := by
    rw [hline]
    exact (List.prefix_append _ _).isInfix
  have hback : F.rest.dropWhile Rune.isSpaceOrTab <:+: F.line.body := by
    rw [hline]
    exact ((List.dropWhile_suffix _).trans (List.suffix_append _ _)).isInfix
  have hspace : Rune.ofChar ' ' ∉ Marker.text id' := Marker.not_mem_text hid' (by decide)
  have hsplit : F.mark ++ (F.before ++ F.lead) ++ Rune.ofChar ' ' :: (Marker.text id ++
      Rune.ofChar ' ' :: F.rest.dropWhile Rune.isSpaceOrTab) = x ++ (Marker.text id' ++ y) := by
    rw [← h, F.body_markedLine, markFront, markBack, List.append_assoc _ (" " : Text)]
    rfl
  rcases Text.stands_beside hsplit hspace with ⟨b', hb, -⟩ | ⟨a', ha, rfl⟩
  · exact absurd (List.IsInfix.trans ⟨x, b', by rw [hb, List.append_assoc]⟩ hfront) hplain
  · rcases Text.stands_beside ha hspace with ⟨b', hb, rfl⟩ | ⟨a'', ha', rfl⟩
    · obtain ⟨rfl, rfl, rfl⟩ := Marker.eq_of_stands hid hid' hb
      exact ⟨rfl, rfl, rfl⟩
    · exact absurd (List.IsInfix.trans ⟨a'', y, by rw [ha', List.append_assoc]⟩ hback) hplain

end Occurrence

namespace MarksFirst

/-- A marker that the text did not have stands where a first task was marked with its id. -/
theorem line_of_stands (h : MarksFirst p t pairs (Text.lines s))
    (hids : ∀ e ∈ pairs, ∀ c ∈ e.2.id, c.IsSlug) (hid : ∀ c ∈ id, c.IsSlug)
    (hnew : ¬Marker.text id <:+: t) (hs : s = a ++ (Marker.text id ++ b)) :
    ∃ k e, firstAt pairs p k = some e ∧ e.2.id = id ∧ ∀ F : Occurrence p t, F.IsSound →
      (Text.lines s)[k]? = some (F.markedLine e.2.id) →
      a = Text.ofLines ((Text.lines s).take k) ++ F.markFront ∧
        b = F.markBack ++ (F.line.ending.text ++ Text.ofLines ((Text.lines s).drop (k + 1))) := by
  have hfree : Text.EndFree (Marker.text id) := by
    have hfixed : Text.EndFree Marker.opening ∧ Text.EndFree ("]" : Text) := by decide
    rw [Marker.text, Text.endFree_append, Text.endFree_append]
    refine ⟨⟨hfixed.1, fun c hc => ?_⟩, hfixed.2⟩
    exact (Text.fitsLine_of_basic fun c hc => (hid c hc).isVisible.isBasic).breakFree.endFree c hc
  rw [← Text.ofLines_lines s] at hs
  obtain ⟨k, l, x, y, hl, hbody, rfl, rfl⟩ :=
    Text.exists_line_of_stands (Text.wellCut_lines s) (Marker.text_ne_nil id) hfree hs
  cases hfirst : firstAt pairs p k with
  | none =>
      rw [h.kept k hfirst] at hl
      have hthere : Marker.text id <:+: l.body := ⟨x, y, by rw [hbody, List.append_assoc]⟩
      exact absurd (hthere.trans (Text.body_infix_of_mem_lines (List.mem_of_getElem? hl))) hnew
  | some e =>
      obtain ⟨F, hF, -, -, hmarked⟩ := h.marked k e hfirst
      have hslug := hids e (of_firstAt hfirst).1
      obtain rfl := Option.some.inj (hl.symm.trans hmarked)
      obtain ⟨hsame, -, -⟩ := F.eq_of_stands hF hslug hid hbody
      refine ⟨k, e, hfirst, hsame, fun F' hF' hl' => ?_⟩
      have hline : F.markedLine e.2.id = F'.markedLine e.2.id :=
        Option.some.inj (hmarked.symm.trans hl')
      rw [hline] at hbody ⊢
      obtain ⟨-, rfl, rfl⟩ := F'.eq_of_stands hF' hslug hid hbody
      exact ⟨rfl, rfl⟩

/-- The marker of the first task of a line stands in the text once. -/
theorem stands_once (h : MarksFirst p t pairs (Text.lines s))
    (hids : ∀ e ∈ pairs, ∀ c ∈ e.2.id, c.IsSlug) (hfirst : firstAt pairs p k = some e)
    (hown : ∀ e' ∈ pairs, e'.2.id = e.2.id → e' = e) (hnew : ¬Marker.text e.2.id <:+: t) :
    ∃ a b, s = a ++ (Marker.text e.2.id ++ b) ∧
      ∀ a' b', s = a' ++ (Marker.text e.2.id ++ b') → a' = a ∧ b' = b := by
  obtain ⟨F, hF, -, -, hmarked⟩ := h.marked k e hfirst
  have hstands := Text.ofLines_of_body hmarked (F.body_markedLine e.2.id)
  rw [Text.ofLines_lines] at hstands
  refine ⟨_, _, hstands, fun a' b' hs => ?_⟩
  obtain ⟨k', e', hfirst', hsame, hplace⟩ :=
    h.line_of_stands hids (hids e (of_firstAt hfirst).1) hnew hs
  obtain rfl := hown e' (of_firstAt hfirst').1 hsame
  obtain rfl : k' = k := by
    have hline := (of_firstAt hfirst).2.2
    have hline' := (of_firstAt hfirst').2.2
    omega
  exact hplace F hF hmarked

end MarksFirst

end Line

theorem OnlyEvents.textAt {w v : Workspace} (h : OnlyEvents w v) (p : Path) :
    v.textAt p = w.textAt p := by
  rw [Workspace.textAt, Workspace.textAt, h.content]

namespace Gather

/-! ## The markers of the files -/

variable {settings : Settings} {b : Backups} {directory document p : Path} {place : Place}
  {files : List Path} {tasks : List Task} {pairs written before after : List (Task × Issue)}
  {patches : List Patch} {w w' v u : Workspace} {e : Task × Issue} {g : Gathered} {id : Text} {k : Nat}

/-- The text stands in one of the files: the path of the file, what stands there in front of the text
and what stands behind it. -/
def Stands (files : List Path) (w : Workspace) (m : Text) (o : Path × Text × Text) : Prop :=
  o.1 ∈ files ∧ w.textAt o.1 = o.2.1 ++ (m ++ o.2.2)

/-- The marker of an id stands in none of the files, nor in the entries of new issues if these go to
one of the files. -/
structure IsUnused (document : Path) (files : List Path) (issues : List Issue) (w : Workspace)
    (id : Text) : Prop where
  unmarked : ∀ p ∈ files, ¬Marker.text id <:+: w.textAt p
  entries : (∃ p ∈ files, p.resolve w.cwd = document.resolve w.cwd) →
    ¬Marker.text id <:+: decode (bytesOf (issues.flatMap Issue.render))

theorem textAt_of_content {bytes : Bytes} (h : w.content p = .ok bytes) :
    w.textAt p = decode bytes := by
  rw [Workspace.textAt, h]

/-- Only the texts of the files count. -/
theorem IsUnused.of_textAt {issues : List Issue} (h : IsUnused document files issues w id)
    (htext : ∀ p, v.textAt p = w.textAt p) (hcwd : v.cwd = w.cwd) :
    IsUnused document files issues v id where
  unmarked := by
    intro p hp
    rw [htext]
    exact h.unmarked p hp
  entries := by
    rw [hcwd]
    exact h.entries

theorem exists_content_of_stands {o : Path × Text × Text} (ho : Stands files w (Marker.text id) o) :
    ∃ bytes, w.content o.1 = .ok bytes ∧ decode bytes = o.2.1 ++ (Marker.text id ++ o.2.2) := by
  obtain ⟨-, htext⟩ := ho
  rw [Workspace.textAt] at htext
  split at htext
  · rename_i bytes hcontent
    exact ⟨bytes, hcontent, htext⟩
  · simp [Marker.text_ne_nil] at htext

/-- A marker that is not in use is not in use behind the new entries. -/
theorem IsUnused.not_infix {issues : List Issue} {n : Nat} {bytes : Bytes}
    (h : IsUnused document files issues w id) (hid : ∀ c ∈ id, c.IsSlug) (hne : issues ≠ [])
    (hrun : (append document issues).runOn w = (.ok n, u)) (hp : p ∈ files)
    (hcontent : w.content p = .ok bytes) :
    ∃ bytes', u.content p = .ok bytes' ∧ ¬Marker.text id <:+: decode bytes' := by
  have hold := h.unmarked p hp
  rw [textAt_of_content hcontent] at hold
  rcases content_behind_append hne hrun hcontent with ⟨-, hkept⟩ | ⟨hplace, hgrown⟩
  · exact ⟨bytes, hkept, hold⟩
  · refine ⟨_, hgrown, ?_⟩
    have hentries := h.entries ⟨p, hp, hplace⟩
    obtain ⟨hread, hhead⟩ := Issue.decode_append_render hne bytes
    obtain ⟨r, hr⟩ := List.head?_eq_some_iff.mp hhead
    rw [hread]
    rw [hr] at hentries ⊢
    rintro ⟨x, y, hxy⟩
    rw [← List.append_assoc, List.append_assoc x] at hxy
    -- The marker stands on one side of the star that the entries start with.
    rcases Text.stands_beside hxy.symm (Marker.not_mem_text hid (by decide)) with
      ⟨b', hfront, -⟩ | ⟨a', hback, -⟩
    · rcases Text.gap_cases (decode bytes) with hgap | hgap
      · rw [hgap, List.append_nil] at hfront
        exact hold ⟨x, b', by rw [hfront, List.append_assoc]⟩
      · rw [hgap] at hfront
        rcases Text.stands_beside hfront (Marker.not_mem_text hid (by decide)) with
          ⟨b'', hfront', -⟩ | ⟨a'', hnil, -⟩
        · exact hold ⟨x, b'', by rw [hfront', List.append_assoc]⟩
        · simp [Marker.text_ne_nil] at hnil
    · exact hentries ⟨Rune.ofChar '*' :: a', y, by rw [hback]; simp⟩

/-- A file that is there behind some steps was there before them. -/
theorem exists_content_of_frame {touched : Place → Prop} {bytes : Bytes}
    (h : IsReady settings directory b place w) (hw : w.tree.WellFormed) (hframe : Frame touched w v)
    (hp : p ∈ w.tree.wanted directory place settings.selection) (hcontent : v.content p = .ok bytes) :
    ∃ start, w.content p = .ok start := by
  obtain ⟨name, node, rfl, hname, hplace, hnode, -⟩ := h.exists_name hw hp
  obtain ⟨q, hlocate, hfile⟩ := content_eq_ok_iff.mp hcontent
  rw [eq_resolve_of_locate hlocate, hframe.cwd, hplace] at hfile
  cases node with
  | directory =>
      rw [hframe.directories _ hnode] at hfile
      cases hfile
  | file start =>
      obtain ⟨hencode, hnull, -⟩ := locate_eq_ok_iff.mp hlocate
      obtain ⟨-, -, hwalk⟩ := locate_eq_ok_iff.mp h.located
      exact ⟨start, content_eq_ok_iff.mpr ⟨_, locate_eq_ok_iff.mpr ⟨hencode, hnull,
        Tree.walk_append_name hwalk h.isDirectory hname.ne_dotDot hname.short⟩, hnode⟩⟩

/-- A marker that was not in use stands where a first task was marked with its id. -/
theorem Marks.first_of_stands {o : Path × Text × Text} (h : Marks b files pairs u w')
    (hids : ∀ e ∈ pairs, ∀ c ∈ e.2.id, c.IsSlug) (hid : ∀ c ∈ id, c.IsSlug)
    (hclean : ∀ p ∈ files, ∀ bytes', w'.content p = .ok bytes' →
      ∃ bytes, u.content p = .ok bytes ∧ ¬Marker.text id <:+: decode bytes)
    (ho : Stands files w' (Marker.text id) o) :
    ∃ k e, firstAt pairs o.1 k = some e ∧ e.2.id = id := by
  obtain ⟨bytes', hcontent', htext⟩ := exists_content_of_stands ho
  obtain ⟨bytes, hcontent, hnew⟩ := hclean _ ho.1 bytes' hcontent'
  obtain ⟨after, hafter, hmarks⟩ := h.files _ ho.1 bytes hcontent
  obtain rfl := Except.ok.inj (hafter.symm.trans hcontent')
  obtain ⟨k, e, hfirst, hsame, -⟩ := hmarks.line_of_stands hids hid hnew htext
  exact ⟨k, e, hfirst, hsame⟩

/-- The marker of the first task of a line stands in the files once. -/
theorem Marks.stands_once (h : Marks b files pairs u w')
    (hids : ∀ e ∈ pairs, ∀ c ∈ e.2.id, c.IsSlug)
    (hown : ∀ e' ∈ pairs, e'.2.id = e.2.id → e' = e)
    (hclean : ∀ p ∈ files, ∀ bytes', w'.content p = .ok bytes' →
      ∃ bytes, u.content p = .ok bytes ∧ ¬Marker.text e.2.id <:+: decode bytes)
    (hfirst : firstAt pairs p k = some e) (hp : p ∈ files)
    (hthere : ∃ bytes, u.content p = .ok bytes) :
    ∃! o, Stands files w' (Marker.text e.2.id) o := by
  obtain ⟨he, hpath, -⟩ := of_firstAt hfirst
  obtain ⟨bytes, hcontent⟩ := hthere
  obtain ⟨bytes', hcontent', hmarks⟩ := h.files p hp bytes hcontent
  obtain ⟨start, hstart, hnew⟩ := hclean p hp bytes' hcontent'
  obtain rfl := Except.ok.inj (hstart.symm.trans hcontent)
  obtain ⟨x, y, hxy, hunique⟩ := hmarks.stands_once hids hfirst hown hnew
  refine ⟨(p, x, y), ⟨hp, by rw [textAt_of_content hcontent']; exact hxy⟩, ?_⟩
  rintro ⟨q, x', y'⟩ ho
  obtain ⟨k', e', hfirst', hsame⟩ := h.first_of_stands hids (hids e he) hclean ho
  obtain ⟨he', hpath', -⟩ := of_firstAt hfirst'
  obtain rfl := hown e' he' hsame
  obtain rfl : q = p := hpath'.symm.trans hpath
  obtain ⟨other, hother, htext⟩ := exists_content_of_stands ho
  obtain rfl := Except.ok.inj (hother.symm.trans hcontent')
  obtain ⟨rfl, rfl⟩ := hunique x' y' htext
  rfl

/-! ## The patches -/

/-- Where no patch fails, each patch speaks of its pair behind the pairs before it. -/
theorem Reported.of_split (h : Reported written pairs patches)
    (hok : ∀ patch ∈ patches, patch.isFailure = false) (hsplit : pairs = before ++ e :: after) :
    ∃ patch, patches[before.length]? = some patch ∧ Reports (written ++ before) e.1 e.2 patch := by
  induction h generalizing before with
  | nil => simp at hsplit
  | @cons written rest first patch patches hreports _ ih =>
      obtain ⟨hpatch, hothers⟩ := List.forall_mem_cons.mp hok
      rw [hpatch] at ih
      cases before with
      | nil =>
          obtain ⟨rfl, rfl⟩ := List.cons.inj hsplit
          exact ⟨patch, rfl, by rwa [List.append_nil]⟩
      | cons d before =>
          obtain ⟨rfl, hrest⟩ := List.cons.inj hsplit
          obtain ⟨patch', hpatch', hreports'⟩ := ih hothers hrest
          refine ⟨patch', hpatch', ?_⟩
          simpa using hreports'

theorem Reports.eq_applied {patch : Patch} (h : Reports before e.1 e.2 patch)
    (hok : patch.isFailure = false) (hfirst : ∀ e' ∈ before, ¬e'.1.SharesLine e.1) :
    patch = ⟨e.1.path, .applied, "Inserted reference " ++ e.2.id⟩ := by
  cases h with
  | applied _ => rfl
  | unchanged hbefore =>
      obtain ⟨e', he', hshares⟩ := hbefore
      exact absurd hshares (hfirst e' he')
  | failed _ => cases hok

theorem Reports.eq_unchanged {patch : Patch} (h : Reports before e.1 e.2 patch)
    (hok : patch.isFailure = false) (hlater : ∃ e' ∈ before, e'.1.SharesLine e.1) :
    patch = ⟨e.1.path, .unchanged, "Line already has reference"⟩ := by
  cases h with
  | applied hfirst =>
      obtain ⟨e', he', hshares⟩ := hlater
      exact absurd hshares (hfirst e' he')
  | unchanged _ => rfl
  | failed _ => cases hok

theorem Reported.length_eq (h : Reported written pairs patches) :
    patches.length = pairs.length := by
  induction h with
  | nil => rfl
  | cons _ _ ih => rw [List.length_cons, List.length_cons, ih]

/-- Patches fail only where an operation on files does. -/
theorem Reported.exists_fault (h : Reported written pairs patches) :
    ∀ patch ∈ patches, patch.isFailure = true → ∃ e ∈ pairs, ∃ fault : Fault, fault.IsOfFiles ∧
      patch = .failure e.1.path (.insertMarker e.1 e.2.id) fault := by
  induction h with
  | nil => simp
  | @cons written rest first patch patches hreports _ ih =>
      refine List.forall_mem_cons.mpr ⟨fun hfailure => ?_, fun other hother hfailure => ?_⟩
      · cases hreports with
        | applied _ => cases hfailure
        | unchanged _ => cases hfailure
        | @failed fault hfault => exact ⟨first, List.mem_cons_self, fault, hfault, rfl⟩
      · obtain ⟨e, he, hfault⟩ := ih other hother hfailure
        exact ⟨e, List.mem_cons_of_mem _ he, hfault⟩

/-! ## The run -/

/-- Each line with tasks was marked once, with the id of its first task's issue. All that is found on
the line afterwards has that id. Where the tokens of the run are distinct, the marker of such an id
stands in the files once and the marker of any other new id nowhere. -/
structure MarksOnce (document : Path) (files : List Path) (w w' : Workspace)
    (pairs : List (Task × Issue)) (patches : List Patch) (found : List Task) : Prop where
  length : patches.length = pairs.length
  first : ∀ before e after, pairs = before ++ e :: after →
    (∀ e' ∈ before, ¬e'.1.SharesLine e.1) →
    patches[before.length]? = some ⟨e.1.path, .applied, "Inserted reference " ++ e.2.id⟩ ∧
      (∃ text, { e.1 with lineText := text, issueId := some e.2.id } ∈ found) ∧
      (∀ r ∈ found, r.SharesLine e.1 → r.issueId = some e.2.id) ∧
      (w.DrawsDistinct pairs.length → IsUnused document files (pairs.map Prod.snd) w e.2.id →
        ∃! o, Stands files w' (Marker.text e.2.id) o)
  later : ∀ before e after, pairs = before ++ e :: after →
    (∃ e' ∈ before, e'.1.SharesLine e.1) →
    patches[before.length]? = some ⟨e.1.path, .unchanged, "Line already has reference"⟩ ∧
      (w.DrawsDistinct pairs.length → IsUnused document files (pairs.map Prod.snd) w e.2.id →
        ∀ o, ¬Stands files w' (Marker.text e.2.id) o)

theorem MarksOnce.of_onlyEvents {found : List Task}
    (h : MarksOnce document files v u pairs patches found) (hv : OnlyEvents w v)
    (hu : OnlyEvents u w') : MarksOnce document files w w' pairs patches found := by
  have hstands : ∀ m o, Stands files w' m o ↔ Stands files u m o := by
    intro m o
    rw [Stands, Stands, hu.textAt]
  have hdraws : w.DrawsDistinct pairs.length → v.DrawsDistinct pairs.length := by
    obtain ⟨added, rfl⟩ := hv
    exact id
  refine ⟨h.length, fun before e after hsplit hfirst => ?_, fun before e after hsplit hlater => ?_⟩
  · obtain ⟨hpatch, hmarked, hothers, honce⟩ := h.first before e after hsplit hfirst
    refine ⟨hpatch, hmarked, hothers, fun hdistinct hunused => ?_⟩
    simp only [hstands]
    exact honce (hdraws hdistinct) (hunused.of_textAt hv.textAt hv.cwd)
  · obtain ⟨hpatch, hnone⟩ := h.later before e after hsplit hlater
    refine ⟨hpatch, fun hdistinct hunused o => ?_⟩
    rw [hstands]
    exact hnone (hdraws hdistinct) (hunused.of_textAt hv.textAt hv.cwd) o

/-- The first pair on the line of some pair is that one, unless one before it stands there. -/
private theorem firstAt_of_split (hsplit : pairs = before ++ e :: after)
    (hline : e.1.line = (k + 1 : Nat)) :
    (∀ e' ∈ before, ¬e'.1.SharesLine e.1) ∧ firstAt pairs e.1.path k = some e ∨
      ∃ e' ∈ before, e'.1.SharesLine e.1 ∧ firstAt pairs e.1.path k = some e' := by
  have hfirst : firstAt pairs e.1.path k =
      (firstAt before e.1.path k).or (firstAt (e :: after) e.1.path k) := by
    rw [hsplit]
    exact List.find?_append
  cases hbefore : firstAt before e.1.path k with
  | none =>
      rw [hbefore, Option.none_or] at hfirst
      refine Or.inl ⟨fun e' he' hshares => ?_, ?_⟩
      · exact firstAt_eq_none_iff.mp hbefore e' he' ⟨hshares.1, hshares.2.trans hline⟩
      · rw [hfirst]
        exact List.find?_cons_of_pos (by simp [hline])
  | some e' =>
      rw [hbefore, Option.some_or] at hfirst
      obtain ⟨he', hpath, hline'⟩ := of_firstAt hbefore
      exact Or.inr ⟨e', he', ⟨hpath, hline'.trans hline.symm⟩, hfirst⟩

/-- What is known of a run all of whose patches have not failed: the entries were appended first, and
then the tasks were marked. -/
structure AllMarked (b : Backups) (document : Path) (files : List Path) (w u w' : Workspace)
    (pairs : List (Task × Issue)) (patches : List Patch) : Prop where
  slugs : ∀ e ∈ pairs, ∀ c ∈ e.2.id, c.IsSlug
  nodup : w.DrawsDistinct pairs.length → (pairs.map fun e => e.2.id).Nodup
  found : ∀ e ∈ pairs, e.1.path ∈ files ∧ e.1 ∈ u.tasksAt e.1.path
  clean : ∀ e ∈ pairs, IsUnused document files (pairs.map Prod.snd) w e.2.id →
    ∀ p ∈ files, ∀ bytes', w'.content p = .ok bytes' →
      ∃ bytes, u.content p = .ok bytes ∧ ¬Marker.text e.2.id <:+: decode bytes
  succeeded : ∀ patch ∈ patches, patch.isFailure = false
  reported : Reported [] pairs patches
  marks : Marks b files pairs u w'

namespace AllMarked

theorem own (h : AllMarked b document files w u w' pairs patches)
    (hdistinct : w.DrawsDistinct pairs.length) (he : e ∈ pairs) :
    ∀ e' ∈ pairs, e'.2.id = e.2.id → e' = e :=
  fun _ he' hsame => List.inj_on_of_nodup_map (h.nodup hdistinct) he' he hsame

theorem exists_place (h : AllMarked b document files w u w' pairs patches) (he : e ∈ pairs) :
    ∃ k : Nat, e.1.line = (k + 1 : Nat) ∧ ∃ bytes, u.content e.1.path = .ok bytes := by
  obtain ⟨bytes, hcontent, hmem⟩ := exists_content_of_mem_tasksAt (h.found e he).2
  obtain ⟨k, -, -, hline, -⟩ := mem_tasksOf_iff.mp hmem
  exact ⟨k, hline, bytes, hcontent⟩

/-- The first task of a line is found afterwards, as everything on its line with its issue's id. -/
theorem found_of_first (h : AllMarked b document files w u w' pairs patches) (he : e ∈ pairs)
    (hfirst : firstAt pairs e.1.path k = some e) {found : List Task}
    (hfound : found = files.flatMap (w'.tasksFor true)) :
    (∃ text, { e.1 with lineText := text, issueId := some e.2.id } ∈ found) ∧
      ∀ r ∈ found, r.SharesLine e.1 → r.issueId = some e.2.id := by
  obtain ⟨-, -, bytes, hcontent⟩ := h.exists_place he
  obtain ⟨hpath, -⟩ := h.found e he
  obtain ⟨bytes', hcontent', hfile⟩ := h.marks.files _ hpath bytes hcontent
  obtain ⟨⟨text, hmarked⟩, hothers⟩ := hfile.mem_tasksOf_marked h.slugs hfirst
  have hthere : w'.tasksFor true e.1.path = tasksOf e.1.path true (decode bytes') := by
    rw [Workspace.tasksFor, hcontent']
  subst hfound
  refine ⟨⟨text, List.mem_flatMap.mpr ⟨e.1.path, hpath, by rwa [hthere]⟩⟩, fun r hr hshares => ?_⟩
  obtain ⟨q, hq, hr⟩ := List.mem_flatMap.mp hr
  obtain ⟨other, -, hmem⟩ := exists_content_of_mem_tasksFor hr
  obtain rfl : q = e.1.path := (isFound_of_mem_tasksOf hmem).path.symm.trans hshares.1
  rw [hthere] at hr
  exact hothers r hr hshares.2

/-- The id of a task that is not the first of its line stands in no marker. -/
theorem not_stands_of_later (h : AllMarked b document files w u w' pairs patches)
    (hsplit : pairs = before ++ e :: after) (hlater : ∃ e' ∈ before, e'.1.SharesLine e.1)
    (hdistinct : w.DrawsDistinct pairs.length)
    (hunused : IsUnused document files (pairs.map Prod.snd) w e.2.id) (o : Path × Text × Text) :
    ¬Stands files w' (Marker.text e.2.id) o := by
  intro ho
  have he : e ∈ pairs := by simp [hsplit]
  obtain ⟨k, e', hfirst, hsame⟩ :=
    h.marks.first_of_stands h.slugs (h.slugs e he) (h.clean e he hunused) ho
  obtain ⟨he', hpath, hline⟩ := of_firstAt hfirst
  obtain rfl := h.own hdistinct he e' he' hsame
  rw [← hpath] at hfirst
  rcases firstAt_of_split hsplit hline with ⟨hnone, -⟩ | ⟨d, hd, -, hfirst'⟩
  · obtain ⟨d, hd, hshares⟩ := hlater
    exact hnone d hd hshares
  · -- The pair would stand in the list twice.
    obtain rfl := Option.some.inj (hfirst'.symm.trans hfirst)
    have hnodup := (h.nodup hdistinct).of_map
    rw [hsplit, List.nodup_append] at hnodup
    exact hnodup.2.2 _ hd _ List.mem_cons_self rfl

theorem marksOnce (h : AllMarked b document files w u w' pairs patches) :
    MarksOnce document files w w' pairs patches (files.flatMap (w'.tasksFor true)) := by
  refine ⟨h.reported.length_eq, fun before e after hsplit hfirst => ?_,
    fun before e after hsplit hlater => ?_⟩
  · obtain ⟨patch, hpatch, hreports⟩ := h.reported.of_split h.succeeded hsplit
    have hok := h.succeeded _ (List.mem_of_getElem? hpatch)
    have he : e ∈ pairs := by simp [hsplit]
    obtain ⟨k, hline, hthere⟩ := h.exists_place he
    rcases firstAt_of_split hsplit hline with ⟨-, hat⟩ | ⟨e', he', hshares, -⟩
    · obtain ⟨hmarked, hothers⟩ := h.found_of_first he hat rfl
      refine ⟨hpatch.trans (congrArg some (hreports.eq_applied hok hfirst)), hmarked, hothers,
        fun hdistinct hunused => ?_⟩
      exact h.marks.stands_once h.slugs (h.own hdistinct he) (h.clean e he hunused) hat
        (h.found e he).1 hthere
    · exact absurd hshares (hfirst e' he')
  · obtain ⟨patch, hpatch, hreports⟩ := h.reported.of_split h.succeeded hsplit
    have hok := h.succeeded _ (List.mem_of_getElem? hpatch)
    exact ⟨hpatch.trans (congrArg some (hreports.eq_unchanged hok hlater)),
      h.not_stands_of_later hsplit hlater⟩

end AllMarked

theorem marksOnce_of_collect {issues : List Issue} (hready : IsReady settings directory b place w)
    (hw : w.tree.WellFormed) (hne : tasks ≠ [])
    (hfiles : Separate b w.cwd (w.tree.wanted directory place settings.selection))
    (htasks : ∀ task ∈ tasks, task.path ∈ w.tree.wanted directory place settings.selection ∧
      task ∈ w.tasksAt task.path)
    (hrun : (collect settings b document tasks).runOn w = (.ok (issues, patches), w')) :
    ∃ pairs, (pairs.map Prod.fst = tasks ∧ pairs.map Prod.snd = issues) ∧
      (∀ patch ∈ patches, patch.isFailure = true → ∃ e ∈ pairs, ∃ fault : Fault, fault.IsOfFiles ∧
        patch = .failure e.1.path (.insertMarker e.1 e.2.id) fault) ∧
      ((∀ patch ∈ patches, patch.isFailure = false) →
        MarksOnce document (w.tree.wanted directory place settings.selection) w w' pairs patches
          ((w.tree.wanted directory place settings.selection).flatMap (w'.tasksFor true))) := by
  obtain ⟨pairs, v, u, n, ⟨hfst, rfl⟩, ⟨htree, hcwd, hevents⟩, hmade, happend, hpairs, hreported,
    hmarks⟩ := marks_of_collect hne hfiles htasks hrun
  refine ⟨pairs, ⟨hfst, rfl⟩, hreported.exists_fault, fun hok => ?_⟩
  rw [hreported.unfailed_eq hok] at hmarks
  have hsome := issues_ne_nil hfst hne
  have hframe : Frame (fun _ => True) w w' :=
    ((frame_of_append ⟨htree, hcwd, hevents⟩ happend).mono fun _ _ => trivial).trans
      (hmarks.frame.mono fun _ _ => trivial)
  have hsame : ∀ p, v.content p = w.content p := by
    intro p
    simp only [Workspace.content, Workspace.locate, htree, hcwd]
  have hmarked : AllMarked b document (w.tree.wanted directory place settings.selection) w u w'
      pairs patches :=
    { slugs := fun e he => (hpairs e he).2.2
      nodup := hmade.nodup_ids
      found := fun e he => ⟨(hpairs e he).1, (hpairs e he).2.1⟩
      clean := by
        intro e he hunused p hp bytes' hcontent'
        obtain ⟨start, hstart⟩ := exists_content_of_frame hready hw hframe hp hcontent'
        have hunused' := hunused.of_textAt
          (fun q => by rw [Workspace.textAt, Workspace.textAt, hsame]) hcwd
        exact hunused'.not_infix (hpairs e he).2.2 hsome happend hp (by rw [hsame, hstart])
      succeeded := hok
      reported := hreported
      marks := hmarks }
  exact hmarked.marksOnce

/-- A run in which a rewrite fails is one in which an operation on files fails. In every other run each
line with new tasks gets one marker: that of its first task, whose rewrite is applied, while those of
the others find the line marked. That no other marker has its id takes tokens that are distinct. -/
theorem run_marks_each_line_once (hw : w.tree.WellFormed) (hb : settings.backups w.cwd = .ok b)
    (hplace : w.locate directory = .ok place)
    (hunheld : ∀ p ∈ w.tree.wanted directory place settings.selection,
      ∀ q ∈ w.tree.wanted directory place settings.selection,
        ¬b.Holds q.name w.cwd (p.resolve w.cwd))
    (hrun : (run settings directory document false none).runOn w = (.ok g, w')) :
    (∀ patch ∈ g.failures, ∃ task id, ∃ fault : Fault, fault.IsOfFiles ∧
        patch = .failure task.path (.insertMarker task id) fault) ∧
      (g.failures = [] → ∃ is pairs found v, Lists document w is ∧
        (pairs.map Prod.fst = unknown w.cwd (tasksIn w directory place settings.selection) is ∧
          pairs.map Prod.snd = g.newIssues) ∧
        (Extraction.ofFiles true (w.tree.wanted directory place settings.selection)).runOn w' =
          (.ok found, v) ∧
        MarksOnce document (w.tree.wanted directory place settings.selection) w w' pairs g.patches
          found) := by
  obtain ⟨b', place', hready⟩ := isReady_of_run hrun
  obtain rfl := Except.ok.inj (hb.symm.trans hready.backups)
  obtain rfl := Except.ok.inj (hplace.symm.trans hready.located)
  obtain ⟨is, v, hlists, -, hv, ⟨hnone, -, hissues, hpatches⟩ | ⟨hsome, u, hcollect, hu⟩⟩ :=
    run_eq_ok hready hrun
  · have hfailures : g.failures = [] := by
      rw [Gathered.failures, hpatches]
      rfl
    obtain ⟨u, hfound, -⟩ := @runOn_ofFiles true
      (w.tree.wanted directory place settings.selection) w'
    refine ⟨by simp [hfailures], fun _ => ⟨is, [], _, u, hlists, ⟨hnone.symm, hissues.symm⟩, hfound, ?_⟩⟩
    rw [hpatches]
    exact ⟨rfl, by simp, by simp⟩
  · have hfiles := hready.separate hw hunheld
    obtain ⟨added, rfl⟩ := hv
    have hstart : OnlyEvents w { w with events := w.events ++ added } := ⟨added, rfl⟩
    obtain ⟨pairs, hpairs, hfault, honce⟩ :=
      marksOnce_of_collect (hready.of_onlyEvents hstart) hw hsome hfiles
        (fun _ => of_mem_unknown (w := w)) hcollect
    obtain ⟨end', hfound, -⟩ := @runOn_ofFiles true
      (w.tree.wanted directory place settings.selection) w'
    refine ⟨fun patch hpatch => ?_, fun hok => ⟨is, pairs, _, end', hlists, hpairs, hfound, ?_⟩⟩
    · obtain ⟨hmem, hfailure⟩ := List.mem_filter.mp hpatch
      obtain ⟨e, -, fault, hfault, rfl⟩ := hfault patch hmem hfailure
      exact ⟨e.1, e.2.id, fault, hfault, rfl⟩
    · rw [funext (hu.tasksFor true)]
      refine (honce fun patch hpatch => ?_).of_onlyEvents hstart hu
      simpa using List.filter_eq_nil_iff.mp hok patch hpatch

theorem run_marks_each_line_once_twoOnLine :
    ∃ b g w', twoOnLine.tree.WellFormed ∧ Settings.default.backups twoOnLine.cwd = .ok b ∧
      twoOnLine.locate ⟨.relative, []⟩ = .ok ["w"] ∧
      (∀ p ∈ [Path.mk .relative ["a.c"]], ∀ q ∈ [Path.mk .relative ["a.c"]],
        ¬b.Holds q.name ["w"] (p.resolve ["w"])) ∧
      (run .default ⟨.relative, []⟩ ⟨.relative, ["orgi.org"]⟩ false none).runOn twoOnLine =
        (.ok g, w') ∧ (g.failures = [] ∧ g.newIssues.length = 3) ∧
      twoOnLine.DrawsDistinct g.newIssues.length ∧
      (∀ i ∈ g.newIssues, IsUnused ⟨.relative, ["orgi.org"]⟩ [⟨.relative, ["a.c"]⟩] g.newIssues
        twoOnLine i.id) ∧
      ∃ is pairs found v, Lists ⟨.relative, ["orgi.org"]⟩ twoOnLine is ∧
        (pairs.map Prod.fst = unknown ["w"]
            (tasksIn twoOnLine ⟨.relative, []⟩ ["w"] Settings.default.selection) is ∧
          pairs.map Prod.snd = g.newIssues) ∧
        (Extraction.ofFiles true [⟨.relative, ["a.c"]⟩]).runOn w' = (.ok found, v) ∧
        MarksOnce ⟨.relative, ["orgi.org"]⟩ [⟨.relative, ["a.c"]⟩] twoOnLine w' pairs g.patches
          found := by
  have hb : Settings.default.backups twoOnLine.cwd = .ok ⟨Backups.defaultDirectory, 10⟩ := rfl
  obtain ⟨hw, hplace, hwanted⟩ := twoOnLine_spec
  have hunheld : ∀ p ∈ [Path.mk .relative ["a.c"]], ∀ q ∈ [Path.mk .relative ["a.c"]],
      ¬Backups.Holds ⟨Backups.defaultDirectory, 10⟩ q.name ["w"] (p.resolve ["w"]) := by
    intro p hp q _ hheld
    obtain rfl := List.mem_singleton.mp hp
    exact absurd hheld.covers (by decide +kernel)
  obtain ⟨g, hg, hok, hnew⟩ := run_twoOnLine
  rcases hrun : (run .default ⟨.relative, []⟩ ⟨.relative, ["orgi.org"]⟩ false none).runOn twoOnLine
    with ⟨r, w'⟩
  rw [hrun] at hg
  obtain rfl : r = .ok g := hg
  have hunused : ∀ i ∈ g.newIssues, IsUnused ⟨.relative, ["orgi.org"]⟩ [⟨.relative, ["a.c"]⟩]
      g.newIssues twoOnLine i.id :=
    fun i hi => ⟨hnew i hi, fun hscanned => absurd hscanned (by decide +kernel)⟩
  have hdistinct : twoOnLine.DrawsDistinct g.newIssues.length := by
    rw [hok.2, drawsDistinct_iff]
    decide
  refine ⟨_, g, w', hw, hb, hplace, hunheld, rfl, hok, hdistinct, hunused, ?_⟩
  rw [← hwanted] at hunheld ⊢
  exact (run_marks_each_line_once hw hb hplace hunheld hrun).2 hok.1

/-- A task in the comment of another. -/
def taskInTask : Workspace := .ofFiles ["w"] [("a.c", "// TODO: a /* TODO: b */\n")]

/-- A task, and a marker of the id that its issue gets. -/
def usedMarker : Workspace :=
  .ofFiles ["w"] [("a.py", "# TODO: b\n# [orgi:gather-20251218-143045-00000000]\n")]

/-- A task in a file that bears the name of a backup of another file with a task. -/
def taskAmongBackups : Workspace :=
  .ofFiles ["w"] [("a.py", "# TODO: b\n"), ("a.py.backup-0.py", "# TODO: c\n")]

/-- The second task of a line is not marked. A marker may be there before the issue that it names. A
file that is pruned as a backup of another one is missing when its task is to be marked. -/
theorem run_marks_not_each_task :
    (∃ g, ((run .default ⟨.relative, []⟩ Settings.default.document false none).runOn
        taskInTask).1 = .ok g ∧ g.patches.map Patch.outcome = [.applied, .unchanged]) ∧
      ((run .default ⟨.relative, []⟩ Settings.default.document false none).runOn
        taskInTask).2.textAt ⟨.relative, ["a.c"]⟩ =
          "// TODO: [orgi:gather-20251218-143045-00000000] a /* TODO: b */\n" ∧
      ((run .default ⟨.relative, []⟩ Settings.default.document false none).runOn
        usedMarker).2.textAt ⟨.relative, ["a.py"]⟩ =
          "# TODO: [orgi:gather-20251218-143045-00000000] b\n" ++
            "# [orgi:gather-20251218-143045-00000000]\n" ∧
      ∃ g, ((run backupsBeside ⟨.relative, []⟩ Settings.default.document false none).runOn
        taskAmongBackups).1 = .ok g ∧ g.patches.map Patch.outcome = [.applied, .failed] := by
  decide +kernel

end Gather

end TodoLedger
