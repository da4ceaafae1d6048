import TodoLedger.Proofs.Sync.AtOnce
/-!
# The account of a sync run

A review comes to one decision about each issue that is done, in the order of the document. `Follows`
says which decision is right behind the ones before it; a run of reviews keeps to it at every step. From
the list of decisions all the numbers of a run can be told: an issue is accepted or skipped, and an
accepted line is removed or counted as skipped after all.
-/

namespace TodoLedger

open Work Workspace Utf8

theorem Target.IsOf.eq {cwd : Place} {i : Issue} {t : Target} (h : t.IsOf cwd i) :
    (⟨t.path, i.sourceLine?.getD 0⟩ : Target) = t := by
  obtain ⟨p, n⟩ := t
  obtain rfl : n = i.sourceLine?.getD 0 := h.line
  rfl

namespace Sync

/-- What a review says about an issue. -/
inductive Verdict
  /-- Its file is not there. -/
  | missing
  /-- Its line is accepted already. -/
  | repeated
  /-- Its line is accepted, and no question is asked. -/
  | granted
  | answered (choice : Choice)
deriving DecidableEq

namespace Verdict

def accepts : Verdict → Bool
  | granted => true
  | answered choice => choice ≠ .no
  | _ => false

def isAnswer : Verdict → Bool
  | answered _ => true
  | _ => false

end Verdict

/-- What became of an issue in a review. -/
structure Decision where
  issue : Issue
  path : Path
  verdict : Verdict
deriving DecidableEq

namespace Decision

/-- The line that the issue asks for. -/
def target (d : Decision) : Target := ⟨d.path, d.issue.sourceLine?.getD 0⟩

def accepts (d : Decision) : Bool := d.verdict.accepts

def isAnswer (d : Decision) : Bool := d.verdict.isAnswer

/-- What a question about the issue is asked with. -/
def query (d : Decision) : Issue × Path := (d.issue, d.path)

end Decision

/-- One of the decisions accepts the line. -/
def Accepts (log : List Decision) (t : Target) : Prop := ∃ d ∈ log, d.accepts = true ∧ d.target = t

/-- Behind the decisions no question is asked any more. -/
def AcceptsAll (auto : Bool) (log : List Decision) : Prop :=
  auto = true ∨ ∃ d ∈ log, d.verdict = .answered .all

/-- The decisions that can follow on those before. A question is asked only about a line that is not
accepted yet, in a file that is there, and only as long as not all is accepted; it takes the next of the
answers, or the answer no where there is none. -/
inductive Follows (w : Workspace) (auto : Bool) (answers : List Choice) (before : List Decision)
    (i : Issue) (p : Path) : Verdict → Prop
  | missing : (∀ bytes, w.content p ≠ .ok bytes) → Follows w auto answers before i p .missing
  | repeated {bytes : Bytes} : w.content p = .ok bytes →
      Accepts before ⟨p, i.sourceLine?.getD 0⟩ → Follows w auto answers before i p .repeated
  | granted {bytes : Bytes} : w.content p = .ok bytes →
      ¬Accepts before ⟨p, i.sourceLine?.getD 0⟩ → AcceptsAll auto before →
      Follows w auto answers before i p .granted
  | answered {bytes : Bytes} : w.content p = .ok bytes →
      ¬Accepts before ⟨p, i.sourceLine?.getD 0⟩ → ¬AcceptsAll auto before →
      Follows w auto answers before i p
        (.answered (answers[before.countP Decision.isAnswer]?.getD .no))

/-- The decision is about the file of its issue, and it follows on those before. -/
structure Decision.IsRight (w : Workspace) (auto : Bool) (answers : List Choice)
    (before : List Decision) (d : Decision) : Prop where
  file : fileOf w.cwd d.issue = .ok d.path
  follows : Follows w auto answers before d.issue d.path d.verdict

/-- What a decision makes of a review. -/
structure Advances (r : Review) (d : Decision) (r' : Review) : Prop where
  accepted : r'.accepted = r.accepted ++ if d.accepts then [d.target] else []
  skipped : r'.skipped = r.skipped + if d.accepts then 0 else 1
  acceptAll : r'.acceptAll = true ↔ r.acceptAll = true ∨ d.verdict = .answered .all
  answers : r'.answers = r.answers.drop (if d.isAnswer then 1 else 0)
  asked : r'.asked = r.asked ++ if d.isAnswer then [d.query] else []

/-- A review that has come to some decisions, and what it holds after them. -/
structure Traces (w : Workspace) (auto : Bool) (answers : List Choice) (log : List Decision)
    (r : Review) : Prop where
  isRight : ∀ before d after, log = before ++ d :: after → d.IsRight w auto answers before
  accepted : r.accepted = (log.filter Decision.accepts).map Decision.target
  skipped : r.skipped = log.countP fun d => !d.accepts
  acceptAll : r.acceptAll = true ↔ AcceptsAll auto log
  answers : r.answers = answers.drop (log.countP Decision.isAnswer)
  asked : r.asked = (log.filter Decision.isAnswer).map Decision.query

section Review

variable {w : Workspace} {auto : Bool} {answers : List Choice} {log : List Decision} {d : Decision}
  {r r' : Review} {i : Issue} {t : Target}

theorem Traces.mem_accepted (h : Traces w auto answers log r) : t ∈ r.accepted ↔ Accepts log t := by
  rw [h.accepted, List.mem_map]
  constructor
  · rintro ⟨d, hd, rfl⟩
    obtain ⟨hmem, haccepts⟩ := List.mem_filter.mp hd
    exact ⟨d, hmem, haccepts, rfl⟩
  · rintro ⟨d, hmem, haccepts, rfl⟩
    exact ⟨d, List.mem_filter.mpr ⟨hmem, haccepts⟩, rfl⟩

theorem Traces.start (w : Workspace) (auto : Bool) (answers : List Choice) :
    Traces w auto answers [] (Review.start auto answers) where
  isRight := by simp
  accepted := rfl
  skipped := rfl
  acceptAll := by simp [Review.start, AcceptsAll]
  answers := rfl
  asked := rfl

/-! ## One decision -/

private theorem advances_skip {verdict : Verdict} {p : Path} {e : Event}
    (hskips : verdict.accepts = false) (hquiet : verdict.isAnswer = false) :
    Advances r ⟨i, p, verdict⟩ ((r.note e).skip) where
  accepted := by simp [Review.skip, Review.note, Decision.accepts, hskips]
  skipped := by simp [Review.skip, Review.note, Decision.accepts, hskips]
  acceptAll := by
    have hall : verdict ≠ .answered .all := by
      rintro rfl
      cases hquiet
    simp [Review.skip, Review.note, hall]
  answers := by simp [Review.skip, Review.note, Decision.isAnswer, hquiet]
  asked := by simp [Review.skip, Review.note, Decision.isAnswer, hquiet]

private theorem advances_accept (ht : d.target = t) (hd : d.verdict = .granted) :
    Advances r d (r.accept t) where
  accepted := by simp [Review.accept, Decision.accepts, hd, Verdict.accepts, ht]
  skipped := by simp [Review.accept, Decision.accepts, hd, Verdict.accepts]
  acceptAll := by simp [Review.accept, hd]
  answers := by simp [Review.accept, Decision.isAnswer, hd, Verdict.isAnswer]
  asked := by simp [Review.accept, Decision.isAnswer, hd, Verdict.isAnswer]

private theorem advances_question (ht : d.target = t)
    (hd : d.verdict = .answered (r.answers.head?.getD .no)) : Advances r d (r.question d.issue t) := by
  have hquery : d.query = (d.issue, t.path) := by
    rw [← ht]
    rfl
  rw [Review.question]
  cases hanswer : r.answers.head?.getD .no <;> rw [hanswer] at hd
  · constructor <;> simp [Review.accept, Decision.accepts, Decision.isAnswer, hd, Verdict.accepts,
      Verdict.isAnswer, ht, hquery]
  · constructor <;> simp [Review.skip, Decision.accepts, Decision.isAnswer, hd, Verdict.accepts,
      Verdict.isAnswer, hquery]
  · constructor <;> simp [Review.accept, Decision.accepts, Decision.isAnswer, hd, Verdict.accepts,
      Verdict.isAnswer, ht, hquery]

/-- The step of a review is a decision that follows on those before. -/
theorem exists_decision (h : Traces w auto answers log r) (hstep : Review.Step w r i r') :
    ∃ d, d.issue = i ∧ d.IsRight w auto answers log ∧ Advances r d r' := by
  cases hstep with
  | @missing path hfile hmissing =>
      exact ⟨⟨i, path, .missing⟩, rfl, ⟨hfile, .missing hmissing⟩, advances_skip rfl rfl⟩
  | @repeated t bytes ht hcontent hmem =>
      have haccepts : Accepts log ⟨t.path, i.sourceLine?.getD 0⟩ := by
        rw [ht.eq]
        exact h.mem_accepted.mp hmem
      exact ⟨⟨i, t.path, .repeated⟩, rfl, ⟨ht.file, .repeated hcontent haccepts⟩, advances_skip rfl rfl⟩
  | @accepted t bytes ht hcontent hnew hall =>
      have hnot : ¬Accepts log ⟨t.path, i.sourceLine?.getD 0⟩ := by
        rw [ht.eq]
        exact fun haccepts => hnew (h.mem_accepted.mpr haccepts)
      exact ⟨⟨i, t.path, .granted⟩, rfl, ⟨ht.file, .granted hcontent hnot (h.acceptAll.mp hall)⟩,
        advances_accept ht.eq rfl⟩
  | @asked t bytes ht hcontent hnew hasks =>
      have hnot : ¬Accepts log ⟨t.path, i.sourceLine?.getD 0⟩ := by
        rw [ht.eq]
        exact fun haccepts => hnew (h.mem_accepted.mpr haccepts)
      have hsome : ¬AcceptsAll auto log := by
        rw [← h.acceptAll, hasks]
        exact Bool.false_ne_true
      refine ⟨⟨i, t.path, _⟩, rfl, ⟨ht.file, .answered hcontent hnot hsome⟩, ?_⟩
      refine advances_question ht.eq ?_
      rw [h.answers, List.head?_drop]

/-- With a decision that follows on those before the review has come to one decision more. -/
theorem Traces.concat (h : Traces w auto answers log r) (hd : d.IsRight w auto answers log)
    (hadvances : Advances r d r') : Traces w auto answers (log ++ [d]) r' where
  isRight := by
    intro before d' after hsplit
    rcases List.eq_nil_or_concat after with rfl | ⟨rest, last, rfl⟩
    · obtain ⟨rfl, hlast⟩ := List.append_inj' hsplit rfl
      obtain rfl : d = d' := List.singleton_inj.mp hlast
      exact hd
    · rw [List.concat_eq_append, ← List.cons_append, ← List.append_assoc] at hsplit
      exact h.isRight before d' rest (List.append_inj' hsplit rfl).1
  accepted := by
    rw [hadvances.accepted, h.accepted, List.filter_append, List.map_append]
    cases hone : d.accepts <;> simp [hone]
  skipped := by
    rw [hadvances.skipped, h.skipped, List.countP_append]
    cases hone : d.accepts <;> simp [hone]
  acceptAll := by
    rw [hadvances.acceptAll, h.acceptAll]
    simp [AcceptsAll, or_and_right, exists_or, or_assoc]
  answers := by
    rw [hadvances.answers, h.answers, List.drop_drop, List.countP_append]
    cases hone : d.isAnswer <;> simp [hone]
  asked := by
    rw [hadvances.asked, h.asked, List.filter_append, List.map_append]
    cases hone : d.isAnswer <;> simp [hone]

/-! ## All decisions -/

/-- A review that comes to its end has come to one decision about each issue, in their order. -/
theorem Traces.run (h : Traces w auto answers log r) {is : List Issue}
    (hrun : r.run w is = (r', none)) :
    ∃ rest, rest.map Decision.issue = is ∧ Traces w auto answers (log ++ rest) r' := by
  induction is generalizing log r with
  | nil =>
      obtain ⟨rfl, -⟩ := Prod.mk.inj hrun
      exact ⟨[], rfl, by rwa [List.append_nil]⟩
  | cons i is ih =>
      rw [Review.run] at hrun
      split at hrun
      · rename_i r₁ hstep
        obtain ⟨d, hissue, hd, hadvances⟩ := exists_decision h (Review.step_of_eq_ok hstep)
        obtain ⟨rest, hrest, htraces⟩ := ih (h.concat hd hadvances) hrun
        refine ⟨d :: rest, by rw [List.map_cons, hissue, hrest], ?_⟩
        rwa [List.append_assoc, List.singleton_append] at htraces
      · cases hrun

end Review

/-! ## The removals -/

/-- A course of removals, each with its answer. Where the answer tells of a change the file of the target
has lost its line; else no file outside the backups is touched. -/
inductive Course (b : Backups) : Workspace → List (Target × Patch) → Workspace → Prop
  | nil (v : Workspace) : Course b v [] v
  | deletes {t : Target} {patch : Patch} {es : List (Target × Patch)} {bytes : Bytes}
      {v v₁ u : Workspace} : Deletes b t bytes v v₁ → patch.isChange = true → patch.path = t.path →
      Course b v₁ es u → Course b v ((t, patch) :: es) u
  | spares {t : Target} {patch : Patch} {es : List (Target × Patch)} {v v₁ u : Workspace} :
      Frame (b.Covers v.cwd) v v₁ → patch.isChange = false → patch.path = t.path →
      Course b v₁ es u → Course b v ((t, patch) :: es) u

section Removals

variable {b : Backups} {t : Target} {ts : List Target} {es : List (Target × Patch)}
  {patch : Patch} {patches : List Patch} {v u : Workspace} {p : Path} {bytes : Bytes}

/-- A removal answers for the file of its target. -/
theorem path_of_remove (ht : t.path.IsReal) (hrun : (remove b t).runOn v = (.ok patch, u)) :
    patch.path = t.path := by
  obtain ⟨bytes, hcontent⟩ := Patch.exists_content_of_ok hrun
  have hstep := remove_step (b := b) ht hcontent
  rw [hrun] at hstep
  cases hstep with
  | refused _ => rfl
  | unchanged _ => rfl
  | applied _ _ _ => rfl
  | failed _ _ _ _ => rfl

theorem exists_course (hts : ∀ t ∈ ts, t.path.IsReal)
    (hrun : (ts.mapM (remove b)).runOn v = (.ok patches, u)) :
    ∃ es : List (Target × Patch), es.map Prod.fst = ts ∧ es.map Prod.snd = patches ∧
      Course b v es u := by
  induction ts generalizing v patches with
  | nil =>
      obtain ⟨hpatches, rfl⟩ := Prod.mk.inj hrun
      obtain rfl := Except.ok.inj hpatches
      exact ⟨[], rfl, rfl, .nil v⟩
  | cons t ts ih =>
      obtain ⟨ht, hrest⟩ := List.forall_mem_cons.mp hts
      obtain ⟨patch, v₁, others, hone, hmany, rfl⟩ := runOn_mapM_cons_eq_ok hrun
      obtain ⟨es, hfst, hsnd, hcourse⟩ := ih hrest hmany
      have hpath := path_of_remove ht hone
      refine ⟨(t, patch) :: es, by rw [List.map_cons, hfst], by rw [List.map_cons, hsnd], ?_⟩
      have hcases := remove_cases (b := b) ht v
      rw [hone] at hcases
      rcases hcases with ⟨hframe, hleft⟩ | ⟨patch', bytes, hpatch, hchange, hdeletes⟩
      · exact .spares hframe (hleft patch rfl) hpath hcourse
      · obtain rfl := Except.ok.inj hpatch
        exact .deletes hdeletes hchange hpath hcourse

theorem Course.path (h : Course b v es u) : ∀ e ∈ es, e.2.path = e.1.path := by
  induction h with
  | nil => simp
  | deletes _ _ hpath _ ih => exact List.forall_mem_cons.mpr ⟨hpath, ih⟩
  | spares _ _ hpath _ ih => exact List.forall_mem_cons.mpr ⟨hpath, ih⟩

/-- A file outside the backups keeps its text in removals that change other files only. -/
theorem Course.content (h : Course b v es u) (hreal : ∀ e ∈ es, e.1.path.IsReal) (hp : p.IsReal)
    (hcovers : ¬b.Covers v.cwd (p.resolve v.cwd))
    (hothers : ∀ e ∈ es, e.2.isChange = true → e.1.path ≠ p) (hcontent : v.content p = .ok bytes) :
    u.content p = .ok bytes := by
  induction h with
  | nil => exact hcontent
  | deletes hdeletes hchange _ _ ih =>
      obtain ⟨ht, hreals⟩ := List.forall_mem_cons.mp hreal
      obtain ⟨hother, hrest⟩ := List.forall_mem_cons.mp hothers
      refine ih hreals ?_ hrest (hdeletes.frame.content hcontent ?_)
      · rwa [hdeletes.frame.cwd]
      · rintro (hplace | hcovered)
        · exact hother hchange (hp.eq_of_resolve ht hplace).symm
        · exact hcovers hcovered
  | spares hframe _ _ _ ih =>
      obtain ⟨-, hreals⟩ := List.forall_mem_cons.mp hreal
      obtain ⟨-, hrest⟩ := List.forall_mem_cons.mp hothers
      refine ih hreals ?_ hrest (hframe.content hcontent hcovers)
      rwa [hframe.cwd]

end Removals

/-! ## The run -/

/-- What a run comes to, told by the decisions of its review and by its removals with their answers. -/
structure Account (b : Backups) (approver : Approver) (w : Workspace) (issues : List Issue) (y : Synced)
    (u : Workspace) (log : List Decision) (es : List (Target × Patch)) : Prop where
  /-- There is one decision about each issue that is done, in the order of the document. -/
  inOrder : log.map Decision.issue = completed issues
  isRight : ∀ before d after, log = before ++ d :: after →
    d.IsRight w approver.isAuto (approver.answers w.input) before
  /-- The questions are those of the decisions that were answered. -/
  asked : y.asked = (log.filter Decision.isAnswer).map Decision.query
  counts : y.completed = (completed issues).length ∧ y.completed = y.removed + y.skipped
  /-- The lines that are to be removed are the accepted ones, each once. -/
  targets : (es.map Prod.fst).Nodup ∧
    (es.map Prod.fst).Perm ((log.filter Decision.accepts).map Decision.target)
  patches : y.patches = es.map Prod.snd ∧ y.patches.length = log.countP Decision.accepts
  course : ∃ v v', OnlyReports w v ∧ Course b v es v' ∧ OnlyReports v' u
  /-- The files that are counted are those that lost a line; the others are left alone. -/
  modified : ∃ files : List Path, files.Nodup ∧ y.modified = files.length ∧
    (∀ p, p ∈ files ↔ ∃ e ∈ es, e.1.path = p ∧ e.2.isChange = true) ∧
    ∀ p bytes, p.IsReal → ¬b.Covers w.cwd (p.resolve w.cwd) → w.content p = .ok bytes → p ∉ files →
      u.content p = .ok bytes
  /-- A line is removed only behind the answer yes or all. -/
  removed : ∀ e ∈ es, e.2.isChange = true → ∃ before d after, log = before ++ d :: after ∧
    d.target = e.1 ∧ (d.verdict = .answered .yes ∨ d.verdict = .answered .all ∨
      approver.isAuto = true ∨ ∃ d' ∈ before, d'.verdict = .answered .all)

section Run

variable {settings : Settings} {document : Path} {approver : Approver} {w u : Workspace} {y : Synced}

/-- A run that returns had backups to make and a document to read. -/
private theorem document_of_run (hrun : (run settings document approver).runOn w = (.ok y, u)) :
    ∃ b bytes issues, settings.backups w.cwd = .ok b ∧ w.content document = .ok bytes ∧
      readDocument (decode bytes) = .ok issues := by
  rw [run] at hrun
  obtain ⟨b, w₁, hbackups, hcourse⟩ := runOn_bind_eq_ok_iff.mp hrun
  rw [runOn_ask] at hbackups
  obtain ⟨hb, rfl⟩ := Prod.mk.inj hbackups
  obtain ⟨there, w₂, hthere, hchecked⟩ := runOn_bind_eq_ok_iff.mp hcourse
  rw [runOn_isFile] at hthere
  obtain ⟨-, rfl⟩ := Prod.mk.inj hthere
  cases there with
  | false => cases hchecked
  | true =>
      simp only [Bool.not_true, Bool.false_eq_true, if_false] at hchecked
      rw [runOn_bind_of_ok (runOn_report _)] at hchecked
      obtain ⟨issues, w₃, hload, -⟩ := runOn_bind_eq_ok_iff.mp hchecked
      obtain ⟨bytes, hcontent, hread, -⟩ := Document.load_eq_ok hload
      exact ⟨b, bytes, issues, hb, hcontent, hread⟩

/-- The accepted lines are removed one after the other, and the result tells their answers. -/
private theorem removals_of_run {b : Backups} {bytes : Bytes} {issues : List Issue}
    (hb : settings.backups w.cwd = .ok b) (hdocument : w.content document = .ok bytes)
    (hissues : readDocument (decode bytes) = .ok issues)
    (hrun : (run settings document approver).runOn w = (.ok y, u)) :
    ∃ r patches v v', review approver w issues = (r, none) ∧ OnlyReports w v ∧
      ((removals r.accepted).mapM (remove b)).runOn v = (.ok patches, v') ∧ OnlyReports v' u ∧
      y = ⟨issues.length, (completed issues).length, r.skipped, r.asked, patches⟩ := by
  obtain ⟨v, hv, hcourse⟩ :=
    @runOn_run settings document approver w b bytes issues hb hdocument hissues
  rw [hcourse] at hrun
  rcases hreview : review approver w issues with ⟨r, _ | fault⟩
  · rw [hreview] at hrun
    obtain ⟨patches, v', hpatches, hend⟩ := runOn_bind_eq_ok_iff.mp hrun
    obtain ⟨hy, rfl⟩ := Prod.mk.inj hend
    exact ⟨r, patches, v, v', rfl, hv, hpatches, .report id v', (Except.ok.inj hy).symm⟩
  · rw [hreview] at hrun
    cases hrun

private theorem countP_add_countP_not {α : Type} (p : α → Bool) (as : List α) :
    as.countP p + as.countP (fun a => !p a) = as.length := by
  simpa using (List.length_eq_countP_add_countP p (l := as)).symm

/-- Every line that is tried is removed or counted as skipped. -/
theorem removed_add_skipped (y : Synced) :
    y.removed + y.skipped = y.patches.length + y.skippedInReview := by
  have hsplit := countP_add_countP_not Patch.isChange y.patches
  rw [List.countP_eq_length_filter, List.countP_eq_length_filter] at hsplit
  rw [Synced.removed, Synced.skipped]
  omega

/-- An accepted line was asked for by an issue that was answered with yes or all, or about which no
question was asked. -/
theorem Traces.exists_of_accepts {auto : Bool} {answers : List Choice} {log : List Decision}
    {r : Review} {t : Target} (h : Traces w auto answers log r) (ht : Accepts log t) :
    ∃ before d after, log = before ++ d :: after ∧ d.target = t ∧
      (d.verdict = .answered .yes ∨ d.verdict = .answered .all ∨ AcceptsAll auto before) := by
  obtain ⟨d, hd, haccepts, rfl⟩ := ht
  obtain ⟨before, after, hsplit⟩ := List.append_of_mem hd
  refine ⟨before, d, after, hsplit, rfl, ?_⟩
  have hfollows := (h.isRight before d after hsplit).follows
  cases hverdict : d.verdict with
  | missing => simp [Decision.accepts, hverdict, Verdict.accepts] at haccepts
  | repeated => simp [Decision.accepts, hverdict, Verdict.accepts] at haccepts
  | granted =>
      rw [hverdict] at hfollows
      cases hfollows with
      | granted _ _ hall => exact Or.inr (Or.inr hall)
  | answered choice =>
      cases choice with
      | yes => exact Or.inl rfl
      | no => simp [Decision.accepts, hverdict, Verdict.accepts] at haccepts
      | all => exact Or.inr (Or.inl rfl)

/-- A run that returns accounts for every issue that is done and keeps to the answers. -/
theorem run_accounts (hcwd : ∀ s ∈ w.cwd, Path.IsName s)
    (hrun : (run settings document approver).runOn w = (.ok y, u)) :
    ∃ b bytes issues log es, settings.backups w.cwd = .ok b ∧ w.content document = .ok bytes ∧
      readDocument (decode bytes) = .ok issues ∧ Account b approver w issues y u log es := by
  obtain ⟨b, bytes, issues, hb, hdocument, hissues⟩ := document_of_run hrun
  obtain ⟨r, patches, v, v', hreview, hv, hpatches, hu, rfl⟩ :=
    removals_of_run hb hdocument hissues hrun
  have hsound := sound_review approver w issues
  have hreal : ∀ t ∈ r.accepted, t.path.IsReal := by
    intro t ht
    have hmem : t ∈ (review approver w issues).1.accepted := by rwa [hreview]
    exact (isReal_of_mem_accepted hcwd hmem).1
  rw [hreview] at hsound
  obtain ⟨log, hissue, htraces⟩ :=
    (Traces.start w approver.isAuto (approver.answers w.input)).run hreview
  rw [List.nil_append] at htraces
  obtain ⟨es, hfst, hsnd, hcourse⟩ :=
    exists_course (fun t ht => hreal t (mem_removals_iff.mp ht)) hpatches
  have hperm : (es.map Prod.fst).Perm r.accepted := hfst ▸ perm_removals hsound.nodup
  have haccepted : ∀ e ∈ es, e.1 ∈ r.accepted := fun e he =>
    hperm.mem_iff.mp (List.mem_map_of_mem he)
  have hlength : patches.length = log.countP Decision.accepts := by
    have hsame : patches.length = (es.map Prod.fst).length := by
      rw [← hsnd, List.length_map, List.length_map]
    rw [hsame, hperm.length_eq, htraces.accepted, List.length_map, List.countP_eq_length_filter]
  refine ⟨b, bytes, issues, log, es, hb, hdocument, hissues, hissue, htraces.isRight, htraces.asked,
    ⟨rfl, ?_⟩, ⟨hperm.nodup_iff.mpr hsound.nodup, htraces.accepted ▸ hperm⟩, ⟨hsnd.symm, hlength⟩,
    ⟨v, v', hv, hcourse, hu⟩, ?_, fun e he _ => ?_⟩
  · -- Every issue is accepted or skipped, and every accepted line is removed or not.
    calc (completed issues).length
        = log.length := by rw [← hissue, List.length_map]
      _ = log.countP Decision.accepts + log.countP (fun d => !d.accepts) :=
          (countP_add_countP_not _ _).symm
      _ = patches.length + r.skipped := by rw [hlength, htraces.skipped]
      _ = _ := by rw [removed_add_skipped]
  · have hfiles : ∀ p, p ∈ distinct ((patches.filter Patch.isChange).map Patch.path) ↔
        ∃ e ∈ es, e.1.path = p ∧ e.2.isChange = true := by
      intro p
      rw [mem_distinct, ← hsnd]
      simp only [List.mem_map, List.mem_filter]
      constructor
      · rintro ⟨_, ⟨⟨e, he, rfl⟩, hchange⟩, rfl⟩
        exact ⟨e, he, (hcourse.path e he).symm, hchange⟩
      · rintro ⟨e, he, rfl, hchange⟩
        exact ⟨e.2, ⟨⟨e, he, rfl⟩, hchange⟩, hcourse.path e he⟩
    refine ⟨_, nodup_distinct _, rfl, hfiles, fun p start hp hcovers hcontent hnot => ?_⟩
    rw [hu.content]
    refine hcourse.content (fun e he => hreal _ (haccepted e he)) hp (by rwa [hv.cwd]) ?_ ?_
    · rintro e he hchange rfl
      exact hnot ((hfiles _).mpr ⟨e, he, rfl, hchange⟩)
    · rw [hv.content]
      exact hcontent
  · exact htraces.exists_of_accepts (htraces.mem_accepted.mp (haccepted e he))

end Run

/-- Seven issues are done. One is about a file that is not there, one repeats the line of another, and one
asks for a line beyond the last. -/
def mixedAnswers : Workspace :=
  ofFiles ["w"] [("a.py", "# TODO: b\nx = 1\n# TODO: c\n# TODO: d\n"), ("b.py", "# TODO: e\n"),
    ("orgi.org", doneEntry "0" "gone.py" "1" ++ doneEntry "1" "a.py" "3" ++ doneEntry "2" "a.py" "1" ++
      doneEntry "3" "./a.py" "1" ++ doneEntry "4" "a.py" "4" ++ doneEntry "5" "b.py" "1" ++
        doneEntry "6" "a.py" "9")]

theorem run_accounts_mixedAnswers : ∃ y u, (∀ s ∈ mixedAnswers.cwd, Path.IsName s) ∧
    (run .default ⟨.relative, ["orgi.org"]⟩ (.scripted [.no, .yes, .all])).runOn mixedAnswers =
      (.ok y, u) ∧
    (y.completed = 7 ∧ y.removed = 3 ∧ y.skipped = 4 ∧ y.modified = 2 ∧ y.asked.length = 3) ∧
    ∃ b bytes issues log es, Settings.default.backups mixedAnswers.cwd = .ok b ∧
      mixedAnswers.content ⟨.relative, ["orgi.org"]⟩ = .ok bytes ∧
      readDocument (decode bytes) = .ok issues ∧
      Account b (.scripted [.no, .yes, .all]) mixedAnswers issues y u log es := by
  have hcwd : ∀ s ∈ mixedAnswers.cwd, Path.IsName s := by
    intro s hs
    obtain rfl : s = "w" := List.mem_singleton.mp hs
    exact ⟨⟨by decide, by decide, by decide⟩, by decide⟩
  obtain ⟨y, hy, hnumbers⟩ : ∃ y, ((run .default ⟨.relative, ["orgi.org"]⟩
      (.scripted [.no, .yes, .all])).runOn mixedAnswers).1 = .ok y ∧
        (y.completed = 7 ∧ y.removed = 3 ∧ y.skipped = 4 ∧ y.modified = 2 ∧ y.asked.length = 3) := by
    decide +kernel
  rcases hrun : (run .default ⟨.relative, ["orgi.org"]⟩ (.scripted [.no, .yes, .all])).runOn mixedAnswers
    with ⟨s, u⟩
  rw [hrun] at hy
  obtain rfl : s = .ok y := hy
  exact ⟨y, u, hcwd, rfl, hnumbers, run_accounts hcwd hrun⟩

end Sync

end TodoLedger
