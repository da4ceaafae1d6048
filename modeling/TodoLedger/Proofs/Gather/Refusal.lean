import TodoLedger.Proofs.Document.Refusal
import TodoLedger.Proofs.Gather.Course
/-!
# Gathering beside a document that is refused

A document that is refused at a line is taken to hold nothing. So what a document holds can end a gather
run in one way only: by a position with too many digits, for which no line is told. Such a document does
end the run.
-/

namespace TodoLedger

open Work Workspace Utf8 Document

/-- The fault is not one of reading a document. -/
def Fault.IsElsewhere (f : Fault) : Prop := ∀ fault, f ≠ .read fault

theorem Fault.IsOfFiles.isElsewhere {f : Fault} (h : f.IsOfFiles) : f.IsElsewhere := by
  rintro fault rfl
  cases h

/-- A line of the document at a path sets a position to a number with too many digits. -/
def Document.IsOverlong (path : Path) (w : Workspace) (n : Nat) : Prop :=
  ∃ bytes, w.content path = .ok bytes ∧ SetsOverlong (Text.bodies (Text.dropBom (decode bytes))) n

namespace Gather

variable {settings : Settings} {b : Backups} {directory document : Path} {tasks : List Task}
  {task : Task} {issue : Issue} {given : Option (List Task)} {w v : Workspace}

/-! ## What is not the document's -/

private theorem admits (p : Path) : Fault.Admits Fault.IsElsewhere p :=
  .of_isOfFiles (fun _ h => h.isElsewhere) p

private theorem failsIn_issueFor {now : DateTime} :
    FailsIn Fault.IsElsewhere (issueFor settings now task) w := by
  rw [issueFor]
  refine failsIn_bind (failsIn_of_ok runOn_nextToken) fun token w₁ _ => ?_
  refine failsIn_bind (failsIn_of_ok runOn_cwd) fun cwd w₂ _ => ?_
  split
  · exact failsIn_pure _
  · exact failsIn_throw (by simp [Fault.IsElsewhere])

private theorem failsIn_mark_elsewhere (w : Workspace) :
    FailsIn Fault.IsElsewhere (mark b task issue) w := by
  have happly := Patch.failsIn_apply_of (b := b) (p := task.path) (e := .insertMarker task issue.id)
    (fun _ h => h.isElsewhere) (fun _ => by simp [Fault.IsElsewhere]) w
  refine failsIn_handled happly fun f w₁ _ hf => ?_
  split
  · exact failsIn_bind (failsIn_of_ok (runOn_report _)) fun _ _ _ => failsIn_pure _
  · rename_i hnot
    rcases hf with hf | rfl
    · exact failsIn_throw hf
    · exact absurd rfl (hnot _)

private theorem failsIn_collect_elsewhere :
    FailsIn Fault.IsElsewhere (collect settings b document tasks) w := by
  rw [collect]
  refine failsIn_bind (failsIn_of_ok runOn_now) fun now w₁ _ => ?_
  refine failsIn_bind (failsIn_mapM (fun _ _ _ => failsIn_issueFor) w₁) fun pairs w₂ _ => ?_
  refine failsIn_bind (fun f u h => ?_) fun _ w₃ _ => ?_
  · exact (failsIn_append document _ w₂ f u h).isElsewhere
  · exact failsIn_bind (failsIn_mapM (fun _ _ w => failsIn_mark_elsewhere w) w₃) fun _ _ _ => failsIn_pure _

private theorem failsIn_ofFiles {withMarked : Bool} (paths : List Path) :
    FailsIn Fault.IsElsewhere (Extraction.ofFiles withMarked paths) w := by
  obtain ⟨v, hrun, -⟩ := @runOn_ofFiles withMarked paths w
  exact failsIn_of_ok hrun

private theorem failsIn_discover {s : Selection} :
    FailsIn Fault.IsElsewhere (discover directory s) w := by
  rw [discover]
  refine failsIn_bind (failsIn_isDirectory (admits _)) fun there w₁ _ => ?_
  cases there with
  | false =>
      exact failsIn_bind (failsIn_throw (by simp [Fault.IsElsewhere])) fun _ _ h => by cases h
  | true =>
      simp only [Bool.not_true, Bool.false_eq_true, if_false]
      refine failsIn_bind (failsIn_of_ok runOn_get) fun v w₂ _ => ?_
      refine failsIn_bind (failsIn_locate (admits _)) fun place w₃ _ => ?_
      obtain ⟨u, hreported, -⟩ := runOn_forM_report Event.fileExcluded
        ((candidates s (v.tree.children place)).filter s.excludes) w₃
      refine failsIn_bind (failsIn_of_ok hreported) fun _ w₄ _ => ?_
      exact failsIn_bind (failsIn_of_ok (runOn_report _)) fun _ _ _ => failsIn_pure _

private theorem failsIn_scan {withMarked : Bool} :
    FailsIn Fault.IsElsewhere (scan settings withMarked directory given) w := by
  rw [scan]
  refine failsIn_bind failsIn_discover fun files w₁ _ => ?_
  cases given with
  | some ts => exact failsIn_pure _
  | none => exact failsIn_bind (failsIn_ofFiles files) fun _ _ _ => failsIn_pure _

/-! ## What is the document's -/

/-- Either the fault is not one of reading a document, or the document has a position with too many
digits. -/
def BlamesOverlong (document : Path) (w : Workspace) (f : Fault) : Prop :=
  ∀ fault, f = .read fault → ∃ n, fault = .tooManyDigits n ∧ IsOverlong document w n

private theorem blames_of_isElsewhere {f : Fault} (h : f.IsElsewhere) : BlamesOverlong document w f :=
  fun fault hfault => absurd hfault (h fault)

theorem failsIn_existingIssues (document : Path) (w : Workspace) :
    FailsIn (BlamesOverlong document w) (existingIssues document) w := by
  rw [existingIssues]
  refine failsIn_bind (fun f u h => ?_) fun there w₁ hthere => ?_
  · exact blames_of_isElsewhere (failsIn_isFile (admits document) f u h)
  rw [runOn_isFile] at hthere
  obtain ⟨-, rfl⟩ := Prod.mk.inj hthere
  cases there with
  | false => exact failsIn_bind (failsIn_of_ok (runOn_report _)) fun _ _ _ => failsIn_pure _
  | true =>
      simp only [Bool.not_true, Bool.false_eq_true, if_false]
      refine failsIn_handled (failsIn_load document w) fun f w₁ _ hf => ?_
      split
      · exact failsIn_bind (failsIn_of_ok (runOn_report _)) fun _ _ _ => failsIn_pure _
      · rename_i hnot
        refine failsIn_throw ?_
        rcases hf with hfiles | rfl | ⟨bytes, fault, hcontent, hread, rfl⟩
        · exact blames_of_isElsewhere hfiles.isElsewhere
        · rintro fault ⟨⟩
        · rintro _ ⟨rfl⟩
          cases refused_of_readDocument hread with
          | atLine _ _ => exact absurd rfl (hnot _ _)
          | overlong hlong => exact ⟨_, rfl, bytes, hcontent, hlong⟩

/-- What ends a run is not the document, or it is a position with too many digits. -/
theorem failsIn_run (settings : Settings) (directory document : Path) (dryRun : Bool)
    (given : Option (List Task)) (w : Workspace) :
    FailsIn (BlamesOverlong document w) (run settings directory document dryRun given) w := by
  rw [run]
  refine failsIn_bind (failsIn_ask fun f h => ?_) fun b w₁ hbackups => ?_
  · rw [Settings.backups, Backups.make?] at h
    split_ifs at h
    cases h
    rintro fault ⟨⟩
  rw [runOn_ask] at hbackups
  obtain ⟨-, rfl⟩ := Prod.mk.inj hbackups
  refine failsIn_bind (fun f u h => ?_) fun there w₂ hthere => ?_
  · exact blames_of_isElsewhere (failsIn_isDirectory (admits directory) f u h)
  cases there with
  | false =>
      refine failsIn_bind (failsIn_throw ?_) fun _ _ h => by cases h
      rintro fault ⟨⟩
  | true =>
      obtain ⟨rfl, place, hplace, hdirectory⟩ := exists_locate_of_isDirectory hthere
      simp only [Bool.not_true, Bool.false_eq_true, if_false]
      refine failsIn_bind (failsIn_of_ok (runOn_report _)) fun _ w₃ hreport => ?_
      rw [runOn_report] at hreport
      obtain ⟨-, rfl⟩ := Prod.mk.inj hreport
      refine failsIn_bind (fun f u h => blames_of_isElsewhere (failsIn_scan f u h)) fun found w₄ hscan => ?_
      have hcontent : w₄.content document = w₂.content document := by
        obtain ⟨n, tasks⟩ := found
        obtain ⟨-, hquiet⟩ := scan_eq_ok (by exact hplace) (by exact hdirectory) hscan
        exact hquiet.content document
      refine failsIn_bind (fun f u h fault hfault => ?_) fun existing w₅ _ => ?_
      · obtain ⟨n, rfl, bytes, hbytes, hsets⟩ := failsIn_existingIssues document w₄ f u h fault hfault
        exact ⟨n, rfl, bytes, hcontent ▸ hbytes, hsets⟩
      refine failsIn_bind (failsIn_of_ok runOn_cwd) fun cwd w₆ _ => ?_
      have hconclude : ∀ (result : Gathered) (v : Workspace),
          FailsIn (BlamesOverlong document w₂) (conclude result) v := fun result v =>
        failsIn_bind (failsIn_of_ok (runOn_report _)) fun _ _ _ => failsIn_pure _
      split_ifs
      · exact hconclude _ _
      · refine failsIn_bind (fun f u h => ?_) fun made w₇ _ => hconclude _ _
        exact blames_of_isElsewhere (failsIn_collect_elsewhere f u h)

/-- A run that is ready ends at a position with too many digits. -/
theorem runOn_run_of_overlong {place : Place} {bytes : Bytes} {n : Nat}
    (h : IsReady settings directory b place w) (hcontent : w.content document = .ok bytes)
    (hread : readDocument (decode bytes) = .error (.tooManyDigits n)) (dryRun : Bool) :
    ∃ v, (run settings directory document dryRun none).runOn w =
      (.error (.read (.tooManyDigits n)), v) := by
  have hbackups : (ask fun w => settings.backups w.cwd : Work Backups).runOn w = (.ok b, w) := by
    rw [runOn_ask, h.backups]
  have hthere := runOn_isDirectory_of_locate h.located h.isDirectory
  have hstarted : OnlyEvents w { w with events := w.events ++ [.gatherStarted directory dryRun] } :=
    .report _ w
  obtain ⟨u, hscan, hu⟩ := @runOn_scan
    { w with events := w.events ++ [.gatherStarted directory dryRun] } directory place settings false
    h.located h.isDirectory
  have hlater : u.content document = .ok bytes := by
    rw [hu.content, hstarted.content, hcontent]
  obtain ⟨v, -, hexisting⟩ := runOn_existingIssues_of_content hlater
  rw [hread] at hexisting
  refine ⟨u, ?_⟩
  rw [run, runOn_bind_of_ok hbackups, runOn_bind_of_ok hthere]
  simp only [Bool.not_true, Bool.false_eq_true, if_false]
  rw [runOn_bind_of_ok (runOn_report _), runOn_bind_of_ok hscan]
  exact runOn_bind_of_error hexisting

/-! ## Every text -/

/-- Every text is read, or it is refused at one of its lines or for a position with too many digits. A
document without such a position is never in the way of a gather run: what cannot be read of it counts
as nothing. A run that a document ends is ended by such a position, and a run that could start is ended
by it. -/
theorem document_ends_run_only_overlong (text : Text) (document : Path) (w : Workspace) :
    ((∃ issues, readDocument text = .ok issues) ∨ ∃ fault,
      readDocument text = .error fault ∧ Refused (Text.bodies (Text.dropBom text)) fault) ∧
    (∀ bytes, w.content document = .ok bytes → (∀ n, ¬IsOverlong document w n) →
      ∃ v issues, OnlyEvents w v ∧ (existingIssues document).runOn w = (.ok issues, v) ∧
        (readDocument (decode bytes) = .ok issues ∨ issues = [] ∧ ∃ k cause,
          readDocument (decode bytes) = .error (.document k cause) ∧
            1 ≤ k ∧ k ≤ (Text.bodies (Text.dropBom (decode bytes))).length)) ∧
    (∀ settings directory dryRun given fault v,
      (run settings directory document dryRun given).runOn w = (.error (.read fault), v) →
        ∃ n, fault = .tooManyDigits n ∧ IsOverlong document w n) ∧
    ∀ settings directory dryRun b place bytes n, IsReady settings directory b place w →
      w.content document = .ok bytes → readDocument (decode bytes) = .error (.tooManyDigits n) →
        ∃ v, (run settings directory document dryRun none).runOn w =
          (.error (.read (.tooManyDigits n)), v) := by
  refine ⟨?_, fun bytes hcontent hshort => ?_, ?_, ?_⟩
  · cases hread : readDocument text with
    | ok issues => exact Or.inl ⟨issues, rfl⟩
    | error fault => exact Or.inr ⟨fault, rfl, refused_of_readDocument hread⟩
  · obtain ⟨v, hv, hrun⟩ := runOn_existingIssues_of_content hcontent
    cases hread : readDocument (decode bytes) with
    | ok issues =>
        rw [hread] at hrun
        exact ⟨v, issues, hv, hrun, Or.inl rfl⟩
    | error fault =>
        rw [hread] at hrun
        cases refused_of_readDocument hread with
        | atLine hone hle => exact ⟨v, [], hv, hrun, Or.inr ⟨rfl, _, _, rfl, hone, hle⟩⟩
        | overlong hlong => exact absurd ⟨bytes, hcontent, hlong⟩ (hshort _)
  · intro settings directory dryRun given fault v hrun
    exact failsIn_run settings directory document dryRun given w _ v hrun fault rfl
  · intro settings directory dryRun b place bytes n hready hcontent hread
    exact runOn_run_of_overlong hready hcontent hread dryRun

/-- A directory with nothing but a document in it. -/
def withDocument (text : Text) : Workspace := .ofFiles ["w"] [("orgi.org", text)]

section WithDocument

variable {text : Text}

private theorem content_withDocument :
    (withDocument text).content ⟨.relative, ["orgi.org"]⟩ = .ok (bytesOf text) := rfl

private theorem exists_isReady_withDocument :
    ∃ b, IsReady .default ⟨.relative, []⟩ b ["w"] (withDocument text) := by
  obtain ⟨b, hb, -⟩ : ∃ b, Settings.default.backups ["w"] = .ok b ∧ b.kept = 10 := by
    decide +kernel
  exact ⟨b, hb, rfl, rfl⟩

end WithDocument

/-- A document is refused for no line, and it ends the run. -/
theorem overlong_ends_run :
    readDocument (overlongDocument 4301) = .error (.tooManyDigits 4301) ∧
      ∃ v, (run .default ⟨.relative, []⟩ ⟨.relative, ["orgi.org"]⟩ true none).runOn
        (withDocument (overlongDocument 4301)) = (.error (.read (.tooManyDigits 4301)), v) := by
  have hread := @readDocument_overlongDocument 4301 (by decide)
  obtain ⟨b, hready⟩ := @exists_isReady_withDocument (overlongDocument 4301)
  refine ⟨hread, runOn_run_of_overlong hready content_withDocument ?_ true⟩
  rw [(isStable_overlongDocument 4301).decode_bytesOf, hread]

/-- A document that is refused at a line counts as nothing, and one that ends a run has a position with
too many digits. -/
theorem document_ends_run_only_overlong_samples :
    (∃ v, (existingIssues ⟨.relative, ["orgi.org"]⟩).runOn (withDocument "* NOTE a\n") = (.ok [], v)) ∧
      ∃ v, (run .default ⟨.relative, []⟩ ⟨.relative, ["orgi.org"]⟩ false none).runOn
          (withDocument (overlongDocument 4301)) = (.error (.read (.tooManyDigits 4301)), v) ∧
        IsOverlong ⟨.relative, ["orgi.org"]⟩ (withDocument (overlongDocument 4301)) 4301 := by
  constructor
  · have hshort : ∀ line ∈ Text.bodies (Text.dropBom (decode (bytesOf "* NOTE a\n"))),
        ((setting? line).map fun e => e.2.length).getD 0 ≤ Text.maxDigits := by
      decide +kernel
    have hnever : ∀ n, ¬IsOverlong ⟨.relative, ["orgi.org"]⟩ (withDocument "* NOTE a\n") n := by
      rintro n ⟨bytes, hcontent, hlong, line, hline, key, value, hsets, -, -, hlength⟩
      obtain rfl := Except.ok.inj (content_withDocument.symm.trans hcontent)
      have hle := hshort line hline
      rw [hsets, Option.map_some, Option.getD_some] at hle
      exact Nat.not_lt.mpr hle (hlength ▸ hlong)
    obtain ⟨-, htolerates, -⟩ := document_ends_run_only_overlong "* NOTE a\n"
      ⟨.relative, ["orgi.org"]⟩ (withDocument "* NOTE a\n")
    obtain ⟨v, issues, -, hrun, hread | ⟨rfl, -⟩⟩ := htolerates _ content_withDocument hnever
    · have hrefused : ¬∃ issues, readDocument (decode (bytesOf "* NOTE a\n")) = .ok issues ∧
          issues = issues := by
        decide +kernel
      exact absurd ⟨issues, hread, rfl⟩ hrefused
    · exact ⟨v, hrun⟩
  · obtain ⟨b, hready⟩ := @exists_isReady_withDocument (overlongDocument 4301)
    obtain ⟨-, -, hblames, hends⟩ := document_ends_run_only_overlong (overlongDocument 4301)
      ⟨.relative, ["orgi.org"]⟩ (withDocument (overlongDocument 4301))
    obtain ⟨v, hrun⟩ := hends _ _ false _ _ _ 4301 hready content_withDocument (by
      rw [(isStable_overlongDocument 4301).decode_bytesOf]
      exact readDocument_overlongDocument (by decide))
    obtain ⟨n, hn, hlong⟩ := hblames _ _ _ _ _ _ hrun
    obtain rfl := ReadFault.tooManyDigits.inj hn
    exact ⟨v, hrun, hlong⟩

end Gather

end TodoLedger
