import TodoLedger.Proofs.Gather.Issue
import TodoLedger.Proofs.Gather.Token
import TodoLedger.Proofs.Path
/-!
# Gathered issues survive the document

Whatever the text of a task looks like, the issue that is made of the task is read back from what is
written of it: headline, drawer and body keep to lines of their own. The issue that is read still
points at the task.
-/

namespace TodoLedger

variable {task : Task} {cwd : List Text} {now : DateTime} {token : Text} {limit : Int}
  {i j : Issue} {s : State}

/-! ## Parts that are read back -/

theorem positive?_ofInt {number : Int}
    (h : ∃ n : Nat, number = n ∧ 1 ≤ n ∧ n < 10 ^ Text.maxDigits) :
    (positive? (Text.ofInt number)).map Int.ofNat = some number := by
  obtain ⟨n, rfl, hpos, hlt⟩ := h
  have hread : positive? (Text.ofInt (n : Int)) = some n := Text.positive?_ofNat hpos hlt
  rw [hread]
  rfl

theorem Priority.ofName?_name (p : Priority) : Priority.ofName? p.name = some p := by
  cases p <;> decide +kernel

/-- A shortened text keeps its first character and is as short as wanted. -/
theorem shorten_spec {c : Rune} {r : Text} (hlimit : 4 ≤ limit) :
    (∃ r', shorten limit (c :: r) = c :: r') ∧ ((shorten limit (c :: r)).length : Int) ≤ limit := by
  obtain ⟨n, rfl⟩ : ∃ n : Nat, limit = (n : Int) + 4 := ⟨(limit - 4).toNat, by omega⟩
  have hroom : (n : Int) + 4 - 3 = Int.ofNat (n + 1) := by
    rw [Int.ofNat_eq_natCast]
    omega
  have hdots : ("..." : Text).length = 3 := rfl
  rw [shorten]
  split_ifs with hlong
  · rw [hroom, takeInt, List.take_succ_cons, List.cons_append]
    refine ⟨⟨_, rfl⟩, ?_⟩
    have htake := List.length_take_le n r
    rw [List.length_cons, List.length_append, hdots]
    omega
  · exact ⟨⟨r, rfl⟩, by omega⟩

section Draft

variable {d : Draft} {id : Text} {moment : DateTime}

theorem Draft.priority_issueWith {p : Priority} (h : d.properties.get? "PRIORITY" = some p.name) :
    (d.issueWith id moment).priority = p := by
  rw [issueWith]
  simp only [h, Option.bind_some, Priority.ofName?_name, Option.getD_some]

theorem Draft.tags_issueWith {tags : List Text} (htags : ∀ tag ∈ tags, IsTag tag)
    (hne : tags ≠ []) (h : d.properties.get? "TAGS" = some (Text.join ":" tags)) :
    (d.issueWith id moment).tags = distinct tags := by
  rw [issueWith]
  simp only [h, Option.map_some, Option.getD_some,
    Headline.tagsOf_join (fun tag htag => (htags tag htag).isGroupTag) hne]

end Draft

/-! ## What a gathered issue is read back to -/

/-- What is read shows what an issue was made with of a task, and the task belongs to it. -/
structure Survives (cwd : List Text) (task : Task) (token : Text) (now : DateTime) (limit : Int)
    (made read : Issue) : Prop where
  id : read.id = made.id ∧ made.id = gatheredId now token
  state : read.state = made.state
  priority : read.priority = made.priority
  tags : read.tags = made.tags
  createdAt : read.createdAt = made.createdAt ∧ made.createdAt = now.startOfMinute
  title : read.title = Text.singleLine made.title ∧ read.title.length ≤ limit
  file : read.sourceFile? = made.sourceFile? ∧ made.sourceFile? = some (task.file cwd)
  line : read.sourceLine? = made.sourceLine? ∧ made.sourceLine?.map Int.ofNat = some task.line
  column : read.sourceColumn? = made.sourceColumn? ∧
    made.sourceColumn?.map Int.ofNat = some task.column
  hash : read.sourceHash? = made.sourceHash? ∧
    ∃ hash, task.contentHash = .ok hash ∧ made.sourceHash? = some hash
  known : task.issueIn? cwd [read] = some read

section OfTask

variable {Q : Text → Prop} (h : task.IsWritable Q cwd)
  (hi : Issue.ofTask cwd task token now limit = .ok i) (hQ : Text.LineClass Q)
  (htoken : ∀ c ∈ token, c.IsVisible) (hyear : 1000 ≤ now.year)

include h hi hQ htoken hyear

theorem eq_of_yields (htitle : Text.singleLine i.title ≠ [])
    (hyields : (i.entryLines s).Yields j) :
    j.id = i.id ∧ j.state = s ∧ j.priority = i.priority ∧ j.tags = i.tags ∧
      j.createdAt = i.createdAt ∧ j.title = Text.singleLine i.title := by
  obtain ⟨hstate, hproperties⟩ :=
    Issue.Yields.spec hQ (isWritable_ofTask h hi hQ htoken hyear) hyields
  obtain ⟨hash, -, hsettings⟩ := settings_ofTask h hi htoken (Headline.titleOf i)
  obtain ⟨-, hcreated, -, -, -, -, htags, hpriority⟩ := id_ofTask h hi
  rw [hsettings] at hproperties
  obtain ⟨headline, line, -, hissue⟩ := hyields
  obtain ⟨id, moment, hid, -, hmoment, -, rfl⟩ := (Draft.toIssue_eq_ok_iff _ _).mp hissue
  -- Everything but the state is taken from the properties that are read.
  have hget : ∀ key value, (key, value) ∈ gatheredSettings i task cwd now hash →
      (i.entryLines s).properties.get? key = some value := by
    intro key value hmem
    have hfound := @get?_gathered task cwd now i hash key value hmem
    rwa [← hproperties] at hfound
  have hgetId := hget "ID" i.id (by simp [gatheredSettings])
  have hgetCreated := hget "CREATED" (Timestamp.encode now true) (by simp [gatheredSettings])
  refine ⟨Option.some.inj (hid.symm.trans hgetId), hstate, ?_, ?_, ?_, ?_⟩
  · rw [hpriority]
    exact Draft.priority_issueWith (hget _ _ (by simp [gatheredSettings]))
  · rw [htags]
    exact Draft.tags_issueWith h.isTag (by simp) (hget _ _ (by simp [gatheredSettings]))
  · rw [hcreated]
    exact hmoment.eq hgetCreated (Timestamp.decode_encode hyear)
  · exact Draft.title_issueWith htitle (hget _ _ (by simp [gatheredSettings]))

/-- What is read names the file on one line and tells the rest of the place as the issue does. -/
theorem place_of_yields (hyields : (i.entryLines s).Yields j) :
    j.sourceFile? = some (Text.singleLine (task.file cwd)) ∧ j.sourceLine? = i.sourceLine? ∧
      j.sourceColumn? = i.sourceColumn? ∧ j.sourceHash? = i.sourceHash? := by
  obtain ⟨-, hproperties⟩ :=
    Issue.Yields.spec hQ (isWritable_ofTask h hi hQ htoken hyear) hyields
  obtain ⟨hash, hhash, hsettings⟩ := settings_ofTask h hi htoken (Headline.titleOf i)
  obtain ⟨-, hline, hcolumn, hash', hhash', hsource⟩ := source_ofTask h hi
  obtain rfl := Except.ok.inj (hhash.symm.trans hhash')
  rw [hsettings] at hproperties
  have hget := fun key value => @get?_gathered task cwd now i hash key value
  rw [← hproperties] at hget
  refine ⟨hget _ _ (by simp [gatheredSettings]), ?_, ?_, ?_⟩
  · rw [Issue.sourceLine?, Issue.sourceLine?, hline, hget _ (Text.ofInt task.line) (by simp [gatheredSettings])]
  · rw [Issue.sourceColumn?, Issue.sourceColumn?, hcolumn,
      hget _ (Text.ofInt task.column) (by simp [gatheredSettings])]
  · exact (hget _ _ (by simp [gatheredSettings])).trans hsource.symm

theorem source_of_yields (hplaced : task.IsPlaced cwd) (hyields : (i.entryLines s).Yields j) :
    j.sourceFile? = i.sourceFile? ∧ j.sourceLine? = i.sourceLine? ∧
      j.sourceColumn? = i.sourceColumn? ∧ j.sourceHash? = i.sourceHash? := by
  obtain ⟨hfile, hrest⟩ := place_of_yields h hi hQ htoken hyear hyields
  refine ⟨?_, hrest⟩
  rw [hfile, (source_ofTask h hi).1, hplaced.singleLine_eq]

/-- The issue that is read points at the place of the task. -/
theorem pointsAt_of_yields (hplaced : task.IsPlaced cwd) (hyields : (i.entryLines s).Yields j) :
    j.pointsAt (task.file cwd) task.line = true := by
  obtain ⟨-, hlinked, hfile, n, hn, hline⟩ := isLinked_of_yields h hi hQ htoken hyear hplaced hyields
  rw [Issue.pointsAt, hlinked, hfile, hline, hn]
  simp

end OfTask

/-! ## Tasks that were found -/

section Found

variable {file : Text} {withMarked : Bool} {t : Text}

/-- The issue of a task that was found is written and read back as one issue, which shows what the
task and the moment were. -/
theorem gathered_issue_survives (htask : task ∈ tasksOf (Path.ofText file) withMarked t)
    (hcwd : ∀ name ∈ cwd, Path.IsName name)
    (htext : ∀ c ∈ task.text, Utf8.isEncodable c = true)
    (hlength : t.length < 10 ^ Text.maxDigits)
    (hfile : Text.BreakFree (task.file cwd) ∧ Text.IsTrimmed (task.file cwd))
    (htoken : IsToken token) (hyear : 1000 ≤ now.year) (hlimit : 4 ≤ limit) :
    ∃ i j, Issue.ofTask cwd task token now limit = .ok i ∧ readDocument i.render = .ok [j] ∧
      Survives cwd task token now limit i j := by
  have hQ := Text.lineClass_breakFree
  have hvisible := htoken.isVisible
  have hfound := isFound_of_mem_tasksOf htask
  have hplaced : task.IsPlaced cwd := by
    refine ⟨hfile.1, hfile.2, ?_⟩
    rw [Task.file, hfound.path]
    exact Path.relativeTo_ne_nil hcwd fun s hs => Path.isSegment_of_mem_ofText hs
  have h : task.IsWritable Text.BreakFree cwd :=
    hfound.isWritable hlength htext (fun _ => Text.breakFree_singleLine _)
      (fun p hp => ((Text.pieces_spec _).2 p hp).2) (Text.breakFree_singleLine _)
  obtain ⟨i, hi⟩ := @exists_ofTask _ task token cwd now limit h
  obtain ⟨hid, hcreated, -, -, htitle, -⟩ := id_ofTask h hi
  obtain ⟨hsourceFile, hsourceLine, hsourceColumn, hash, hhash, hsourceHash⟩ := source_ofTask h hi
  have hwritable := isWritable_ofTask h hi hQ hvisible hyear
  -- One issue is written, so one is read.
  obtain ⟨js, hread, hall⟩ := @readDocument_writtenLines _ [i] Issue.state hQ
    (List.forall_mem_singleton.mpr hwritable)
  obtain ⟨j, js, hyields, hnone, rfl⟩ := List.forall₂_cons_left_iff.mp hall
  obtain rfl := List.forall₂_nil_left_iff.mp hnone
  have hrender : i.render = Text.ofBodies (writtenLines [i] Issue.state) := by
    rw [Issue.render_eq, writtenLines, List.flatMap_singleton]
  -- The title starts as the text of the task does, so it is not empty.
  obtain ⟨hne, htrimmed⟩ := hfound.text
  obtain ⟨c, r, hcons⟩ := List.exists_cons_of_ne_nil hne
  have hc : c.isBlank = false := htrimmed.1 c (by rw [hcons]; rfl)
  obtain ⟨⟨r', hshort⟩, hle⟩ := @shorten_spec limit c r hlimit
  rw [hcons] at htitle
  have htitleNe : Text.singleLine i.title ≠ [] := by
    rw [htitle, hshort]
    exact Text.singleLine_ne_nil hc
  have htitleLe : ((Text.singleLine i.title).length : Int) ≤ limit := by
    have hsingle := Text.length_singleLine_le i.title
    rw [htitle] at hsingle ⊢
    omega
  obtain ⟨hsameId, hstate, hpriority, htags, hcreated', htitle'⟩ :=
    eq_of_yields h hi hQ hvisible hyear htitleNe hyields
  obtain ⟨hfile', hline', hcolumn', hhash'⟩ := source_of_yields h hi hQ hvisible hyear hplaced hyields
  refine ⟨i, j, hi, hrender ▸ hread, ⟨hsameId, hid⟩, hstate, hpriority, htags,
    ⟨hcreated', hcreated⟩, ⟨htitle', htitle' ▸ htitleLe⟩, ⟨hfile', hsourceFile⟩, ⟨hline', ?_⟩,
    ⟨hcolumn', ?_⟩, ⟨hhash', hash, hhash, hsourceHash⟩, ?_⟩
  · rw [Issue.sourceLine?, hsourceLine]
    exact positive?_ofInt h.line
  · rw [Issue.sourceColumn?, hsourceColumn]
    exact positive?_ofInt h.column
  · exact List.find?_cons_of_pos (pointsAt_of_yields h hi hQ hvisible hyear hplaced hyields)

end Found

/-- A task whose text has a cookie, tags, a headline, the end of a drawer and breaks of lines. -/
def crookedText : Text := "x = 1\n\ty #TODO:\t[#A] :x: \x0c* DONE \u2028:END: 12345:y:"

def crookedTask : Task :=
  ⟨⟨.relative, ["d", "a.py"]⟩, 2, 4, "\ty #TODO:\t[#A] :x: \x0c* DONE \u2028:END: 12345:y:", "TODO",
    "[#A] :x: \x0c* DONE \u2028:END: 12345:y:", "PY", none⟩

def crookedMoment : DateTime := ⟨1000, 2, 28, 23, 59, 58, 999, by decide, by decide⟩

theorem gathered_issue_survives_crookedTask :
    crookedTask ∈ tasksOf (Path.ofText "d/./a.py") false crookedText ∧
      (∀ name ∈ ["w".toText], Path.IsName name) ∧
      (∀ c ∈ crookedTask.text, Utf8.isEncodable c = true) ∧
      crookedText.length < 10 ^ Text.maxDigits ∧
      (Text.BreakFree (crookedTask.file ["w"]) ∧ Text.IsTrimmed (crookedTask.file ["w"])) ∧
      IsToken "0123abcd" ∧ 1000 ≤ crookedMoment.year ∧ (4 : Int) ≤ 9 ∧
      ∃ i j, Issue.ofTask ["w"] crookedTask "0123abcd" crookedMoment 9 = .ok i ∧
        readDocument i.render = .ok [j] ∧
        Survives ["w"] crookedTask "0123abcd" crookedMoment 9 i j := by
  have htask : crookedTask ∈ tasksOf (Path.ofText "d/./a.py") false crookedText := by
    decide +kernel
  have hcwd : ∀ name ∈ ["w".toText], Path.IsName name := by
    rw [List.forall_mem_singleton]
    exact ⟨⟨by decide, by decide, by decide⟩, by decide⟩
  have htext : ∀ c ∈ crookedTask.text, Utf8.isEncodable c = true := by
    decide +kernel
  have hlength : crookedText.length < 10 ^ Text.maxDigits := by
    decide +kernel
  have hfile : Text.BreakFree (crookedTask.file ["w"]) ∧ Text.IsTrimmed (crookedTask.file ["w"]) := by
    refine ⟨?_, ?_, ?_⟩
    · show ∀ c ∈ crookedTask.file ["w"], c.isBreak = false
      decide +kernel
    · decide +kernel
    · decide +kernel
  have htoken : IsToken "0123abcd" := ⟨by decide, by decide⟩
  exact ⟨htask, hcwd, htext, hlength, hfile, htoken, by decide, by decide,
    gathered_issue_survives htask hcwd htext hlength hfile htoken (by decide) (by decide)⟩

/-- A task with a surrogate that stands for no byte. -/
def loneText : Text := "# TODO: " ++ [Rune.ofNat 0xD800]

def loneTask : Task :=
  ⟨⟨.relative, ["a.py"]⟩, 1, 1, loneText, "TODO", [Rune.ofNat 0xD800], "PY", none⟩

/-- Of a task that has no written form no issue is made. -/
theorem ofTask_loneTask : loneTask ∈ tasksOf (Path.ofText "a.py") false loneText ∧
    (Text.BreakFree (loneTask.file ["w"]) ∧ Text.IsTrimmed (loneTask.file ["w"])) ∧
    Issue.ofTask ["w"] loneTask "0123abcd" crookedMoment 100 =
      .error ⟨Rune.ofNat 0xD800, 5, 1⟩ := by
  refine ⟨?_, ⟨?_, ?_, ?_⟩, ?_⟩
  · decide +kernel
  · show ∀ c ∈ loneTask.file ["w"], c.isBreak = false
    decide +kernel
  · decide +kernel
  · decide +kernel
  · rfl

end TodoLedger
