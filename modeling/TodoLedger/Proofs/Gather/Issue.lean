import TodoLedger.Link
import TodoLedger.Proofs.Document.Rendering
import TodoLedger.Proofs.Sorted
import TodoLedger.Proofs.Tasks
/-!
# The issue of a task

The issue that is made of a task can be written, and what is read back for it points at the file and
the line of the task.
-/

namespace TodoLedger

open Utf8

variable {Q : Text → Prop} {task : Task} {path : Path} {t token : Text} {cwd : List Text} {now : DateTime} {limit : Int}
  {i j : Issue}

/-- What is written of the task can be read on lines of a class: its texts, the file it stands in and
the numbers of its place. -/
structure Task.IsWritable (Q : Text → Prop) (cwd : List Text) (task : Task) : Prop where
  encodable : ∀ c ∈ (task.keyword ++ ":" ++ task.text : Text), isEncodable c = true
  title : ∀ limit, Q (Text.singleLine (shorten limit task.text))
  description : ∀ p ∈ Text.pieces task.statement, Q p
  style : ∃ path, task.style = CommentSyntax.styleOf path
  file : Q (Text.singleLine (task.file cwd))
  line : ∃ n : Nat, task.line = n ∧ 1 ≤ n ∧ n < 10 ^ Text.maxDigits
  column : ∃ n : Nat, task.column = n ∧ 1 ≤ n ∧ n < 10 ^ Text.maxDigits

/-- The file of the task is named by a text that is kept on one line. -/
structure Task.IsPlaced (cwd : List Text) (task : Task) : Prop where
  breakFree : Text.BreakFree (task.file cwd)
  trimmed : Text.IsTrimmed (task.file cwd)
  ne_nil : task.file cwd ≠ []

theorem Task.IsPlaced.singleLine_eq (h : task.IsPlaced cwd) :
    Text.singleLine (task.file cwd) = task.file cwd := by
  rw [Text.singleLine_of_breakFree h.breakFree, h.trimmed.trim_eq]

theorem takeInt_isPrefix (n : Int) (t : Text) : takeInt n t <+: t := by
  cases n with
  | ofNat k => exact List.take_prefix k t
  | negSucc k => exact List.take_prefix _ t

theorem isStable_shorten (h : IsStable t) : IsStable (shorten limit t) := by
  rw [shorten]
  split_ifs with hlong
  · have hdots : Text.FitsLine ("..." : Text) := Text.fitsLine_of_basic (by decide)
    refine (h.of_infix (takeInt_isPrefix _ _).isInfix).append hdots.isStable ?_
    intro c hc
    obtain rfl : Rune.ofChar '.' = c := Option.some.inj hc
    decide
  · exact h

/-- A task that was found in a text can be written if its texts can. -/
theorem Task.IsFound.isWritable (h : task.IsFound path t) (hlength : t.length < 10 ^ Text.maxDigits)
    (htext : ∀ c ∈ task.text, isEncodable c = true)
    (htitle : ∀ limit, Q (Text.singleLine (shorten limit task.text)))
    (hdescription : ∀ p ∈ Text.pieces task.statement, Q p)
    (hfile : Q (Text.singleLine (task.file cwd))) : task.IsWritable Q cwd := by
  have hcolon : ∀ c ∈ (":" : Text), isEncodable c = true := by decide
  have hlines := Text.length_lines_le t
  obtain ⟨k, hk, hline⟩ := h.line
  obtain ⟨n, hn, hcolumn⟩ := h.column
  constructor
  · simp only [List.forall_mem_append]
    exact ⟨⟨h.keyword.isEncodable, hcolon⟩, htext⟩
  · exact htitle
  · exact hdescription
  · exact ⟨path, h.style⟩
  · exact hfile
  · exact ⟨k + 1, hline, Nat.succ_pos k, by omega⟩
  · exact ⟨n + 1, hcolumn, Nat.succ_pos n, by omega⟩

/-- What is found in a text that was read from a file can be written to a file. -/
theorem isWritable_of_isStable (ht : IsStable t) (h : task ∈ tasksOf path false t)
    (hlength : t.length < 10 ^ Text.maxDigits) (hfile : IsStable (task.file cwd)) :
    task.IsWritable Text.FitsLine cwd := by
  have hfound := isFound_of_mem_tasksOf h
  have htext : IsStable task.text := ht.of_infix (text_isInfix_of_mem_tasksOf h)
  have hstatement : IsStable task.statement := by
    rw [Task.statement, List.append_assoc]
    refine hfound.keyword.append ((Text.isStable_basic_append (by decide)).mpr htext) ?_
    intro c hc
    obtain rfl : Rune.ofChar ':' = c := Option.some.inj hc
    decide
  apply hfound.isWritable hlength htext.isEncodable
  · exact fun _ => Text.fitsLine_singleLine (isStable_shorten htext)
  · exact fun p hp => Text.fitsLine_of_mem_pieces hstatement hp
  · exact Text.fitsLine_singleLine hfile

/-- The keys of a gathered issue, in the order in which its drawer shows them. -/
def gatheredKeys : List Text :=
  ["ID", "CREATED", "TITLE", sourceFileKey, sourceLineKey, sourceColumnKey, sourceHashKey,
    "PRIORITY", "TAGS"]

/-- What the drawer of a gathered issue is read to. -/
def gatheredSettings (i : Issue) (task : Task) (cwd : List Text) (now : DateTime) (hash : Text) :
    List (Text × Text) :=
  [("ID".toText, i.id), ("CREATED".toText, Timestamp.encode now true),
    ("TITLE".toText, Text.singleLine i.title), (sourceFileKey, Text.singleLine (task.file cwd)),
    (sourceLineKey, Text.ofInt task.line), (sourceColumnKey, Text.ofInt task.column),
    (sourceHashKey, hash), ("PRIORITY".toText, task.priority.name),
    ("TAGS".toText, Text.join ":" ["gathered", Text.lower task.style])]

private theorem isKey_gathered : ∀ key ∈ gatheredKeys, IsKey key ∧ ∀ c ∈ key, c.IsBasic := by
  decide +kernel

private theorem apart_gathered : Properties.Apart gatheredKeys := by
  decide +kernel

private theorem apart_drawer : Properties.Apart ["ID", "TITLE", "CREATED", sourceFileKey,
    sourceLineKey, sourceColumnKey, sourceHashKey, "PRIORITY", "TAGS"] := by
  decide +kernel

/-! ## Parts of a gathered issue -/

/-- A text that can stand in a tag group. -/
def IsTag (tag : Text) : Prop := tag ≠ [] ∧ ∀ c ∈ tag, c.IsVisible ∧ c ≠ Rune.ofChar ':'

instance (tag : Text) : Decidable (IsTag tag) := inferInstanceAs (Decidable (_ ∧ _))

theorem IsTag.isGroupTag {tag : Text} (h : IsTag tag) : Headline.IsGroupTag tag where
  ne_nil := h.1
  trimmed := Text.isTrimmed_of_not_blank fun c hc => (h.2 c hc).1.isBlank
  noColon := fun hmem => (h.2 _ hmem).2 rfl

private theorem isTag_style (path : Path) : IsTag (Text.lower (CommentSyntax.styleOf path)) := by
  have hall : ∀ f ∈ CommentSyntax.families, ∀ e ∈ f.2,
      IsTag (Text.lower (Text.upper (e.toText.drop 1))) := by
    decide +kernel
  have hunknown : IsTag (Text.lower "UNKNOWN") := by
    decide +kernel
  rw [CommentSyntax.styleOf]
  split
  · rename_i comments hfound
    rw [CommentSyntax.ofExtension?, Option.map_eq_some_iff] at hfound
    obtain ⟨f, hfind, -⟩ := hfound
    have hany := List.find?_some hfind
    obtain ⟨e, he, hsame⟩ := List.any_eq_true.mp hany
    rw [← of_decide_eq_true hsame]
    exact hall f (List.mem_of_find?_eq_some hfind) e he
  · exact hunknown

theorem Task.IsWritable.isTag (h : task.IsWritable Q cwd) :
    ∀ tag ∈ ["gathered".toText, Text.lower task.style], IsTag tag := by
  obtain ⟨path, hstyle⟩ := h.style
  have hgathered : IsTag "gathered".toText := by decide
  rw [hstyle]
  simp only [List.forall_mem_cons, List.not_mem_nil, false_implies, implies_true, and_true]
  exact ⟨hgathered, isTag_style path⟩

theorem isVisible_gatheredId (now : DateTime) (htoken : ∀ c ∈ token, c.IsVisible) :
    ∀ c ∈ gatheredId now token, c.IsVisible := by
  have hdate : ∀ c ∈ now.dateDigits, c.IsVisible := fun c hc =>
    (DateTime.isDigit_of_mem_dateDigits hc).isVisible
  have htime : ∀ c ∈ now.timeDigits, c.IsVisible := fun c hc =>
    (DateTime.isDigit_of_mem_timeDigits hc).isVisible
  have hgather : ∀ c ∈ ("gather-" : Text), c.IsVisible := by decide
  have hdash : ∀ c ∈ ("-" : Text), c.IsVisible := by decide
  simp only [gatheredId, List.forall_mem_append]
  exact ⟨⟨⟨⟨⟨hgather, hdate⟩, hdash⟩, htime⟩, hdash⟩, htoken⟩

/-- The hash of such a task can be made, and it is written in ASCII. -/
theorem Task.IsWritable.exists_contentHash (h : task.IsWritable Q cwd) :
    ∃ hash, task.contentHash = .ok hash ∧ ∀ c ∈ hash, c.IsVisible := by
  refine ⟨_, by rw [Task.contentHash, encode_eq h.encodable]; rfl, ?_⟩
  intro c hc
  obtain ⟨b, -, hb⟩ := List.mem_flatMap.mp (List.mem_of_mem_take hc)
  have hcode := Text.code_of_mem_hex hb
  constructor
  · omega
  · omega

/-- The values of a gathered issue's settings are written on one line without blanks around. -/
private theorem isVisible_values (h : task.IsWritable Q cwd) :
    (∀ c ∈ Text.ofInt task.line, c.IsVisible) ∧ (∀ c ∈ Text.ofInt task.column, c.IsVisible) ∧
      (∀ c ∈ task.priority.name, c.IsVisible) ∧
      ∀ c ∈ Text.join ":" ["gathered", Text.lower task.style], c.IsVisible := by
  obtain ⟨n, hn, -⟩ := h.line
  obtain ⟨k, hk, -⟩ := h.column
  refine ⟨?_, ?_, ?_, ?_⟩
  · rw [hn]
    exact fun c hc => (Text.isDigit_of_mem_ofNat hc).isVisible
  · rw [hk]
    exact fun c hc => (Text.isDigit_of_mem_ofNat hc).isVisible
  · cases task.priority <;> decide
  · intro c hc
    rcases Text.mem_join hc with hc | ⟨p, hp, hc⟩
    · rw [List.mem_singleton.mp hc]
      decide
    · exact ((h.isTag p hp).2 c hc).1

/-! ## What is written of the issue -/

/-- What the drawer shows is found under its keys. -/
theorem get?_gathered {hash key value : Text}
    (hmem : (key, value) ∈ gatheredSettings i task cwd now hash) :
    (Properties.ofList (gatheredSettings i task cwd now hash)).get? key = some value := by
  have hapart : Properties.Apart ((gatheredSettings i task cwd now hash).map Prod.fst) :=
    apart_gathered
  rw [Properties.ofList_of_apart hapart]
  exact Properties.get?_of_mem hapart hmem

private theorem isPosition_ofInt {number : Int} {value : Text} (hvalue : value = Text.ofInt number)
    (hnumber : ∃ n : Nat, number = n ∧ 1 ≤ n ∧ n < 10 ^ Text.maxDigits) : IsPosition value := by
  obtain ⟨n, rfl, hpos, hlt⟩ := hnumber
  have hdigits : ∀ c ∈ Text.ofNat n, c.IsDigit := fun c hc => Text.isDigit_of_mem_ofNat hc
  have htrim : Text.trim (Text.ofNat n) = Text.ofNat n :=
    (Text.isTrimmed_of_not_blank fun c hc => (hdigits c hc).isBlank).trim_eq
  have htext : value = Text.ofNat n := hvalue
  constructor
  · rw [htext, htrim]
    exact Text.isDecimal_of_isDigit (Text.ofNat_ne_nil n) hdigits
  · rw [htext, htrim]
    exact (Text.length_ofNat_le_iff (by decide)).mpr hlt
  · rw [htext, htrim, Text.digitsValue_ofNat]
    exact hpos

private theorem has_sourceKeys (i : Issue) (task : Task) (cwd : List Text) (now : DateTime)
    (hash : Text) : ∀ key ∈ sourceKeys,
      (Properties.ofList (gatheredSettings i task cwd now hash)).has key = true := by
  intro key hkey
  have hsome : ∃ value, (key, value) ∈ gatheredSettings i task cwd now hash := by
    simp only [sourceKeys, List.mem_cons, List.not_mem_nil, or_false] at hkey
    rcases hkey with rfl | rfl | rfl | rfl
    · exact ⟨Text.singleLine (task.file cwd), by simp [gatheredSettings]⟩
    · exact ⟨Text.ofInt task.line, by simp [gatheredSettings]⟩
    · exact ⟨Text.ofInt task.column, by simp [gatheredSettings]⟩
    · exact ⟨hash, by simp [gatheredSettings]⟩
  obtain ⟨value, hmem⟩ := hsome
  rw [Properties.has, get?_gathered hmem]
  rfl

section OfTask

variable (h : task.IsWritable Q cwd) (hi : Issue.ofTask cwd task token now limit = .ok i)

include h

theorem exists_ofTask : ∃ i, Issue.ofTask cwd task token now limit = .ok i := by
  obtain ⟨hash, hhash, -⟩ := h.exists_contentHash
  rw [Issue.ofTask, hhash]
  exact ⟨_, rfl⟩

include hi

/-- The properties of the issue in the order in which they are set. -/
private theorem entries_ofTask : ∃ hash, (task.contentHash = .ok hash ∧
      ∀ c ∈ hash, c.IsVisible) ∧ i.properties.entries =
    [("ID".toText, i.id), ("TITLE".toText, i.title), ("CREATED".toText, Timestamp.encode now true),
      (sourceFileKey, task.file cwd), (sourceLineKey, Text.ofInt task.line),
      (sourceColumnKey, Text.ofInt task.column), (sourceHashKey, hash),
      ("PRIORITY".toText, task.priority.name),
      ("TAGS".toText, Text.join ":" ["gathered", Text.lower task.style])] := by
  obtain ⟨hash, hhash, hbasic⟩ := h.exists_contentHash
  rw [Issue.ofTask, hhash] at hi
  simp only [bind, Except.bind, pure, Except.pure, Except.ok.injEq] at hi
  refine ⟨hash, ⟨hhash, hbasic⟩, ?_⟩
  rw [← hi, Properties.ofList_of_apart]
  exact apart_drawer

theorem id_ofTask : i.id = gatheredId now token ∧ i.createdAt = now.startOfMinute ∧
    i.state = .todo ∧ i.level = 1 ∧ i.title = shorten limit task.text ∧
    i.description = task.statement ∧ i.tags = distinct ["gathered".toText, Text.lower task.style] ∧
    i.priority = task.priority := by
  obtain ⟨hash, hhash, -⟩ := h.exists_contentHash
  rw [Issue.ofTask, hhash] at hi
  simp only [bind, Except.bind, pure, Except.pure, Except.ok.injEq] at hi
  rw [← hi]
  exact ⟨rfl, rfl, rfl, rfl, rfl, rfl, rfl, rfl⟩

/-- The issue points at the place of its task. -/
theorem source_ofTask : i.sourceFile? = some (task.file cwd) ∧
    i.properties.get? sourceLineKey = some (Text.ofInt task.line) ∧
    i.properties.get? sourceColumnKey = some (Text.ofInt task.column) ∧
    ∃ hash, task.contentHash = .ok hash ∧ i.sourceHash? = some hash := by
  obtain ⟨hash, ⟨hhash, -⟩, hentries⟩ := entries_ofTask h hi
  have hapart : Properties.Apart (i.properties.entries.map Prod.fst) := by
    rw [hentries]
    exact apart_drawer
  have hget : ∀ key value, (key, value) ∈ i.properties.entries →
      i.properties.get? key = some value :=
    fun key value hmem => Properties.get?_of_mem hapart hmem
  rw [hentries] at hget
  exact ⟨hget _ _ (by simp), hget _ _ (by simp), hget _ _ (by simp), hash, hhash,
    hget _ _ (by simp)⟩

private theorem exists_front : ∃ r, i.id = Rune.ofChar 'g' :: r := by
  rw [(id_ofTask h hi).1]
  exact ⟨_, rfl⟩

theorem settings_ofTask (htoken : ∀ c ∈ token, c.IsVisible) (shown : Text) :
    ∃ hash, task.contentHash = .ok hash ∧
      i.settings shown = gatheredSettings i task cwd now hash := by
  obtain ⟨hash, ⟨hhash, hbasic⟩, hentries⟩ := entries_ofTask h hi
  obtain ⟨hid, hcreated, -⟩ := id_ofTask h hi
  obtain ⟨hline, hcolumn, hpriority, htags⟩ := isVisible_values h
  have htrimmed : Text.trim i.id = i.id := by
    rw [hid]
    exact (Text.isTrimmed_of_not_blank fun c hc =>
      (isVisible_gatheredId now htoken c hc).isBlank).trim_eq
  have hmoment : Timestamp.encode i.createdAt true = Timestamp.encode now true := by
    rw [hcreated]
    rfl
  refine ⟨hash, hhash, ?_⟩
  rw [Issue.settings_of_entries htrimmed hmoment hentries]
  · simp only [List.map_cons, List.map_nil, Text.singleLine_of_visible hline,
      Text.singleLine_of_visible hcolumn, Text.singleLine_of_visible hbasic,
      Text.singleLine_of_visible hpriority, Text.singleLine_of_visible htags]
    rfl
  · have hothers : ∀ key ∈ [sourceFileKey, sourceLineKey, sourceColumnKey, sourceHashKey,
        "PRIORITY", "TAGS"], isLeadingKey key = false := by
      decide +kernel
    exact fun e he => hothers e.1 (List.mem_map_of_mem (f := Prod.fst) he)

variable (hQ : Text.LineClass Q)

include hQ

private theorem fits_entries (htoken : ∀ c ∈ token, c.IsVisible) :
    ∀ e ∈ i.properties.entries, e.1 ∈ gatheredKeys ∧ Q (Text.singleLine e.2) := by
  obtain ⟨hid, -, -, -, htitle, -⟩ := id_ofTask h hi
  obtain ⟨hash, ⟨-, hhash⟩, hentries⟩ := entries_ofTask h hi
  obtain ⟨hline, hcolumn, hpriority, htags⟩ := isVisible_values h
  have hvisible : ∀ t : Text, (∀ c ∈ t, c.IsVisible) → Q (Text.singleLine t) := fun t ht => by
    rw [Text.singleLine_of_visible ht]
    exact hQ.of_basic fun c hc => (ht c hc).isBasic
  have hcreated : Q (Text.singleLine (Timestamp.encode now true)) := by
    have hbasic := Timestamp.isBasic_encode now
    rw [Text.singleLine_of_breakFree (Text.lineClass_breakFree.of_basic hbasic)]
    exact hQ.of_isInfix (Text.trim_isInfix _) (hQ.of_basic hbasic)
  rw [hentries]
  simp only [List.forall_mem_cons]
  refine ⟨⟨by simp [gatheredKeys], ?_⟩, ⟨by simp [gatheredKeys], ?_⟩, ⟨by simp [gatheredKeys], ?_⟩,
    ⟨by simp [gatheredKeys], ?_⟩, ⟨by simp [gatheredKeys], ?_⟩, ⟨by simp [gatheredKeys], ?_⟩,
    ⟨by simp [gatheredKeys], ?_⟩, ⟨by simp [gatheredKeys], ?_⟩, ⟨by simp [gatheredKeys], ?_⟩, by simp⟩
  · rw [hid]
    exact hvisible _ (isVisible_gatheredId now htoken)
  · rw [htitle]
    exact h.title limit
  · exact hcreated
  · exact h.file
  · exact hvisible _ hline
  · exact hvisible _ hcolumn
  · exact hvisible _ hhash
  · exact hvisible _ hpriority
  · exact hvisible _ htags

variable (htoken : ∀ c ∈ token, c.IsVisible) (hyear : 1000 ≤ now.year)

include htoken hyear

omit hQ in
theorem complete_ofTask (shown : Text) : (Properties.ofList (i.settings shown)).Complete := by
  obtain ⟨hash, -, hsettings⟩ := settings_ofTask h hi htoken shown
  obtain ⟨r, hfront⟩ := exists_front h hi
  have hget := fun key value => @get?_gathered task cwd now i hash key value
  have hline := hget sourceLineKey (Text.ofInt task.line) (by simp [gatheredSettings])
  have hcolumn := hget sourceColumnKey (Text.ofInt task.column) (by simp [gatheredSettings])
  rw [hsettings]
  constructor
  · refine ⟨i.id, hget _ _ (by simp [gatheredSettings]), ?_⟩
    rw [hfront]
    rfl
  · refine ⟨now.startOfMinute, Timestamp.encode now true, ?_, Timestamp.decode_encode hyear⟩
    rw [Properties.first?, createdKeys, List.findSome?_cons,
      hget "CREATED" (Timestamp.encode now true) (by simp [gatheredSettings])]
  · right
    refine ⟨has_sourceKeys i task cwd now hash, ?_, ?_⟩
    · apply isPosition_ofInt _ h.line
      rw [Properties.valueOf, hline]
      rfl
    · apply isPosition_ofInt _ h.column
      rw [Properties.valueOf, hcolumn]
      rfl

theorem isWritable_ofTask : i.IsWritable Q := by
  obtain ⟨hid, -, -, -, htitle, hdescription, htags, -⟩ := id_ofTask h hi
  obtain ⟨r, hfront⟩ := exists_front h hi
  constructor
  · rw [hid]
    exact hQ.of_basic fun c hc => (isVisible_gatheredId now htoken c hc).isBasic
  · exact ⟨_, r, hfront, by decide, by decide⟩
  · rw [htitle]
    exact h.title limit
  · rw [hdescription]
    exact h.description
  · intro t ht
    rw [htags, mem_distinct] at ht
    exact hQ.of_basic fun c hc => ((h.isTag t ht).2 c hc).1.isBasic
  · intro e he
    obtain ⟨hkey, hvalue⟩ := fits_entries h hi hQ htoken e he
    obtain ⟨hwritten, hbasic⟩ := isKey_gathered e.1 hkey
    exact ⟨⟨hwritten, hQ.of_basic hbasic⟩, hvalue⟩
  · exact complete_ofTask h hi htoken hyear _

/-- What is read back for a task is linked to its file and its line. -/
theorem isLinked_of_yields {s : State} (hplaced : task.IsPlaced cwd) (hyields : (i.entryLines s).Yields j) :
    j.state = s ∧ j.isLinked = true ∧ j.sourceFile? = some (task.file cwd) ∧
      ∃ n : Nat, task.line = n ∧ j.sourceLine? = some n := by
  obtain ⟨hstate, hproperties⟩ := Issue.Yields.spec hQ (isWritable_ofTask h hi hQ htoken hyear) hyields
  obtain ⟨hash, -, hsettings⟩ := settings_ofTask h hi htoken (Headline.titleOf i)
  rw [hsettings] at hproperties
  have hget := fun key value => @get?_gathered task cwd now i hash key value
  rw [← hproperties] at hget
  have hfile : j.sourceFile? = some (task.file cwd) := by
    rw [← hplaced.singleLine_eq]
    exact hget _ _ (by simp [gatheredSettings])
  obtain ⟨n, hn, hpos, hlt⟩ := h.line
  have hline : j.sourceLine? = some n := by
    rw [Issue.sourceLine?, hget _ (Text.ofInt task.line) (by simp [gatheredSettings]), hn]
    exact Text.positive?_ofNat hpos hlt
  refine ⟨hstate, ?_, hfile, n, hn, hline⟩
  have hkeys : sourceKeys.all j.properties.has = true := by
    rw [hproperties]
    exact List.all_eq_true.mpr (has_sourceKeys i task cwd now hash)
  have hblank : Text.isBlank (task.file cwd) = false := by
    obtain ⟨c, r, hcons⟩ := List.exists_cons_of_ne_nil hplaced.ne_nil
    have hc : c.isBlank = false := hplaced.trimmed.1 c (by rw [hcons]; rfl)
    rw [hcons, Text.isBlank, List.all_cons, hc, Bool.false_and]
  rw [Issue.isLinked, hkeys, hfile, hline, Option.getD_some, hblank]
  rfl

end OfTask

end TodoLedger
