import TodoLedger.Path
import TodoLedger.Proofs.Text.Search
/-!
# Reading and resolving paths

A path is read back from its text, and a place seen from a directory resolves to itself there. Both
hold of segments that a path keeps: not empty, no single dot, no slash. Of the texts with so many
slashes no other one names the place.
-/

namespace TodoLedger

namespace Path

/-- A segment that is kept when a path is read. -/
structure IsSegment (s : Text) : Prop where
  ne_nil : s ≠ []
  ne_dot : s ≠ dot
  noSlash : Rune.ofChar '/' ∉ s

/-- A segment that names something in a directory. -/
structure IsName (s : Text) : Prop extends IsSegment s where
  ne_dotDot : s ≠ dotDot

theorem filter_segments {segments : List Text} (h : ∀ s ∈ segments, IsSegment s) :
    (segments.filter fun s => !s.isEmpty && s ≠ dot) = segments := by
  rw [List.filter_eq_self]
  intro s hs
  simp [(h s hs).ne_nil, (h s hs).ne_dot]

/-- The segments of a text are those it was joined of. -/
theorem splitAt_join {segments : List Text} (h : ∀ s ∈ segments, IsSegment s)
    (hne : segments ≠ []) : Text.splitAt '/' (Text.join "/" segments) = segments :=
  Text.splitAt_join (fun s hs => (h s hs).noSlash) hne

theorem head?_join {segments : List Text} (h : ∀ s ∈ segments, IsSegment s) (separator : Text)
    (hne : segments ≠ []) : ∃ c r, Text.join separator segments = c :: r ∧ isSlash c = false := by
  cases segments with
  | nil => exact absurd rfl hne
  | cons s rest =>
      have hs := h s (by simp)
      cases s with
      | nil => exact absurd rfl hs.ne_nil
      | cons c s =>
          refine ⟨c, separator.intercalate (s :: rest), List.intercalate_cons_cons_left, ?_⟩
          have hc : c ≠ Rune.ofChar '/' := fun hc => hs.noSlash (by simp [hc])
          simpa [isSlash] using hc

private theorem filter_splitAt_join {segments : List Text} (h : ∀ s ∈ segments, IsSegment s) :
    ((Text.splitAt '/' (Text.join "/" segments)).filter fun s => !s.isEmpty && s ≠ dot) =
      segments := by
  by_cases hne : segments = []
  · subst hne
    rfl
  · rw [splitAt_join h hne, filter_segments h]

theorem text_relative {segments : List Text} (hne : segments ≠ []) :
    Path.text ⟨.relative, segments⟩ = Text.join "/" segments := by
  simp [Path.text, anchorText, hne]

theorem text_root (segments : List Text) :
    Path.text ⟨.root, segments⟩ = Rune.ofChar '/' :: Text.join "/" segments := by
  simp only [Path.text, anchorText, reduceCtorEq, decide_false, Bool.false_and,
    Bool.false_eq_true, if_false]
  rfl

/-- A path is read back from its text. -/
theorem ofText_text {p : Path} (h : ∀ s ∈ p.segments, IsSegment s) : ofText p.text = p := by
  obtain ⟨anchor, segments⟩ := p
  by_cases hne : segments = []
  · subst hne
    cases anchor <;> decide
  · obtain ⟨c, r, hjoin, hslash⟩ := head?_join h "/" hne
    have hsegments := filter_splitAt_join h
    have hc : c ≠ Rune.ofChar '/' := by simpa [isSlash] using hslash
    cases anchor with
    | relative =>
        rw [text_relative hne, ofText, hsegments, hjoin]
        simp [anchorOf, hslash]
    | root =>
        rw [text_root, ofText, Text.splitAt_cons_self, List.filter_cons, if_neg (by simp), hsegments,
          hjoin]
        simp [anchorOf, isSlash, hc]
    | doubleRoot =>
        have htext : Path.text ⟨.doubleRoot, segments⟩ =
            Rune.ofChar '/' :: Rune.ofChar '/' :: Text.join "/" segments := by
          simp only [Path.text, anchorText, reduceCtorEq, decide_false, Bool.false_and,
            Bool.false_eq_true, if_false]
          rfl
        rw [htext, ofText, Text.splitAt_cons_self, Text.splitAt_cons_self, List.filter_cons,
          if_neg (by simp), List.filter_cons, if_neg (by simp), hsegments, hjoin]
        simp [anchorOf, isSlash, hc]

/-- A single segment is read as a relative path. -/
theorem ofText_segment {s : Text} (h : IsSegment s) : ofText s = ⟨.relative, [s]⟩ := by
  have htext : s = Path.text ⟨.relative, [s]⟩ := by
    simp [Path.text, anchorText, Text.join]
  conv_lhs => rw [htext]
  exact ofText_text (by simpa using h)

theorem isSegment_of_mem_ofText {t s : Text} (h : s ∈ (ofText t).segments) : IsSegment s := by
  obtain ⟨hmem, hkept⟩ := List.mem_filter.mp h
  simp only [Bool.and_eq_true, Bool.not_eq_true', List.isEmpty_eq_false_iff, ne_eq,
    decide_not, decide_eq_false_iff_not] at hkept
  exact ⟨hkept.1, hkept.2, ((Text.splitAt_spec '/' t).2 s hmem).2⟩

/-! ## Resolving -/

theorem resolveFrom_append (place s r : List Text) :
    resolveFrom place (s ++ r) = resolveFrom (resolveFrom place s) r := by
  induction s generalizing place with
  | nil => rfl
  | cons a s ih => exact ih _

theorem resolveFrom_of_ne_dotDot {place segments : List Text} (h : ∀ s ∈ segments, s ≠ dotDot) :
    resolveFrom place segments = place ++ segments := by
  induction segments generalizing place with
  | nil => simp [resolveFrom]
  | cons s rest ih =>
      obtain ⟨hs, hrest⟩ := List.forall_mem_cons.mp h
      rw [resolveFrom, if_neg hs, ih hrest, List.append_assoc]
      rfl

theorem resolve_child {cwd : List Text} {p : Path} {name : Text} (h : name ≠ dotDot) :
    (p.child name).resolve cwd = p.resolve cwd ++ [name] := by
  rw [resolve, child, resolveFrom_append]
  simp [resolveFrom, h, resolve]

theorem resolve_absolute {cwd place : List Text} (h : ∀ s ∈ place, s ≠ dotDot) :
    (absolute place).resolve cwd = place := by
  simp [resolve, absolute, resolveFrom_of_ne_dotDot h]

theorem isName_of_mem_resolveFrom {place segments : List Text} (hplace : ∀ s ∈ place, IsName s)
    (hsegments : ∀ s ∈ segments, IsSegment s) : ∀ s ∈ resolveFrom place segments, IsName s := by
  induction segments generalizing place with
  | nil => exact hplace
  | cons a rest ih =>
      obtain ⟨ha, hrest⟩ := List.forall_mem_cons.mp hsegments
      refine ih ?_ hrest
      split_ifs with hdots
      · exact fun s hs => hplace s (List.dropLast_subset _ hs)
      · intro s hs
        rcases List.mem_append.mp hs with hs | hs
        · exact hplace s hs
        · rw [List.mem_singleton.mp hs]
          exact ⟨ha, hdots⟩

theorem below?_eq_some_iff {dir place rest : List Text} :
    below? dir place = some rest ↔ place = dir ++ rest := by
  induction dir generalizing place with
  | nil => simp [below?, eq_comm]
  | cons a dir ih =>
      cases place with
      | nil => simp [below?]
      | cons b place =>
          by_cases h : a = b
          · simp [below?, h, ih]
          · simp [below?, h, Ne.symm h]

/-- A place resolves to itself from wherever it is seen. -/
theorem resolve_seenFrom {cwd place : List Text} (h : ∀ s ∈ place, s ≠ dotDot) :
    (seenFrom cwd place).resolve cwd = place := by
  rw [seenFrom]
  split
  · rename_i rest hbelow
    have hplace := below?_eq_some_iff.mp hbelow
    have hrest : ∀ s ∈ rest, s ≠ dotDot := fun s hs => h s (by simp [hplace, hs])
    simp [resolve, resolveFrom_of_ne_dotDot hrest, hplace]
  · exact resolve_absolute h

theorem text_ne_nil {p : Path} (h : ∀ s ∈ p.segments, IsSegment s) : p.text ≠ [] := by
  rw [text]
  split_ifs with hempty
  · decide
  · cases hanchor : p.anchor with
    | relative =>
        have hne : p.segments ≠ [] := by
          intro hnil
          simp [hanchor, hnil] at hempty
        obtain ⟨c, r, hjoin, -⟩ := head?_join h "/" hne
        rw [hjoin]
        simp [anchorText]
    | root => exact List.cons_ne_nil _ _
    | doubleRoot => exact List.cons_ne_nil _ _

/-- A place seen from a directory has the names that it has. -/
theorem isName_of_mem_seenFrom {cwd place : List Text} (h : ∀ s ∈ place, IsName s) :
    ∀ s ∈ (seenFrom cwd place).segments, IsName s := by
  rw [seenFrom]
  split
  · rename_i rest hbelow
    intro s hs
    rw [below?_eq_some_iff.mp hbelow] at h
    exact h s (List.mem_append_right _ hs)
  · exact h

/-! ## Texts that name a place -/

/-- No place is deeper than the segments that lead there, and where it is as deep none goes up. -/
theorem length_resolveFrom (place segments : List Text) :
    (resolveFrom place segments).length ≤ place.length + segments.length ∧
      ((resolveFrom place segments).length = place.length + segments.length →
        resolveFrom place segments = place ++ segments) := by
  induction segments generalizing place with
  | nil => simp [resolveFrom]
  | cons s rest ih =>
      rw [resolveFrom]
      split_ifs with hup
      · have hshorter := (ih place.dropLast).1
        simp only [List.length_dropLast, List.length_cons] at hshorter ⊢
        exact ⟨by omega, fun h => by omega⟩
      · obtain ⟨hle, heq⟩ := ih (place ++ [s])
        simp only [List.length_append, List.length_cons, List.length_nil] at hle heq ⊢
        refine ⟨by omega, fun h => ?_⟩
        rw [heq (by omega), List.append_assoc]
        rfl

/-- A text of as many parts as there are names names a place below another only if it is made of the
names. -/
private theorem eq_join_of_resolveFrom {start names : List Text} {t : Text}
    (hparts : (Text.splitAt '/' t).length ≤ names.length)
    (h : resolveFrom start ((Text.splitAt '/' t).filter fun s => !s.isEmpty && s ≠ dot) =
      start ++ names) : t = Text.join "/" names := by
  have hfilter := List.length_filter_le (fun s => !s.isEmpty && s ≠ dot) (Text.splitAt '/' t)
  obtain ⟨hle, heq⟩ := length_resolveFrom start
    ((Text.splitAt '/' t).filter fun s => !s.isEmpty && s ≠ dot)
  rw [h, List.length_append] at hle heq
  have hkept : (Text.splitAt '/' t).filter (fun s => !s.isEmpty && s ≠ dot) = Text.splitAt '/' t :=
    List.filter_sublist.eq_of_length (by omega)
  rw [hkept] at heq
  rw [List.append_cancel_left (heq (by omega))]
  exact (Text.join_splitAt '/' t).symm

/-- Without names the working directory or the root is seen. -/
theorem text_seenFrom_of_nil {cwd place : List Text} (h : (seenFrom cwd place).segments = []) :
    (seenFrom cwd place).text = dot ∨ (seenFrom cwd place).text = "/" := by
  rw [seenFrom] at h ⊢
  split at h
  · subst h
    exact Or.inl rfl
  · obtain rfl : place = [] := h
    exact Or.inr rfl

theorem anchorOf_eq_relative_iff {t : Text} :
    anchorOf t = .relative ↔ t.head? ≠ some (Rune.ofChar '/') := by
  cases t with
  | nil => simp [anchorOf]
  | cons c r =>
      by_cases hc : c = Rune.ofChar '/'
      · have hslash : isSlash c = true := by simpa [isSlash] using hc
        rw [anchorOf, List.takeWhile_cons_of_pos hslash, List.length_cons]
        simp only [List.head?_cons, hc, ne_eq, not_true_eq_false, iff_false]
        split <;> simp_all
      · have hslash : isSlash c = false := by simpa [isSlash] using hc
        simp [anchorOf, hslash, hc]

private theorem exists_cons_slash {t : Text} (h : t.head? = some (Rune.ofChar '/')) :
    ∃ r, t = Rune.ofChar '/' :: r ∧ (ofText t).anchor ≠ .relative ∧ (ofText t).segments =
      (Text.splitAt '/' r).filter fun s => !s.isEmpty && s ≠ dot := by
  obtain ⟨r, rfl⟩ := List.head?_eq_some_iff.mp h
  refine ⟨r, rfl, fun hanchor => anchorOf_eq_relative_iff.mp hanchor h, ?_⟩
  rw [ofText, Text.splitAt_cons_self, List.filter_cons, if_neg (by simp)]

/-- A text with as many slashes as the place has, seen from a directory, names the place from there
only if it is the text of what is seen. -/
theorem eq_text_of_resolve {cwd place : List Text} {t : Text} (h : ∀ s ∈ place, IsName s)
    (hne : (seenFrom cwd place).segments ≠ [])
    (hcount : t.count (Rune.ofChar '/') = (seenFrom cwd place).text.count (Rune.ofChar '/'))
    (hhead : (seenFrom cwd place).text.head? = some (Rune.ofChar '/') →
      t.head? = some (Rune.ofChar '/'))
    (hresolve : (ofText t).resolve cwd = place) : t = (seenFrom cwd place).text := by
  have hsegments : ∀ s ∈ (seenFrom cwd place).segments, IsSegment s :=
    fun s hs => (isName_of_mem_seenFrom h s hs).toIsSegment
  have hparts := Text.length_splitAt '/' t
  rw [resolve] at hresolve
  cases hbelow : below? cwd place with
  | some rest =>
      have hseen : seenFrom cwd place = ⟨.relative, rest⟩ := by rw [seenFrom, hbelow]
      have hplace := below?_eq_some_iff.mp hbelow
      have htext : (seenFrom cwd place).text = Text.join "/" rest := by
        rw [hseen] at hne ⊢
        exact text_relative hne
      rw [hseen] at hsegments hne
      have hlength : (Text.splitAt '/' t).length = rest.length := by
        rw [hparts, hcount, ← Text.length_splitAt, htext, splitAt_join hsegments hne]
      rw [htext]
      by_cases hanchor : (ofText t).anchor = .relative
      · rw [if_pos hanchor, hplace] at hresolve
        exact eq_join_of_resolveFrom (Nat.le_of_eq hlength) hresolve
      · -- The slash in front is one of too few.
        obtain ⟨r, rfl, -, hkept⟩ := exists_cons_slash
          (not_not.mp fun hhead => hanchor (anchorOf_eq_relative_iff.mpr hhead))
        rw [if_neg hanchor, hkept] at hresolve
        have hshort := (length_resolveFrom []
          ((Text.splitAt '/' r).filter fun s => !s.isEmpty && s ≠ dot)).1
        have hfilter := List.length_filter_le (fun s => !s.isEmpty && s ≠ dot) (Text.splitAt '/' r)
        rw [hresolve, hplace, List.length_append, List.length_nil] at hshort
        rw [Text.splitAt_cons_self, List.length_cons] at hlength
        omega
  | none =>
      have hseen : seenFrom cwd place = absolute place := by rw [seenFrom, hbelow]
      have htext : (seenFrom cwd place).text = Rune.ofChar '/' :: Text.join "/" place := by
        rw [hseen]
        exact text_root place
      rw [hseen] at hsegments hne
      obtain ⟨r, rfl, hanchor, hkept⟩ := exists_cons_slash (hhead (by rw [htext]; rfl))
      rw [if_neg hanchor, hkept] at hresolve
      have hlength : (Text.splitAt '/' r).length = place.length := by
        have hsplit := Text.length_splitAt '/' (Text.join "/" place)
        rw [htext, List.count_cons_self, List.count_cons_self] at hcount
        rw [Text.length_splitAt, Nat.succ.inj hcount, ← hsplit,
          @splitAt_join place hsegments hne]
      rw [htext, eq_join_of_resolveFrom (Nat.le_of_eq hlength) hresolve]

/-- A file seen from the working directory has a name. -/
theorem relativeTo_ne_nil {cwd : List Text} {p : Path} (hcwd : ∀ s ∈ cwd, IsName s)
    (hp : ∀ s ∈ p.segments, IsSegment s) : p.relativeTo cwd ≠ [] := by
  have hplace : ∀ s ∈ p.resolve cwd, IsName s := by
    apply isName_of_mem_resolveFrom _ hp
    split_ifs
    · exact hcwd
    · simp
  exact text_ne_nil fun s hs => (isName_of_mem_seenFrom hplace s hs).toIsSegment

end Path

end TodoLedger
