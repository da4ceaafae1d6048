import Mathlib.Data.List.Chain
import TodoLedger.Proofs.Workspace.Frame
/-!
# Operations step by step

A script is an operation as the steps that it takes, so that there is something to say about each
workspace on the way and not only about the last one. The operations on files that take more than one
step are written as scripts and are the same operations.
-/

namespace TodoLedger

open Work Workspace

/-! ## Small changes -/

namespace Workspace

/-- Nothing is put or removed, and events were only added. -/
structure SameFiles (w v : Workspace) : Prop where
  cwd : v.cwd = w.cwd
  tree : v.tree = w.tree
  events : w.events <+: v.events

instance : IsPreorder Workspace SameFiles where
  refl _ := ⟨rfl, rfl, List.prefix_refl _⟩
  trans _ _ _ h₁ h₂ := ⟨h₂.cwd.trans h₁.cwd, h₂.tree.trans h₁.tree, h₁.events.trans h₂.events⟩

theorem SameFiles.frame {touched : Place → Prop} {w v : Workspace} (h : SameFiles w v) :
    Frame touched w v := .of_tree_eq h.cwd h.tree h.events

/-- At one place at most something is put or removed. -/
def OneChange (w v : Workspace) : Prop :=
  v.cwd = w.cwd ∧ (v.tree = w.tree ∨ (∃ place node, v.tree = w.tree.put place node) ∨
    ∃ place, v.tree = w.tree.remove place)

instance : Std.Refl OneChange := ⟨fun _ => ⟨rfl, Or.inl rfl⟩⟩

theorem SameFiles.oneChange {w v : Workspace} (h : SameFiles w v) : OneChange w v :=
  ⟨h.cwd, Or.inl h.tree⟩

end Workspace

namespace Work

variable {w : Workspace} {p : Path}

theorem sameFiles_report (e : Event) (w : Workspace) : SameFiles w ((report e).runOn w).2 :=
  ⟨rfl, rfl, List.prefix_append _ _⟩

theorem sameFiles_now (w : Workspace) : SameFiles w (now.runOn w).2 :=
  ⟨rfl, rfl, List.prefix_refl _⟩

theorem oneChange_change {f : Workspace → Except Fault Workspace}
    (h : ∀ v, f w = .ok v → OneChange w v) : OneChange w ((change f).runOn w).2 := by
  rw [runOn_change]
  cases hf : f w with
  | error fault => exact refl w
  | ok v => exact h v hf

theorem oneChange_writeBytes (p : Path) (bytes : Bytes) (w : Workspace) :
    OneChange w ((writeBytes p bytes).runOn w).2 := by
  refine oneChange_change fun v hv => ?_
  obtain ⟨place, -, -, -, rfl⟩ := withContent_eq_ok_iff.mp hv
  exact ⟨rfl, Or.inr (Or.inl ⟨place, _, rfl⟩)⟩

theorem oneChange_deleteFile (p : Path) (w : Workspace) :
    OneChange w ((deleteFile p).runOn w).2 := by
  refine oneChange_change fun v hv => ?_
  obtain ⟨place, -, -, -, rfl⟩ := withoutFile_eq_ok_iff.mp hv
  exact ⟨rfl, Or.inr (Or.inr ⟨place, rfl⟩)⟩

theorem oneChange_ensureDirectory (p : Path) (w : Workspace) :
    OneChange w ((ensureDirectory p).runOn w).2 := by
  rw [ensureDirectory, runOn_tryCatch, runOn_change]
  cases hmade : w.withDirectory p with
  | ok v =>
      obtain ⟨place, -, -, rfl⟩ := withDirectory_eq_ok_iff.mp hmade
      exact ⟨rfl, Or.inr (Or.inl ⟨place, _, rfl⟩)⟩
  | error fault =>
      -- What follows a failure only looks.
      refine SameFiles.oneChange ?_
      simp only
      split
      · exact refl w
      · refine moves_bind (moves_of_unchanged (by rw [runOn_isDirectory])) fun there w₁ _ _ => ?_
        split
        · exact refl w₁
        · exact refl w₁
      · exact refl w

end Work

/-! ## Scripts -/

/-- An operation that is put together of steps, each of which is taken at once. -/
inductive Script : Type → Type 1
  | step {α : Type} (x : Work α) : Script α
  | bind {α β : Type} (x : Script α) (f : α → Script β) : Script β
  | handle {α : Type} (x : Script α) (handler : Fault → Script α) : Script α

namespace Script

variable {α β : Type} {w w₁ v : Workspace} {P Q : Workspace → Prop}

instance : Monad Script where
  pure a := .step (pure a)
  bind := .bind

instance : MonadLift Work Script := ⟨.step⟩

instance : MonadExceptOf Fault Script where
  throw fault := .step (throw fault)
  tryCatch := .handle

/-- The operation. -/
def work {α : Type} : Script α → Work α
  | .step x => x
  | .bind x f => x.work >>= fun a => (f a).work
  | .handle x handler => tryCatch x.work fun fault => (handler fault).work
termination_by structural x => x

/-- The workspaces behind the steps. -/
def points {α : Type} : Script α → Workspace → List Workspace
  | .step x, w => [(x.runOn w).2]
  | .bind x f, w => x.points w ++
    match x.work.runOn w with
    | (.ok a, w₁) => (f a).points w₁
    | (.error _, _) => []
  | .handle x handler, w => x.points w ++
    match x.work.runOn w with
    | (.ok _, _) => []
    | (.error fault, w₁) => (handler fault).points w₁
termination_by structural x => x

@[simp] theorem work_pure (a : α) : (pure a : Script α).work = pure a := rfl

@[simp] theorem work_lift (x : Work α) : (liftM x : Script α).work = x := rfl

@[simp] theorem work_bind (x : Script α) (f : α → Script β) :
    (x >>= f).work = x.work >>= fun a => (f a).work := rfl

@[simp] theorem work_throw (fault : Fault) : (throw fault : Script α).work = throw fault := rfl

@[simp] theorem work_tryCatch (x : Script α) (handler : Fault → Script α) :
    (tryCatch x handler).work = tryCatch x.work fun fault => (handler fault).work := rfl

theorem points_bind (x : Script α) (f : α → Script β) (w : Workspace) :
    (x >>= f).points w = x.points w ++
      match x.work.runOn w with
      | (.ok a, w₁) => (f a).points w₁
      | (.error _, _) => [] := by
  change (Script.bind x f).points w = _
  rw [points]

theorem points_tryCatch (x : Script α) (handler : Fault → Script α) (w : Workspace) :
    (tryCatch x handler).points w = x.points w ++
      match x.work.runOn w with
      | (.ok _, _) => []
      | (.error fault, w₁) => (handler fault).points w₁ := by
  change (Script.handle x handler).points w = _
  rw [points]

/-- The last of the workspaces is the one that the operation leaves. -/
theorem getLast?_points (x : Script α) (w : Workspace) :
    (x.points w).getLast? = some (x.work.runOn w).2 := by
  induction x generalizing w with
  | step x => rfl
  | bind x f ihx ihf =>
      rw [work, points, runOn_bind, List.getLast?_append]
      have hfirst := ihx w
      rcases hrun : x.work.runOn w with ⟨fault | a, w₁⟩
      · rw [hrun] at hfirst
        exact hfirst
      · rw [ihf a w₁]
        rfl
  | handle x handler ihx ihh =>
      rw [work, points, runOn_tryCatch, List.getLast?_append]
      have hfirst := ihx w
      rcases hrun : x.work.runOn w with ⟨fault | a, w₁⟩
      · rw [ihh fault w₁]
        rfl
      · rw [hrun] at hfirst
        exact hfirst

theorem runOn_mem_points (x : Script α) (w : Workspace) : (x.work.runOn w).2 ∈ x.points w :=
  List.mem_of_getLast? (x.getLast?_points w)

/-! ## From each workspace to the next -/

/-- Every step leads from the workspace in which it is taken to a related one. -/
def Steps (r : Workspace → Workspace → Prop) {α : Type} : Script α → Prop
  | .step x => ∀ w, r w (x.runOn w).2
  | .bind x f => x.Steps r ∧ ∀ a, (f a).Steps r
  | .handle x handler => x.Steps r ∧ ∀ fault, (handler fault).Steps r
termination_by structural x => x

section Steps

variable {r : Workspace → Workspace → Prop} {x : Script α} {f : α → Script β}
  {handler : Fault → Script α}

theorem Steps.lift {x : Work α} (h : ∀ w, r w (x.runOn w).2) : (liftM x : Script α).Steps r := h

theorem Steps.pure [Std.Refl r] (a : α) : (pure a : Script α).Steps r := refl

theorem Steps.throw [Std.Refl r] (fault : Fault) : (throw fault : Script α).Steps r := refl

theorem Steps.bind (hx : x.Steps r) (hf : ∀ a, (f a).Steps r) : (x >>= f).Steps r := ⟨hx, hf⟩

theorem Steps.tryCatch (hx : x.Steps r) (hh : ∀ fault, (handler fault).Steps r) :
    (tryCatch x handler).Steps r := ⟨hx, hh⟩

/-- A sequence may be ended by a refusal. -/
theorem Steps.refuse [Std.Refl r] {c : Prop} [Decidable c] {fault : Fault} {rest : PUnit → Script β}
    (h : ∀ u, (rest u).Steps r) :
    (if c then (MonadExcept.throw fault : Script PUnit) >>= rest else rest ⟨⟩).Steps r := by
  split_ifs
  · exact .bind (.throw fault) h
  · exact h ⟨⟩

private theorem isChain_append {l₁ l₂ : List Workspace} (h₁ : (w :: l₁).IsChain r)
    (hlast : l₁.getLast? = some v) (h₂ : (v :: l₂).IsChain r) : (w :: (l₁ ++ l₂)).IsChain r := by
  obtain ⟨front, rfl⟩ := List.getLast?_eq_some_iff.mp hlast
  rw [List.append_assoc, List.singleton_append]
  exact List.isChain_cons_split.mpr ⟨h₁, h₂⟩

/-- What relates the ends of every step relates each workspace on the way to the next. -/
theorem Steps.isChain (h : x.Steps r) (w : Workspace) : (w :: x.points w).IsChain r := by
  induction x generalizing w with
  | step x => exact .cons_cons (h w) (.singleton _)
  | bind x f ihx ihf =>
      have hfirst := ihx h.1 w
      have hlast := x.getLast?_points w
      rw [points]
      rcases hrun : x.work.runOn w with ⟨fault | a, w₁⟩
      · rwa [List.append_nil]
      · rw [hrun] at hlast
        exact isChain_append hfirst hlast (ihf a (h.2 a) w₁)
  | handle x handler ihx ihh =>
      have hfirst := ihx h.1 w
      have hlast := x.getLast?_points w
      rw [points]
      rcases hrun : x.work.runOn w with ⟨fault | a, w₁⟩
      · rw [hrun] at hlast
        exact isChain_append hfirst hlast (ihh fault (h.2 fault) w₁)
      · rwa [List.append_nil]

end Steps

@[simp] theorem mem_points_lift_iff {x : Work α} :
    v ∈ (liftM x : Script α).points w ↔ v = (x.runOn w).2 := List.mem_singleton

theorem mem_points_bind_iff {x : Script α} {f : α → Script β} : v ∈ (x >>= f).points w ↔
    v ∈ x.points w ∨ ∃ a w₁, x.work.runOn w = (.ok a, w₁) ∧ v ∈ (f a).points w₁ := by
  rw [points_bind, List.mem_append]
  rcases x.work.runOn w with ⟨fault | a, w₁⟩ <;> simp

theorem mem_points_tryCatch_iff {x : Script α} {handler : Fault → Script α} :
    v ∈ (tryCatch x handler).points w ↔ v ∈ x.points w ∨
      ∃ fault w₁, x.work.runOn w = (.error fault, w₁) ∧ v ∈ (handler fault).points w₁ := by
  rw [points_tryCatch, List.mem_append]
  rcases x.work.runOn w with ⟨fault | a, w₁⟩ <;> simp

/-! ## What holds on the way -/

/-- Every workspace on the way has the one property, and the last one has the other. -/
structure Through (P Q : Workspace → Prop) (x : Script α) (w : Workspace) : Prop where
  points : ∀ v ∈ x.points w, P v
  last : Q (x.work.runOn w).2

variable {x : Script α} {f : α → Script β} {handler : Fault → Script α} {P' Q' : Workspace → Prop}

theorem Through.mono (h : Through P Q x w) (hP : ∀ v, P v → P' v) (hQ : ∀ v, Q v → Q' v) :
    Through P' Q' x w := ⟨fun v hv => hP v (h.points v hv), hQ _ h.last⟩

/-- What holds everywhere holds at the end. -/
theorem through_of_points (h : ∀ v ∈ x.points w, P v) : Through P P x w :=
  ⟨h, h _ (x.runOn_mem_points w)⟩

theorem through_lift {x : Work α} (h : P (x.runOn w).2) : Through P P (liftM x : Script α) w := by
  refine through_of_points fun v hv => ?_
  rw [mem_points_lift_iff.mp hv]
  exact h

theorem through_pure {a : α} (h : P w) : Through P P (pure a : Script α) w := through_lift h

theorem through_throw {fault : Fault} (h : P w) : Through P P (throw fault : Script α) w :=
  through_lift h

/-- What is known of a part of a sequence may depend on where all its points lie. -/
theorem through_bind_of_subset {all : List Workspace} (hall : ∀ v ∈ (x >>= f).points w, v ∈ all)
    (hx : Through P Q x w)
    (hf : ∀ a w₁, x.work.runOn w = (.ok a, w₁) → (∀ v ∈ (f a).points w₁, v ∈ all) → Q w₁ →
      Through P Q (f a) w₁) : Through P Q (x >>= f) w := by
  have hrest : ∀ a w₁, x.work.runOn w = (.ok a, w₁) → Q w₁ → Through P Q (f a) w₁ :=
    fun a w₁ hrun hlast => hf a w₁ hrun
      (fun v hv => hall v (mem_points_bind_iff.mpr (Or.inr ⟨a, w₁, hrun, hv⟩))) hlast
  constructor
  · intro v hv
    rcases mem_points_bind_iff.mp hv with hv | ⟨a, w₁, hrun, hv⟩
    · exact hx.points v hv
    · have hlast := hx.last
      rw [hrun] at hlast
      exact (hrest a w₁ hrun hlast).points v hv
  · rw [work_bind]
    exact leaves_bind hx.last fun a w₁ hrun hlast => (hrest a w₁ hrun hlast).last

theorem through_bind (hx : Through P Q x w)
    (hf : ∀ a w₁, x.work.runOn w = (.ok a, w₁) → Q w₁ → Through P Q (f a) w₁) :
    Through P Q (x >>= f) w :=
  through_bind_of_subset (fun _ hv => hv) hx fun a w₁ hrun _ => hf a w₁ hrun

theorem through_tryCatch (hx : Through P Q x w)
    (hh : ∀ fault w₁, x.work.runOn w = (.error fault, w₁) → Q w₁ →
      Through P Q (handler fault) w₁) : Through P Q (tryCatch x handler) w := by
  have hlast := hx.last
  constructor
  · intro v hv
    rcases mem_points_tryCatch_iff.mp hv with hv | ⟨fault, w₁, hrun, hv⟩
    · exact hx.points v hv
    · rw [hrun] at hlast
      exact (hh fault w₁ hrun hlast).points v hv
  · rw [work_tryCatch, runOn_tryCatch]
    rcases hrun : x.work.runOn w with ⟨fault | a, w₁⟩
    · rw [hrun] at hlast
      exact (hh fault w₁ hrun hlast).last
    · rw [hrun] at hlast
      exact hlast

/-! ## Files -/

section Files

variable {p : Path} {t : Text}

/-- Replacing the text of a file in two steps. -/
def writeText (p : Path) (t : Text) : Script Unit := do
  writeBytes p []
  match Utf8.encode t with
  | .ok bytes => writeBytes p bytes
  | .error f => throw (.encoding f)

theorem work_writeText (p : Path) (t : Text) : (writeText p t).work = Work.writeText p t := by
  rw [writeText, Work.writeText]
  cases Utf8.encode t <;> rfl

theorem steps_writeText : (writeText p t).Steps OneChange := by
  rw [writeText]
  refine .bind (.lift (oneChange_writeBytes p [])) fun _ => ?_
  split
  · exact .lift (oneChange_writeBytes p _)
  · exact .throw _

/-- Adding to the end of a file, which is made first. -/
def appendText (p : Path) (t : Text) : Script Unit := do
  let old ← (do if ← isFile p then readBytes p else pure [] : Work Bytes)
  writeBytes p old
  match Utf8.encode t with
  | .ok bytes => writeBytes p (old ++ bytes)
  | .error f => throw (.encoding f)

theorem work_appendText (p : Path) (t : Text) : (appendText p t).work = Work.appendText p t := by
  rw [appendText, Work.appendText]
  simp only [work_bind, work_lift, bind_assoc]
  congr 1
  funext there
  cases there <;> cases Utf8.encode t <;> rfl

/-- A choice between reading and nothing changes nothing. -/
theorem unchanged_read {x : Work Bool} {w : Workspace} (hx : (x.runOn w).2 = w) :
    ((do if ← x then readBytes p else pure [] : Work Bytes).runOn w).2 = w := by
  rw [runOn_bind]
  rcases hrun : x.runOn w with ⟨fault | there, w₁⟩
  · rw [hrun] at hx
    exact hx
  · rw [hrun] at hx
    obtain rfl : w₁ = w := hx
    cases there with
    | false => rfl
    | true => simp

theorem steps_appendText : (appendText p t).Steps OneChange := by
  rw [appendText]
  refine .bind (.lift fun w => ?_) fun old => .bind (.lift (oneChange_writeBytes p old)) fun _ => ?_
  · rw [unchanged_read (isFile_unchanged p w)]
    exact refl w
  · split
    · exact .lift (oneChange_writeBytes p _)
    · exact .throw _

/-- Making directories one by one. -/
def ensureDirectories (p : Path) : Script Unit := do
  try ensureDirectory p
  catch fault =>
    match fault with
    | .file ⟨.notFound, _⟩ =>
      if _h : p.segments = [] then throw fault
      else do
        ensureDirectories p.parent
        ensureDirectory p
    | _ => throw fault
termination_by p.segments.length
decreasing_by
  have := List.length_pos_iff.mpr _h
  simp [Path.parent]
  omega

theorem work_ensureDirectories (p : Path) :
    (ensureDirectories p).work = Work.ensureDirectories p := by
  fun_induction Script.ensureDirectories p with
  | case1 p ih =>
    rw [Work.ensureDirectories, work_tryCatch, work_lift]
    congr 1
    funext fault
    cases fault with
    | file f =>
        obtain ⟨cause, q⟩ := f
        cases cause with
        | notFound =>
            simp only
            split_ifs with hnil
            · rfl
            · rw [work_bind, ih hnil]
              rfl
        | _ => rfl
    | _ => rfl

theorem steps_ensureDirectories : (ensureDirectories p).Steps OneChange := by
  fun_induction Script.ensureDirectories p with
  | case1 p ih =>
    refine .tryCatch (.lift (oneChange_ensureDirectory p)) fun fault => ?_
    split
    · split_ifs with hnil
      · exact .throw _
      · exact .bind (ih hnil) fun _ => .lift (oneChange_ensureDirectory p)
    · exact .throw _

/-- What is kept wherever a directory is made holds while directories are made one by one. -/
theorem through_ensureDirectories (h : ∀ p v, P v → P ((ensureDirectory p).runOn v).2) (p : Path)
    (hw : P w) : Through P P (ensureDirectories p) w := by
  fun_induction Script.ensureDirectories p generalizing w with
  | case1 p ih =>
    refine through_tryCatch (through_lift (h p w hw)) fun fault w₁ _ h₁ => ?_
    split
    · split_ifs with hnil
      · exact through_throw h₁
      · exact through_bind (ih hnil h₁) fun _ w₂ _ h₂ => through_lift (h p w₂ h₂)
    · exact through_throw h₁

end Files

end Script

end TodoLedger
