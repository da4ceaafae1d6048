import TodoLedger.Workspace
import Mathlib.Order.Defs.Unbundled
import Mathlib.Tactic.Common
/-!
# Running operations

An operation runs from a workspace to an outcome and a workspace. The rules for sequences, handlers
and the elementary operations are stated for `runOn`. A preorder on workspaces that every step of an
operation moves along is moved along by the whole of it, however it ends.
-/

namespace TodoLedger.Work

variable {α β : Type} {w w₁ w' : Workspace}

/-- The outcome of an operation and the workspace that it leaves. -/
def runOn (x : Work α) (w : Workspace) : Except Fault α × Workspace := x.run.run w

/-! ## Sequences and handlers -/

@[simp] theorem runOn_pure (a : α) : (pure a : Work α).runOn w = (.ok a, w) := rfl

@[simp] theorem runOn_throw (f : Fault) : (throw f : Work α).runOn w = (.error f, w) := rfl

theorem runOn_bind (x : Work α) (f : α → Work β) : (x >>= f).runOn w =
    match x.runOn w with
    | (.ok a, w₁) => (f a).runOn w₁
    | (.error fault, w₁) => (.error fault, w₁) := by
  rcases hx : x.runOn w with ⟨r, w₁⟩
  rw [runOn] at hx ⊢
  rw [ExceptT.run_bind, StateT.run_bind, hx]
  cases r <;> rfl

theorem runOn_bind_of_ok {x : Work α} {f : α → Work β} {a : α} (h : x.runOn w = (.ok a, w₁)) :
    (x >>= f).runOn w = (f a).runOn w₁ := by
  rw [runOn_bind, h]

theorem runOn_bind_of_error {x : Work α} {f : α → Work β} {fault : Fault}
    (h : x.runOn w = (.error fault, w₁)) : (x >>= f).runOn w = (.error fault, w₁) := by
  rw [runOn_bind, h]

/-- A sequence that ends well has done so in both parts. -/
theorem runOn_bind_eq_ok_iff {x : Work α} {f : α → Work β} {b : β} :
    (x >>= f).runOn w = (.ok b, w') ↔
      ∃ a w₁, x.runOn w = (.ok a, w₁) ∧ (f a).runOn w₁ = (.ok b, w') := by
  rw [runOn_bind]
  rcases hx : x.runOn w with ⟨fault | a, w₁⟩
  · simp
  · constructor
    · intro h
      exact ⟨a, w₁, rfl, h⟩
    · rintro ⟨a', w₁', h, hf⟩
      cases h
      exact hf

theorem runOn_tryCatch (x : Work α) (handler : Fault → Work α) :
    (tryCatch x handler).runOn w =
    match x.runOn w with
    | (.ok a, w₁) => (.ok a, w₁)
    | (.error fault, w₁) => (handler fault).runOn w₁ := by
  rcases hx : x.runOn w with ⟨r, w₁⟩
  rw [runOn] at hx ⊢
  rw [ExceptT.run_tryCatch, StateT.run_bind, hx]
  cases r <;> rfl

theorem runOn_mapM_cons_of_ok {f : α → Work β} {a : α} {as : List α} {b : β}
    (h : (f a).runOn w = (.ok b, w₁)) : ((a :: as).mapM f).runOn w =
      (((as.mapM f).runOn w₁).1.map (b :: ·), ((as.mapM f).runOn w₁).2) := by
  rw [List.mapM_cons, runOn_bind_of_ok h, runOn_bind]
  rcases (as.mapM f).runOn w₁ with ⟨_ | bs, w₂⟩ <;> rfl

theorem runOn_mapM_cons_eq_ok {f : α → Work β} {a : α} {as : List α} {bs : List β}
    (h : ((a :: as).mapM f).runOn w = (.ok bs, w')) :
    ∃ b w₁ rest, (f a).runOn w = (.ok b, w₁) ∧ (as.mapM f).runOn w₁ = (.ok rest, w') ∧
      bs = b :: rest := by
  rw [List.mapM_cons, runOn_bind_eq_ok_iff] at h
  obtain ⟨b, w₁, hone, h⟩ := h
  obtain ⟨rest, w₂, hrest, h⟩ := runOn_bind_eq_ok_iff.mp h
  obtain ⟨hbs, rfl⟩ := Prod.mk.inj h
  exact ⟨b, w₁, rest, hone, hrest, (Except.ok.inj hbs).symm⟩

/-! ## Elementary operations -/

@[simp] theorem runOn_get : (get : Work Workspace).runOn w = (.ok w, w) := rfl

@[simp] theorem runOn_set (v : Workspace) : (set v : Work PUnit).runOn w = (.ok ⟨⟩, v) := rfl

@[simp] theorem runOn_modify (g : Workspace → Workspace) :
    (modify g : Work PUnit).runOn w = (.ok ⟨⟩, g w) := rfl

@[simp] theorem runOn_report (e : Event) :
    (report e).runOn w = (.ok (), { w with events := w.events ++ [e] }) := rfl

@[simp] theorem runOn_print (t : Text) :
    (print t).runOn w = (.ok (), { w with output := w.output ++ t }) := rfl

@[simp] theorem runOn_now : now.runOn w = (.ok w.clock, { w with clock := w.clock.next }) := rfl

@[simp] theorem runOn_nextToken :
    nextToken.runOn w = (.ok (w.token 0), { w with tokens := w.tokens + 1 }) := rfl

@[simp] theorem runOn_cwd : cwd.runOn w = (.ok w.cwd, w) := rfl

@[simp] theorem runOn_ask (f : Workspace → Except Fault α) : (ask f).runOn w = (f w, w) := by
  rw [ask, runOn_bind_of_ok runOn_get]
  cases f w <;> rfl

theorem runOn_change (f : Workspace → Except Fault Workspace) :
    (change f).runOn w =
      match f w with
      | .ok v => (.ok (), v)
      | .error fault => (.error fault, w) := by
  rw [change, runOn_bind, runOn_ask]
  cases f w <;> rfl

@[simp] theorem runOn_node? (p : Path) : (node? p).runOn w = (w.node? p, w) := runOn_ask _

@[simp] theorem runOn_readBytes (p : Path) : (readBytes p).runOn w = (w.content p, w) := runOn_ask _

@[simp] theorem runOn_readText (p : Path) :
    (readText p).runOn w = ((w.content p).map Utf8.decode, w) := by
  rw [readText, runOn_bind, runOn_readBytes]
  cases w.content p <;> rfl

/-- What stands at a path is a file. -/
def isFileNode : Option Node → Bool
  | some (.file _) => true
  | _ => false

theorem runOn_isFile (p : Path) : (isFile p).runOn w = ((w.node? p).map isFileNode, w) := by
  rw [isFile, runOn_bind, runOn_node?]
  rcases w.node? p with fault | _ | _ | _ <;> rfl

theorem runOn_isDirectory (p : Path) :
    (isDirectory p).runOn w = ((w.node? p).map fun n => decide (n = some .directory), w) := by
  rw [isDirectory, runOn_bind, runOn_node?]
  rcases w.node? p with fault | _ | _ | _ <;> rfl

theorem runOn_pathExists (p : Path) :
    (pathExists p).runOn w = ((w.node? p).map Option.isSome, w) := by
  rw [pathExists, runOn_bind, runOn_node?]
  rcases w.node? p with fault | _ | _ | _ <;> rfl

/-- What holds after the first part of a sequence and is kept by the second holds at the end. -/
theorem leaves_bind {P : Workspace → Prop} {x : Work α} {f : α → Work β} (hx : P (x.runOn w).2)
    (hf : ∀ a w₁, x.runOn w = (.ok a, w₁) → P w₁ → P ((f a).runOn w₁).2) :
    P ((x >>= f).runOn w).2 := by
  rw [runOn_bind]
  rcases hrun : x.runOn w with ⟨fault | a, w₁⟩
  · rw [hrun] at hx
    exact hx
  · rw [hrun] at hx
    exact hf a w₁ hrun hx

/-! ## Moving along a preorder -/

section Moves

variable {r : Workspace → Workspace → Prop} [IsPreorder Workspace r]

theorem moves_bind {x : Work α} {f : α → Work β} (hx : r w (x.runOn w).2)
    (hf : ∀ a w₁, x.runOn w = (.ok a, w₁) → r w w₁ → r w₁ ((f a).runOn w₁).2) :
    r w ((x >>= f).runOn w).2 := by
  apply leaves_bind hx
  intro a w₁ hrun hfirst
  exact IsTrans.trans _ _ _ hfirst (hf a w₁ hrun hfirst)

theorem moves_tryCatch {x : Work α} {handler : Fault → Work α} (hx : r w (x.runOn w).2)
    (hh : ∀ fault w₁, x.runOn w = (.error fault, w₁) → r w w₁ →
      r w₁ ((handler fault).runOn w₁).2) :
    r w ((tryCatch x handler).runOn w).2 := by
  rw [runOn_tryCatch]
  rcases hrun : x.runOn w with ⟨fault | a, w₁⟩
  · have hfirst : r w w₁ := by simpa [hrun] using hx
    exact IsTrans.trans _ _ _ hfirst (hh fault w₁ hrun hfirst)
  · simpa [hrun] using hx

/-- An operation that leaves the workspace as it is moves along every preorder. -/
theorem moves_of_unchanged {x : Work α} (h : (x.runOn w).2 = w) : r w (x.runOn w).2 := by
  rw [h]
  exact Std.Refl.refl w

end Moves

end TodoLedger.Work
