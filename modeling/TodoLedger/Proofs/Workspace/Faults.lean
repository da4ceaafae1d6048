import TodoLedger.Proofs.Text.OneLine
import TodoLedger.Proofs.Workspace.Run
/-!
# How file operations fail

An operation on files fails only because a path cannot be written, holds a null character or is
refused by the system. Whatever puts such operations together fails in no other way.
-/

namespace TodoLedger

/-- The fault of an operation on files. -/
inductive Fault.IsOfFiles : Fault → Prop
  | encoding (f : EncodingFault) : IsOfFiles (.encoding f)
  | nullByte : IsOfFiles .nullByte
  | file (f : FileFault) : IsOfFiles (.file f)

/-- The names on the path have bytes. -/
def Path.IsEncodable (p : Path) : Prop :=
  ∀ s ∈ p.segments, ∀ c ∈ s, Utf8.isEncodable c = true

theorem Path.IsEncodable.exists_encode {p : Path} (h : p.IsEncodable) :
    ∃ bytes, Utf8.encode p.text = .ok bytes := by
  have hanchor : ∀ a, ∀ c ∈ anchorText a, Utf8.isEncodable c = true := by
    intro a
    cases a <;> decide
  have hslash : ∀ c ∈ ("/" : Text), Utf8.isEncodable c = true := by decide
  refine ⟨_, Utf8.encode_eq ?_⟩
  rw [text]
  split_ifs
  · decide
  · intro c hc
    rcases List.mem_append.mp hc with hc | hc
    · exact hanchor _ c hc
    · rcases Text.mem_join hc with hc | ⟨s, hs, hc⟩
      · exact hslash c hc
      · exact h s hs c hc

/-- The class has every fault in which an operation on the file at a path can end. -/
structure Fault.Admits (P : Fault → Prop) (p : Path) : Prop where
  file : ∀ f, P (.file f)
  nullByte : P .nullByte
  encoding : ∀ f, ¬p.IsEncodable → P (.encoding f)

theorem Fault.admits_isOfFiles (p : Path) : Admits IsOfFiles p :=
  ⟨.file, .nullByte, fun f _ => .encoding f⟩

theorem Fault.Admits.of_isOfFiles {P : Fault → Prop} (h : ∀ f, IsOfFiles f → P f) (p : Path) :
    Admits P p := ⟨fun f => h _ (.file f), h _ .nullByte, fun f _ => h _ (.encoding f)⟩

theorem Fault.Admits.parent {P : Fault → Prop} {p : Path} (h : Admits P p) : Admits P p.parent where
  file := h.file
  nullByte := h.nullByte
  encoding := by
    intro f hnot
    apply h.encoding f
    intro hp
    apply hnot
    intro s hs
    exact hp s (List.dropLast_subset _ hs)

theorem Fault.IsOfFiles.kind_ne {f : Fault} (h : f.IsOfFiles) :
    f.kind ≠ ("InvalidOperationError" : Text) := by
  cases h with
  | encoding f =>
      change ("UnicodeEncodeError" : Text) ≠ ("InvalidOperationError" : Text)
      decide
  | nullByte => decide
  | file f =>
      change f.cause.kind ≠ ("InvalidOperationError" : Text)
      cases f.cause with
      | sameFile source =>
          change ("SameFileError" : Text) ≠ ("InvalidOperationError" : Text)
          decide
      | _ => decide

theorem Fault.IsOfFiles.isReported_or {f : Fault} (h : f.IsOfFiles) :
    f.isReported = true ∨ f = .nullByte := by
  cases h with
  | encoding f => exact Or.inl rfl
  | nullByte => exact Or.inr rfl
  | file f => exact Or.inl rfl

namespace Work

variable {α β : Type} {P : Fault → Prop} {w : Workspace} {p : Path}

/-- If the operation fails here, then with a fault of the class. -/
def FailsIn (P : Fault → Prop) (x : Work α) (w : Workspace) : Prop :=
  ∀ f w', x.runOn w = (.error f, w') → P f

theorem failsIn_pure (a : α) : FailsIn P (pure a : Work α) w := by
  intro f w' h
  cases h

theorem failsIn_throw {f : Fault} (h : P f) : FailsIn P (throw f : Work α) w := by
  intro f' w' hrun
  cases hrun
  exact h

theorem failsIn_bind {x : Work α} {g : α → Work β} (hx : FailsIn P x w)
    (hg : ∀ a w₁, x.runOn w = (.ok a, w₁) → FailsIn P (g a) w₁) : FailsIn P (x >>= g) w := by
  intro f w' h
  rw [runOn_bind] at h
  rcases hrun : x.runOn w with ⟨f₁ | a, w₁⟩
  · rw [hrun] at h
    cases h
    exact hx f w' hrun
  · rw [hrun] at h
    exact hg a w₁ hrun f w' h

/-- What fails in one class may be handled so that it fails in another one. -/
theorem failsIn_handled {P' : Fault → Prop} {x : Work α} {handler : Fault → Work α}
    (hx : FailsIn P' x w)
    (hh : ∀ f w₁, x.runOn w = (.error f, w₁) → P' f → FailsIn P (handler f) w₁) :
    FailsIn P (tryCatch x handler) w := by
  intro f w' h
  rw [runOn_tryCatch] at h
  rcases hrun : x.runOn w with ⟨f₁ | a, w₁⟩
  · rw [hrun] at h
    exact hh f₁ w₁ hrun (hx f₁ w₁ hrun) f w' h
  · rw [hrun] at h
    cases h

theorem failsIn_tryCatch {x : Work α} {handler : Fault → Work α} (hx : FailsIn P x w)
    (hh : ∀ f w₁, x.runOn w = (.error f, w₁) → P f → FailsIn P (handler f) w₁) :
    FailsIn P (tryCatch x handler) w := failsIn_handled hx hh

theorem failsIn_mapM {f : α → Work β} {as : List α} (h : ∀ a ∈ as, ∀ w, FailsIn P (f a) w)
    (w : Workspace) : FailsIn P (as.mapM f) w := by
  induction as generalizing w with
  | nil => exact failsIn_pure _
  | cons a as ih =>
      obtain ⟨hone, hrest⟩ := List.forall_mem_cons.mp h
      rw [List.mapM_cons]
      exact failsIn_bind (hone w) fun _ w₁ _ => failsIn_bind (ih hrest w₁) fun _ _ _ => failsIn_pure _

theorem failsIn_ask {f : Workspace → Except Fault α} (h : ∀ fault, f w = .error fault → P fault) :
    FailsIn P (ask f) w := by
  intro fault w' hrun
  rw [runOn_ask] at hrun
  exact h fault (Prod.mk.inj hrun).1

theorem failsIn_change {f : Workspace → Except Fault Workspace}
    (h : ∀ fault, f w = .error fault → P fault) : FailsIn P (change f) w := by
  intro fault w' hrun
  rw [runOn_change] at hrun
  cases hf : f w with
  | ok v =>
      rw [hf] at hrun
      cases hrun
  | error fault' =>
      rw [hf] at hrun
      cases hrun
      exact h fault hf

theorem failsIn_of_ok {x : Work α} {a : α} {w' : Workspace} (h : x.runOn w = (.ok a, w')) :
    FailsIn P x w := by
  intro f w₁ hrun
  rw [h] at hrun
  cases hrun

/-! ## File operations -/

private theorem of_locate {f : Fault} (hp : Fault.Admits P p) (h : w.locate p = .error f) : P f := by
  rw [Workspace.locate] at h
  split at h
  · rename_i fault hencode
    cases h
    apply hp.encoding
    intro hencodable
    obtain ⟨bytes, hbytes⟩ := hencodable.exists_encode
    rw [hbytes] at hencode
    cases hencode
  · split_ifs at h
    · cases h
      exact hp.nullByte
    all_goals
      split at h
      · cases h
      · cases h
        exact hp.file _

private theorem of_node? {f : Fault} (hp : Fault.Admits P p) (h : w.node? p = .error f) : P f := by
  rw [Workspace.node?] at h
  split at h
  · cases h
  · cases h
    exact hp.file _
  · cases h

private theorem of_locate_bind {f : Fault} {g : Place → Except Fault α} (hp : Fault.Admits P p)
    (h : w.locate p >>= g = .error f) (hg : ∀ place f, g place = .error f → P f) : P f := by
  cases hlocate : w.locate p with
  | error f' =>
      rw [hlocate] at h
      cases h
      exact of_locate hp hlocate
  | ok place =>
      rw [hlocate] at h
      exact hg place f h

section FileOperations

variable (hp : Fault.Admits P p)

include hp

theorem failsIn_locate : FailsIn P (ask (·.locate p)) w :=
  failsIn_ask fun _ => of_locate hp

theorem failsIn_node? : FailsIn P (node? p) w :=
  failsIn_ask fun _ => of_node? hp

theorem failsIn_isFile : FailsIn P (isFile p) w :=
  failsIn_bind (failsIn_node? hp) fun n w₁ _ => by
    split <;> exact failsIn_pure _

theorem failsIn_isDirectory : FailsIn P (isDirectory p) w :=
  failsIn_bind (failsIn_node? hp) fun _ _ _ => failsIn_pure _

theorem failsIn_pathExists : FailsIn P (pathExists p) w :=
  failsIn_bind (failsIn_node? hp) fun _ _ _ => failsIn_pure _

theorem failsIn_readBytes : FailsIn P (readBytes p) w := by
  refine failsIn_ask fun f h => of_locate_bind hp h fun place f h => ?_
  split at h
  · cases h
    exact hp.file _
  · cases h
    exact hp.file _
  · cases h

theorem failsIn_writeBytes (bytes : Bytes) : FailsIn P (writeBytes p bytes) w := by
  refine failsIn_change fun f h => of_locate_bind hp h fun place f h => ?_
  split_ifs at h
  · cases h
    exact hp.file _
  · cases h
    exact hp.file _

/-- A text is written or appended as the file operations allow, provided that it can be encoded. -/
theorem failsIn_writeText {t : Text} (ht : ∀ f, Utf8.encode t = .error f → P (.encoding f)) :
    FailsIn P (writeText p t) w := by
  refine failsIn_bind (failsIn_writeBytes hp []) fun _ w₁ _ => ?_
  split
  · exact failsIn_writeBytes hp _
  · rename_i f hf
    exact failsIn_throw (ht f hf)

theorem failsIn_deleteFile : FailsIn P (deleteFile p) w := by
  refine failsIn_change fun f h => of_locate_bind hp h fun place f h => ?_
  split at h
  · cases h
    exact hp.file _
  · cases h
    exact hp.file _
  · cases h

theorem failsIn_ensureDirectory : FailsIn P (ensureDirectory p) w := by
  refine failsIn_tryCatch ?_ fun f w₁ _ hf => ?_
  · refine failsIn_change fun f h => of_locate_bind hp h fun place f h => ?_
    split_ifs at h
    cases h
    exact hp.file _
  · split
    · exact failsIn_throw hf
    · refine failsIn_bind (failsIn_isDirectory hp) fun there w₂ _ => ?_
      split_ifs
      · exact failsIn_pure _
      · exact failsIn_throw hf
    · exact failsIn_throw hf

theorem failsIn_ensureDirectories : FailsIn P (ensureDirectories p) w := by
  induction hn : p.segments.length generalizing p w with
  | zero =>
      have hnil : p.segments = [] := List.length_eq_zero_iff.mp hn
      rw [ensureDirectories]
      refine failsIn_tryCatch (failsIn_ensureDirectory hp) fun f w₁ _ hf => ?_
      split
      · rw [dif_pos hnil]
        exact failsIn_throw hf
      · exact failsIn_throw hf
  | succ n ih =>
      rw [ensureDirectories]
      refine failsIn_tryCatch (failsIn_ensureDirectory hp) fun f w₁ _ hf => ?_
      split
      · split_ifs
        · exact failsIn_throw hf
        · have hparent : p.parent.segments.length = n := by simp [Path.parent, hn]
          exact failsIn_bind (ih hp.parent hparent) fun _ _ _ => failsIn_ensureDirectory hp
      · exact failsIn_throw hf

end FileOperations

end Work

end TodoLedger
