import TodoLedger.Proofs.Workspace.Run
import TodoLedger.Snapshot
/-!
# Sample workspaces

Workspaces that hold given files, and what a user makes of them between two runs. The theorems about
runs are applied to them.
-/

namespace TodoLedger

/-- An outcome with some property can be looked for by computing the outcome. -/
instance Except.decidableExistsOk {ε α : Type} (e : Except ε α) (P : α → Prop) [DecidablePred P] :
    Decidable (∃ a, e = .ok a ∧ P a) :=
  match e with
  | .ok a => decidable_of_iff (P a) (by simp)
  | .error _ => isFalse (by simp)

namespace Workspace

/-- A directory with some files in it, in which nobody has worked yet. -/
def ofFiles (cwd : Place) (files : List (Text × Text)) : Workspace where
  tree := files.foldl (fun t f => t.addFile (cwd ++ [f.1]) (f.2.flatMap Utf8.encodeRune))
    (Tree.empty.addDirectories cwd)
  cwd
  clock := ⟨2025, 12, 18, 14, 30, 45, 0, by decide, by decide⟩
  tokens := 0
  environment := []
  input := []
  output := []
  errors := []
  events := []

/-- The text of the file at a path, or nothing. -/
def textAt (w : Workspace) (p : Path) : Text :=
  match w.content p with
  | .ok bytes => Utf8.decode bytes
  | .error _ => []

theorem length_lt_of_textAt {w : Workspace} {ps : List Path} {n : Nat}
    (h : ∀ p ∈ ps, (w.textAt p).length < n) :
    ∀ p ∈ ps, ∀ bytes, w.content p = .ok bytes → (Utf8.decode bytes).length < n := by
  intro p hp bytes hcontent
  have hshort := h p hp
  rw [textAt, hcontent] at hshort
  exact hshort

end Workspace

end TodoLedger
