import TodoLedger.Proofs.Path
import TodoLedger.Proofs.Text.OneLine
import TodoLedger.Proofs.Workspace.Tree
/-!
# Trees that a system can have

In a file system everything stands in a directory, under a name that is short enough and has bytes.
Whatever stands at a place of such a tree is found under the absolute path of the place.
-/

namespace TodoLedger

open Utf8

/-- A name that the system can give. -/
structure Path.IsFileName (s : Text) : Prop extends Path.IsName s where
  noNull : Rune.ofNat 0 ∉ s
  short : Tree.nameBytes s ≤ Tree.maxNameBytes
  isStable : IsStable s

/-- Everything stands in a directory, under names that the system can give. -/
structure Tree.WellFormed (t : Tree) : Prop where
  parent : ∀ place node, t.find? place = some node → t.find? place.dropLast = some .directory
  names : ∀ place node, t.find? place = some node → ∀ s ∈ place, Path.IsFileName s

namespace Tree.WellFormed

variable {t : Tree} {place segments q : Place} {node : Node}

theorem directory_of_isPrefix (ht : t.WellFormed) (hnode : t.find? place = some node)
    (hq : q <+: place) (hne : q ≠ place) : t.find? q = some .directory := by
  induction place using List.reverseRecOn generalizing node with
  | nil => exact absurd (List.prefix_nil.mp hq) hne
  | append_singleton p s ih =>
      have hparent := ht.parent _ _ hnode
      rw [List.dropLast_concat] at hparent
      rcases List.prefix_concat_iff.mp hq with hsame | hshort
      · exact absurd hsame hne
      · by_cases hqp : q = p
        · rw [hqp]
          exact hparent
        · exact ih hparent hshort hqp

/-- The way to a place leads through directories. -/
theorem walk (ht : t.WellFormed) (hnode : t.find? (place ++ segments) = some node) :
    t.walk place segments = .ok (place ++ segments) := by
  induction segments generalizing place with
  | nil => rw [Tree.walk, List.append_nil]
  | cons s segments ih =>
      have hdirectory : t.find? place = some .directory :=
        ht.directory_of_isPrefix hnode (List.prefix_append _ _) (by simp)
      have hname := ht.names _ _ hnode s (by simp)
      have hrest := @ih (place ++ [s]) (by rwa [List.append_assoc])
      rw [Tree.walk, hdirectory]
      simp only [hname.ne_dotDot, if_false, Nat.not_lt.mpr hname.short]
      rw [hrest, List.append_assoc]
      rfl

end Tree.WellFormed

/-- An ASCII name without slashes and control characters, and not too long. -/
def Path.IsPlainName (s : Text) : Prop :=
  (s ≠ [] ∧ s ≠ dot ∧ s ≠ dotDot ∧ Rune.ofChar '/' ∉ s) ∧ (∀ c ∈ s, c.IsBasic) ∧
    Tree.nameBytes s ≤ Tree.maxNameBytes

instance (s : Text) : Decidable (Path.IsPlainName s) := inferInstanceAs (Decidable (_ ∧ _))

theorem Path.IsPlainName.isFileName {s : Text} (h : IsPlainName s) : IsFileName s := by
  obtain ⟨⟨hne, hdot, hdots, hslash⟩, hbasic, hshort⟩ := h
  refine ⟨⟨⟨hne, hdot, hslash⟩, hdots⟩, fun hnull => ?_, hshort,
    (Text.fitsLine_of_basic hbasic).isStable⟩
  exact absurd (hbasic _ hnull) (by decide)

/-- A tree whose entries stand in directories under plain names is one that a system can have. -/
theorem Tree.wellFormed_of_plain {t : Tree} (h : ∀ e ∈ t.nodes,
    t.find? e.1.dropLast = some .directory ∧ ∀ s ∈ e.1, Path.IsPlainName s) : t.WellFormed := by
  constructor
  · intro place node hnode
    by_cases hne : place = []
    · rw [hne]
      rfl
    · exact (h _ (mem_nodes_of_find? hne hnode)).1
  · intro place node hnode s hs
    have hne : place ≠ [] := by
      rintro rfl
      cases hs
    exact ((h _ (mem_nodes_of_find? hne hnode)).2 s hs).isFileName

namespace Path

variable {place : Place} {p : Path}

private theorem isStable_slash_cons {t : Text} (h : IsStable t) :
    IsStable (Rune.ofChar '/' :: t) := (isStable_cons (by decide) (by decide)).mpr h

private theorem isStable_anchorText_append (a : Anchor) {t : Text} (h : IsStable t) :
    IsStable (anchorText a ++ t) := by
  cases a with
  | relative => exact h
  | root => exact isStable_slash_cons h
  | doubleRoot => exact isStable_slash_cons (isStable_slash_cons h)

/-- The text of a path with such names has bytes that are read back. -/
theorem isStable_text (h : ∀ s ∈ p.segments, IsFileName s) : IsStable p.text := by
  rw [text]
  split_ifs with hempty
  · exact (Text.fitsLine_of_basic (by decide)).isStable
  · apply isStable_anchorText_append
    exact Text.isStable_join (by decide) (by decide) fun s hs => (h s hs).isStable

theorem isStable_relativeTo {cwd : List Text} (h : ∀ s ∈ p.resolve cwd, IsFileName s) :
    IsStable (p.relativeTo cwd) := by
  apply isStable_text
  intro s hs
  rw [seenFrom] at hs
  split at hs
  · rename_i rest hbelow
    apply h
    rw [below?_eq_some_iff.mp hbelow]
    exact List.mem_append_right _ hs
  · exact h s hs

theorem noNull_text (h : ∀ s ∈ p.segments, IsFileName s) : Rune.ofNat 0 ∉ p.text := by
  rw [text]
  split_ifs with hempty
  · decide
  · intro hmem
    rcases List.mem_append.mp hmem with hmem | hmem
    · have hanchor : ∀ a, Rune.ofNat 0 ∉ anchorText a := by
        intro a
        cases a <;> decide
      exact hanchor p.anchor hmem
    · rcases Text.mem_join hmem with hslash | ⟨s, hs, hmem⟩
      · exact absurd hslash (by decide)
      · exact (h s hs).noNull hmem

/-- The text of a child has the characters of the path, of the name and slashes. -/
theorem mem_text_child {c : Rune} {s : Text} (h : c ∈ (p.child s).text) :
    c = Rune.ofChar '/' ∨ c ∈ p.text ∨ c ∈ s := by
  obtain ⟨anchor, segments⟩ := p
  have hanchor : ∀ c ∈ anchorText anchor, c = Rune.ofChar '/' := by
    cases anchor <;> decide
  rw [text, if_neg (by simp [child])] at h
  rcases List.mem_append.mp h with h | h
  · exact Or.inl (hanchor c h)
  by_cases hne : segments = []
  · subst hne
    exact Or.inr (Or.inr (by simpa [child, Text.join] using h))
  · rw [child, Text.join_concat hne, List.mem_append, List.mem_append] at h
    rcases h with h | h | h
    · refine Or.inr (Or.inl ?_)
      rw [text, if_neg (by simp [hne])]
      exact List.mem_append_right _ h
    · exact Or.inl (List.mem_singleton.mp h)
    · exact Or.inr (Or.inr h)

end Path

namespace Workspace

variable {w : Workspace} {place : Place} {node : Node} {bytes : Bytes} {p : Path} {s : Text}

/-- A name that a system can give is found in a directory. -/
theorem locate_child (hlocate : w.locate p = .ok place)
    (hdirectory : w.tree.find? place = some .directory) (hs : Path.IsFileName s) :
    w.locate (p.child s) = .ok (place ++ [s]) := by
  obtain ⟨⟨bytes, hencode⟩, hnull, hwalk⟩ := locate_eq_ok_iff.mp hlocate
  refine locate_eq_ok_iff.mpr ⟨⟨_, encode_eq fun c hc => ?_⟩, fun hmem => ?_, ?_⟩
  · rcases Path.mem_text_child hc with rfl | hc | hc
    · decide
    · exact (encode_eq_ok_iff.mp hencode).1 c hc
    · exact hs.isStable.isEncodable c hc
  · rcases Path.mem_text_child hmem with hslash | hmem | hmem
    · exact absurd hslash (by decide)
    · exact hnull hmem
    · exact hs.noNull hmem
  · exact Tree.walk_append_name hwalk hdirectory hs.ne_dotDot hs.short

/-- Whatever stands at a place is found under its absolute path. -/
theorem locate_absolute (hw : w.tree.WellFormed) (hnode : w.tree.find? place = some node) :
    w.locate (Path.absolute place) = .ok place := by
  have hnames := hw.names place node hnode
  rw [locate_eq_ok_iff]
  refine ⟨⟨_, (@Path.isStable_text (Path.absolute place) hnames).encode⟩,
    @Path.noNull_text (Path.absolute place) hnames, ?_⟩
  exact @Tree.WellFormed.walk w.tree [] place node hw hnode

end Workspace

end TodoLedger
