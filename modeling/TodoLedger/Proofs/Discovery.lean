import TodoLedger.Proofs.Gather.Scan
import TodoLedger.Proofs.Text.Order
import TodoLedger.Proofs.Text.Span
import TodoLedger.Proofs.Workspace.Listing
import TodoLedger.Proofs.Workspace.Sample
import Mathlib.Data.List.Sort
/-!
# What a scan of a directory finds

A scan finds the files that stand directly in the directory and whose names are wanted, each once and
in the order of the texts of their paths. A strict order leaves one list for one set of files. So neither
the order of the listing nor that of the extensions and the patterns is seen in what is found, and with
fewer extensions or more patterns nothing is found that was not found before.
-/

namespace TodoLedger

/-! ## Suffixes -/

namespace Path

variable {name suffix stem ext : Text}

/-- The suffix is the last dot of the name with what follows it, and something stands on both sides of
the dot. -/
def HasSuffix (name suffix : Text) : Prop :=
  ∃ stem ext, name = stem ++ suffix ∧ suffix = Rune.ofChar '.' :: ext ∧ stem ≠ [] ∧ ext ≠ [] ∧
    Rune.ofChar '.' ∉ ext

private theorem suffixOf_append_cons (hext : Rune.ofChar '.' ∉ ext) :
    suffixOf (stem ++ Rune.ofChar '.' :: ext) =
      if ext = [] ∨ stem = [] then [] else Rune.ofChar '.' :: ext := by
  have hbehind : ((stem ++ Rune.ofChar '.' :: ext).reverse.takeWhile
      fun c => c ≠ Rune.ofChar '.') = ext.reverse := by
    rw [List.reverse_append, List.reverse_cons, List.append_assoc, List.singleton_append]
    exact Span.takeWhile_ne_append_cons (by simpa using hext)
  have hlength : (stem ++ Rune.ofChar '.' :: ext).length = stem.length + (ext.length + 1) := by
    rw [List.length_append, List.length_cons]
  rw [suffixOf]
  simp only [hbehind, hlength, List.length_reverse, List.isEmpty_reverse, Nat.add_sub_cancel,
    List.drop_left]
  have hstem : stem.length + (ext.length + 1) ≤ ext.length + 1 ↔ stem = [] := by
    rw [← List.length_eq_zero_iff]
    omega
  simp only [hstem, Bool.or_eq_true, List.isEmpty_iff, decide_eq_true_eq]

private theorem suffixOf_of_noDot (h : Rune.ofChar '.' ∉ name) : suffixOf name = [] := by
  have hall : (name.reverse.takeWhile fun c => c ≠ Rune.ofChar '.') = name.reverse := by
    rw [List.takeWhile_eq_self_iff]
    intro c hc
    rw [decide_eq_true_eq]
    rintro rfl
    exact h (List.mem_reverse.mp hc)
  rw [suffixOf]
  simp only [hall, List.length_reverse]
  rw [if_pos]
  simp

/-- The last dot of a name cuts it. -/
private theorem exists_lastDot (h : Rune.ofChar '.' ∈ name) :
    ∃ stem ext, name = stem ++ Rune.ofChar '.' :: ext ∧ Rune.ofChar '.' ∉ ext := by
  obtain ⟨ext, stem, hname, hext⟩ := List.eq_append_cons_of_mem (List.mem_reverse.mpr h)
  refine ⟨stem.reverse, ext.reverse, ?_, by simpa using hext⟩
  rw [← List.reverse_reverse name, hname, List.reverse_append, List.reverse_cons]
  simp

theorem hasSuffix_iff : HasSuffix name suffix ↔ suffix ≠ [] ∧ suffixOf name = suffix := by
  constructor
  · rintro ⟨stem, ext, rfl, rfl, hstem, hext, hdot⟩
    refine ⟨by simp, ?_⟩
    rw [suffixOf_append_cons hdot, if_neg (by simp [hstem, hext])]
  · rintro ⟨hne, rfl⟩
    by_cases hdot : Rune.ofChar '.' ∈ name
    · obtain ⟨stem, ext, rfl, hext⟩ := exists_lastDot hdot
      rw [suffixOf_append_cons hext] at hne ⊢
      split_ifs at hne ⊢ with hparts
      · exact absurd rfl hne
      · rw [not_or] at hparts
        exact ⟨stem, ext, rfl, rfl, hparts.2, hparts.1, hext⟩
    · exact absurd (suffixOf_of_noDot hdot) hne

/-- The text of a path in a directory ends in its name, behind what is the same for all names. -/
theorem exists_text_child (p : Path) : ∃ front, ∀ name, (p.child name).text = front ++ name := by
  by_cases hnone : p.segments = []
  · refine ⟨anchorText p.anchor, fun name => ?_⟩
    simp [text, child, hnone, Text.join]
  · refine ⟨anchorText p.anchor ++ (Text.join "/" p.segments ++ "/"), fun name => ?_⟩
    simp only [text, child]
    rw [Text.join_concat hnone]
    simp

end Path

/-! ## Names that are wanted -/

/-- The suffix of the name is one of the extensions in any case and with a dot in front, and no pattern
matches the name. -/
structure Selection.Wants (s : Selection) (name : Text) : Prop where
  extension : ∃ suffix, Path.HasSuffix name suffix ∧
    ∃ extension ∈ s.extensions, Text.lower suffix = dotted (Text.lower extension)
  kept : ∀ pattern ∈ s.exclusions, Glob.matchesPath pattern name = false

namespace Selection

variable {s s' : Selection} {name : Text}

private theorem dotted_ne_nil (extension : Text) : dotted extension ≠ [] := by
  rw [dotted]
  split_ifs with hdot
  · rintro rfl
    cases hdot
  · simp

theorem hasExtension_iff : s.hasExtension name = true ↔ ∃ suffix, Path.HasSuffix name suffix ∧
    ∃ extension ∈ s.extensions, Text.lower suffix = dotted (Text.lower extension) := by
  rw [hasExtension, List.any_eq_true]
  simp only [decide_eq_true_eq]
  constructor
  · rintro ⟨extension, hmem, hsame⟩
    refine ⟨Path.suffixOf name, Path.hasSuffix_iff.mpr ⟨?_, rfl⟩, extension, hmem, hsame.symm⟩
    intro hnone
    rw [hnone] at hsame
    exact dotted_ne_nil _ hsame
  · rintro ⟨suffix, hsuffix, extension, hmem, hsame⟩
    rw [(Path.hasSuffix_iff.mp hsuffix).2]
    exact ⟨extension, hmem, hsame.symm⟩

theorem wants_iff : s.Wants name ↔ s.hasExtension name = true ∧ s.excludes name = false := by
  have hkept : s.excludes name = false ↔
      ∀ pattern ∈ s.exclusions, Glob.matchesPath pattern name = false := by
    simp [excludes]
  rw [hasExtension_iff, hkept]
  exact ⟨fun h => ⟨h.extension, h.kept⟩, fun h => ⟨h.1, h.2⟩⟩

/-- With more extensions and fewer patterns more names are wanted. -/
theorem Wants.mono (h : s.Wants name) (hextensions : s.extensions ⊆ s'.extensions)
    (hexclusions : s'.exclusions ⊆ s.exclusions) : s'.Wants name := by
  obtain ⟨suffix, hsuffix, extension, hmem, hsame⟩ := h.extension
  constructor
  · exact ⟨suffix, hsuffix, extension, hextensions hmem, hsame⟩
  · exact fun pattern hpattern => h.kept pattern (hexclusions hpattern)

end Selection

/-! ## The files that are found -/

/-- Paths of which the one text is strictly before the other. -/
def Path.Before (p q : Path) : Prop := Text.Before p.text q.text

instance : Std.Antisymm Path.Before where
  antisymm p q hpq hqp := by
    have hge : Text.le q.text p.text = true := Text.Before.le hqp
    rw [Path.Before, Text.Before, hge] at hpq
    cases hpq

namespace Tree

variable {t t' : Tree} {directory p : Path} {place place' : Place} {s s' : Selection} {name : Text}

/-- A file stands at the place. -/
def HoldsFile (t : Tree) (place : Place) : Prop := ∃ bytes, t.find? place = some (.file bytes)

theorem IsKeyed.mem_candidates_iff (h : t.IsKeyed) : name ∈ candidates s (t.children place) ↔
    t.HoldsFile (place ++ [name]) ∧ s.hasExtension name = true := by
  rw [candidates, List.mem_map]
  constructor
  · rintro ⟨⟨name, node⟩, hlisted, rfl⟩
    rw [List.mem_filter, h.mem_children_iff, Bool.and_eq_true] at hlisted
    obtain ⟨hfind, hfile, hextension⟩ := hlisted
    cases node with
    | directory => cases hfile
    | file bytes => exact ⟨⟨bytes, hfind⟩, hextension⟩
  · rintro ⟨⟨bytes, hfind⟩, hextension⟩
    refine ⟨(name, .file bytes), List.mem_filter.mpr ⟨h.mem_children_iff.mpr hfind, ?_⟩, rfl⟩
    rw [hextension]
    rfl

theorem IsKeyed.mem_wanted_iff (h : t.IsKeyed) : p ∈ t.wanted directory place s ↔
    ∃ name, p = directory.child name ∧ t.HoldsFile (place ++ [name]) ∧ s.Wants name := by
  rw [wanted, ascending, mem_sorted, List.mem_map]
  apply exists_congr
  intro name
  rw [List.mem_filter, h.mem_candidates_iff, Selection.wants_iff, Bool.not_eq_true']
  constructor
  · rintro ⟨⟨⟨hfile, hextension⟩, hkept⟩, rfl⟩
    exact ⟨rfl, hfile, hextension, hkept⟩
  · rintro ⟨rfl, hfile, hextension, hkept⟩
    exact ⟨⟨⟨hfile, hextension⟩, hkept⟩, rfl⟩

theorem IsKeyed.nodup_wanted (h : t.IsKeyed) : (t.wanted directory place s).Nodup := by
  rw [wanted, ascending, (perm_sorted _ _).nodup_iff]
  apply List.Nodup.map
  · intro n m hsame
    simpa [Path.child] using hsame
  · apply List.Nodup.filter
    exact List.Nodup.sublist (List.Sublist.map _ List.filter_sublist) (h.nodup_names place)

/-- Different names give different texts, so that no two files share a place in the order. -/
theorem IsKeyed.pairwise_wanted (h : t.IsKeyed) :
    (t.wanted directory place s).Pairwise Path.Before := by
  obtain ⟨front, hfront⟩ := Path.exists_text_child directory
  have hsorted : (t.wanted directory place s).Pairwise fun p q => Text.le p.text q.text = true :=
    pairwise_sorted (fun p q => Text.le_total (Path.text p) (Path.text q))
      (fun p q r => Text.le_trans) _
  refine List.Pairwise.imp_of_mem ?_ (hsorted.and h.nodup_wanted)
  rintro p q hp hq ⟨hle, hne⟩
  obtain ⟨n, rfl, -⟩ := h.mem_wanted_iff.mp hp
  obtain ⟨m, rfl, -⟩ := h.mem_wanted_iff.mp hq
  rw [Path.Before, Text.Before, Bool.eq_false_iff]
  intro hge
  apply hne
  have htext := Text.le_antisymm hle hge
  rw [hfront, hfront] at htext
  rw [List.append_cancel_left htext]

/-- In two directories with the same files, the stricter choice finds a part of what the other finds. -/
theorem IsKeyed.wanted_sublist (h : t.IsKeyed) (h' : t'.IsKeyed)
    (hfiles : ∀ name, t'.HoldsFile (place' ++ [name]) → t.HoldsFile (place ++ [name]))
    (hextensions : s'.extensions ⊆ s.extensions) (hexclusions : s.exclusions ⊆ s'.exclusions) :
    (t'.wanted directory place' s').Sublist (t.wanted directory place s) := by
  apply List.sublist_of_subperm_of_pairwise _ h'.pairwise_wanted h.pairwise_wanted
  apply List.subperm_of_subset h'.nodup_wanted
  intro p hp
  obtain ⟨name, rfl, hfile, hwants⟩ := h'.mem_wanted_iff.mp hp
  exact h.mem_wanted_iff.mpr ⟨name, rfl, hfiles name hfile, hwants.mono hextensions hexclusions⟩

end Tree

/-! ## The scan -/

/-- The path leads to a directory of the workspace. -/
structure Workspace.Opens (w : Workspace) (directory : Path) (place : Place) : Prop where
  isKeyed : w.tree.IsKeyed
  locate : w.locate directory = .ok place
  isDirectory : w.tree.find? place = some .directory

/-- A scan finds exactly the files of the directory whose names are wanted, each once and in ascending
order. Another scan of a directory with the same files finds the same for the same extensions and the
same patterns, however they are listed, and finds a part of it for fewer extensions and more patterns. -/
theorem discover_finds {w : Workspace} {directory : Path} {place : Place}
    (h : w.Opens directory place) (s : Selection) :
    ∃ files v, (discover directory s).runOn w = (.ok files, v) ∧ OnlyEvents w v ∧
      (∀ p, p ∈ files ↔ ∃ name, p = directory.child name ∧
        w.tree.HoldsFile (place ++ [name]) ∧ s.Wants name) ∧
      files.Pairwise Path.Before ∧
      ∀ (w' : Workspace) (place' : Place) (s' : Selection), w'.Opens directory place' →
        (∀ name, w'.tree.HoldsFile (place' ++ [name]) ↔ w.tree.HoldsFile (place ++ [name])) →
        ∃ files' v', (discover directory s').runOn w' = (.ok files', v') ∧
          (s'.extensions ⊆ s.extensions → s.exclusions ⊆ s'.exclusions → files'.Sublist files) ∧
          ((∀ e, e ∈ s'.extensions ↔ e ∈ s.extensions) →
            (∀ e, e ∈ s'.exclusions ↔ e ∈ s.exclusions) → files' = files) := by
  obtain ⟨v, hrun, hevents⟩ := runOn_discover (s := s) h.locate h.isDirectory
  refine ⟨_, v, hrun, hevents, fun p => h.isKeyed.mem_wanted_iff, h.isKeyed.pairwise_wanted, ?_⟩
  intro w' place' s' h' hfiles
  obtain ⟨v', hrun', -⟩ := runOn_discover (s := s') h'.locate h'.isDirectory
  refine ⟨_, v', hrun', fun hextensions hexclusions => ?_, fun hextensions hexclusions => ?_⟩
  · exact h.isKeyed.wanted_sublist h'.isKeyed (fun name => (hfiles name).mp) hextensions hexclusions
  · apply List.Sublist.antisymm
    · exact h.isKeyed.wanted_sublist h'.isKeyed (fun name => (hfiles name).mp)
        (fun e => (hextensions e).mp) fun e => (hexclusions e).mpr
    · exact h'.isKeyed.wanted_sublist h.isKeyed (fun name => (hfiles name).mpr)
        (fun e => (hextensions e).mpr) fun e => (hexclusions e).mp

/-- A directory with names of several dots, with dots in front and at the end, and letters of either
case. -/
def Workspace.dottedNames : Workspace :=
  Workspace.ofFiles ["d"] [("c.PY", ""), (".py", ""), ("a.b.py", ""), ("a.py.", ""), ("t.py", ""),
    ("A.jS", ""), ("py", "")]

theorem discover_finds_dottedNames : Workspace.dottedNames.Opens ⟨.relative, []⟩ ["d"] ∧
    ∃ files v, (discover ⟨.relative, []⟩ ⟨["PY", ".Js"], ["T*"]⟩).runOn Workspace.dottedNames =
        (.ok files, v) ∧
      files.map Path.text = ["A.jS".toText, "a.b.py".toText, "c.PY".toText] ∧
      OnlyEvents Workspace.dottedNames v ∧
      (∀ p, p ∈ files ↔ ∃ name, p = Path.child ⟨.relative, []⟩ name ∧
        Workspace.dottedNames.tree.HoldsFile (["d".toText] ++ [name]) ∧
        Selection.Wants ⟨["PY", ".Js"], ["T*"]⟩ name) ∧
      files.Pairwise Path.Before := by
  have hopens : Workspace.dottedNames.Opens ⟨.relative, []⟩ ["d"] :=
    ⟨by decide +kernel, by decide +kernel, by decide +kernel⟩
  have htexts : ((discover ⟨.relative, []⟩ ⟨["PY", ".Js"], ["T*"]⟩).runOn
      Workspace.dottedNames).1.toOption.map (List.map Path.text) =
        some ["A.jS".toText, "a.b.py".toText, "c.PY".toText] := by
    decide +kernel
  obtain ⟨files, v, hrun, hevents, hmem, hpairs, -⟩ := discover_finds hopens ⟨["PY", ".Js"], ["T*"]⟩
  rw [hrun] at htexts
  exact ⟨hopens, files, v, hrun, Option.some.inj htexts, hevents, hmem, hpairs⟩

end TodoLedger
