import Mathlib.Data.List.DropRight
import Mathlib.Data.Set.Card
import TodoLedger.Fault
import TodoLedger.Proofs.Properties
/-!
# Property maps by what happened to them

A map answers for its history. A key is there if it was written since it was last removed: its value
is that of the last of these writes, its spelling and its place are those of the first. This is kept by
every call on a map, and so it holds after any number of them. A copy is a map of its own that begins
with the history of the other.
-/

namespace TodoLedger

namespace Properties

/-! ## Histories -/

/-- What a call did to a map. -/
inductive Event
  | wrote (key value : Text)
  | removed (key : Text)
  | cleared
deriving DecidableEq

namespace Event

def removes (key : Text) : Event → Bool
  | wrote _ _ => false
  | removed k => sameKey k key
  | cleared => true

/-- The spelling and the value of a write to the key. -/
def writeTo? (key : Text) : Event → Option (Text × Text)
  | wrote k v => if sameKey k key then some (k, v) else none
  | removed _ => none
  | cleared => none

end Event

/-- The events in their order, the last one at the end. -/
abbrev History := List Event

/-- The writes to a key since it was last removed. -/
def writes (h : History) (key : Text) : List (Text × Text) :=
  (h.rtakeWhile fun e => !e.removes key).filterMap (Event.writeTo? key)

def Live (h : History) (key : Text) : Prop := writes h key ≠ []

instance (h : History) (key : Text) : Decidable (Live h key) :=
  inferInstanceAs (Decidable (_ ≠ _))

/-- The value last written to a key since it was last removed. -/
def lastValue? (h : History) (key : Text) : Option Text := (writes h key).getLast?.map Prod.snd

/-- The key that the event at a place sets, as it is spelled there, if it was not there before and is
not removed later. -/
def firstAt? (h : History) (i : Nat) : Option Text :=
  match h[i]? with
  | some (.wrote key _) =>
      if ¬Live (h.take i) key ∧ (h.drop (i + 1)).all (!·.removes key) then some key else none
  | _ => none

/-- The keys that are there in the order in which each was first set. -/
def firsts (h : History) : List Text := (List.range h.length).filterMap (firstAt? h)

/-- They are listed with the value last written to each. -/
def itemsOf (h : History) : List (Text × Text) :=
  (firsts h).filterMap fun key => (lastValue? h key).map (key, ·)

section

variable {h : History} {key value : Text}

theorem writes_concat (h : History) (e : Event) (key : Text) : writes (h ++ [e]) key =
    if e.removes key then [] else writes h key ++ (e.writeTo? key).toList := by
  rw [writes, List.rtakeWhile_concat]
  cases e.removes key with
  | true => rfl
  | false => cases hwrite : e.writeTo? key <;> simp [writes, hwrite]

theorem live_iff : Live h key ↔ (lastValue? h key).isSome := by
  simp [Live, lastValue?]

theorem lastValue?_wrote (h : History) (k value key : Text) :
    lastValue? (h ++ [.wrote k value]) key = if sameKey k key then some value else lastValue? h key := by
  simp only [lastValue?, writes_concat, Event.removes, Event.writeTo?]
  cases sameKey k key <;> simp

theorem lastValue?_removed (h : History) (k key : Text) :
    lastValue? (h ++ [.removed k]) key = if sameKey k key then none else lastValue? h key := by
  simp only [lastValue?, writes_concat, Event.removes, Event.writeTo?]
  split_ifs with hkey <;> simp [hkey]

theorem lastValue?_cleared (h : History) (key : Text) : lastValue? (h ++ [.cleared]) key = none := by
  simp [lastValue?, writes_concat, Event.removes]

/-- The key that an event sets behind a history, if it is not there yet. -/
def newKey? (h : History) : Event → Option Text
  | .wrote key _ => if Live h key then none else some key
  | .removed _ => none
  | .cleared => none

theorem firstAt?_concat_of_lt {e : Event} {i : Nat} (hi : i < h.length) :
    firstAt? (h ++ [e]) i = (firstAt? h i).filter fun key => !e.removes key := by
  have hlate : i + 1 - h.length = 0 := by omega
  rw [firstAt?, firstAt?, List.getElem?_append_left hi, List.take_append_of_le_length (by omega),
    List.drop_append, hlate, List.drop_zero]
  rcases h[i]? with _ | _ | _ | _
  case some.wrote key value =>
    simp only [List.all_append, List.all_cons, List.all_nil, Bool.and_true]
    cases hlater : e.removes key <;> split_ifs <;> simp_all [Option.filter]
  all_goals rfl

theorem firstAt?_concat_self (h : History) (e : Event) :
    firstAt? (h ++ [e]) h.length = newKey? h e := by
  rw [firstAt?, List.getElem?_concat_length]
  cases e with
  | wrote key value => simp [newKey?, ite_not]
  | removed key => rfl
  | cleared => rfl

/-- An event takes the keys away that it removes and adds a key at the end. -/
theorem firsts_concat (h : History) (e : Event) :
    firsts (h ++ [e]) = (firsts h).filter (!e.removes ·) ++ (newKey? h e).toList := by
  have hbefore : ∀ i ∈ List.range h.length,
      firstAt? (h ++ [e]) i = (firstAt? h i).filter fun key => !e.removes key :=
    fun i hi => firstAt?_concat_of_lt (List.mem_range.mp hi)
  rw [firsts, List.length_append, List.length_singleton, List.range_succ, List.filterMap_append,
    List.filterMap_congr hbefore, firsts, List.filter_filterMap]
  congr 1
  cases hnew : newKey? h e <;> simp [firstAt?_concat_self, hnew]

end

/-! ## Maps that follow their history -/

structure Follows (h : History) (p : Properties) : Prop where
  apart : Apart p.keys
  keys : p.keys = firsts h
  get? : ∀ key, p.get? key = lastValue? h key

namespace Follows

variable {h : History} {p q : Properties}

theorem empty : Follows [] empty where
  apart := List.Pairwise.nil
  keys := rfl
  get? _ := rfl

theorem has (H : Follows h p) (key : Text) : p.has key = true ↔ Live h key := by
  rw [Properties.has, H.get? key, live_iff]

theorem set (H : Follows h p) (key value : Text) :
    Follows (h ++ [.wrote key value]) (p.set key value) where
  apart := apart_set H.apart
  keys := by
    rw [keys_set, firsts_concat, H.keys]
    by_cases hlive : Live h key
    · simp [newKey?, hlive, (H.has key).mpr hlive, Event.removes]
    · simp [newKey?, hlive, (H.has key).not.mpr hlive, Event.removes]
  get? other := by rw [get?_set, lastValue?_wrote, H.get? other]

theorem setAll (H : Follows h p) (pairs : List (Text × Text)) :
    Follows (h ++ pairs.map fun e => .wrote e.1 e.2) (p.setAll pairs) := by
  induction pairs generalizing h p with
  | nil =>
      rw [List.map_nil, List.append_nil]
      exact H
  | cons e pairs ih =>
      have hrest := ih (H.set e.1 e.2)
      rw [List.append_assoc] at hrest
      exact hrest

theorem erase {key : Text} (H : Follows h p) (herase : p.erase? key = some q) :
    Follows (h ++ [.removed key]) q where
  apart := apart_erase herase H.apart
  keys := by
    rw [keys_erase herase, firsts_concat, H.keys]
    simp [newKey?, Event.removes, sameKey_comm]
  get? other := by rw [get?_erase herase, lastValue?_removed, H.get? other]

theorem clear (h : History) (p : Properties) : Follows (h ++ [.cleared]) p.clear where
  apart := by
    rw [clear_eq]
    exact List.Pairwise.nil
  keys := by
    rw [clear_eq, firsts_concat]
    simp [newKey?, Event.removes, Properties.keys, Properties.empty]
  get? key := by
    rw [clear_eq, lastValue?_cleared]
    rfl

theorem copy (H : Follows h p) : Follows h p.copy := by
  rwa [copy_of_apart H.apart]

theorem items (H : Follows h p) : p.items = itemsOf h := by
  rw [Properties.items, itemsOf, H.keys]
  simp only [H.get?]

theorem first? (H : Follows h p) (keys : List Text) :
    p.first? keys = keys.findSome? (lastValue? h) := by
  rw [Properties.first?, funext H.get?]

/-- A key is either not there or has a value and can be removed. -/
theorem not_live_or_live (H : Follows h p) (key : Text) :
    (¬Live h key ∧ p.get? key = none ∧ p.erase? key = none) ∨
      ∃ value q, Live h key ∧ lastValue? h key = some value ∧ p.get? key = some value ∧
        p.erase? key = some q := by
  rw [← H.has]
  cases hget : p.get? key with
  | none =>
      left
      simp [Properties.has, erase?, hget]
  | some value =>
      right
      obtain ⟨q, herase⟩ := erase?_of_get? hget
      exact ⟨value, q, by simp [Properties.has, hget], (H.get? key).symm.trans hget, rfl, herase⟩

/-- Keys that are apart have as many folded forms. -/
theorem size (H : Follows h p) : p.size = {f | ∃ key, Live h key ∧ Text.fold key = f}.ncard := by
  have hfolded : {f | ∃ key, Live h key ∧ Text.fold key = f} =
      ((p.keys.map Text.fold).toFinset : Set Text) := by
    ext f
    simp only [← H.has, has_iff, Set.mem_ofPred_eq, List.coe_toFinset, List.mem_map, sameKey,
      decide_eq_true_eq]
    constructor
    · rintro ⟨key, ⟨k, hk, hsame⟩, rfl⟩
      exact ⟨k, hk, hsame⟩
    · rintro ⟨k, hk, rfl⟩
      exact ⟨k, ⟨k, hk, rfl⟩, rfl⟩
  have hnodup : (p.keys.map Text.fold).Nodup :=
    List.pairwise_map.mpr (H.apart.imp fun hne => of_decide_eq_false hne)
  calc p.size = (p.keys.map Text.fold).length := by
        rw [Properties.size, Properties.keys, List.length_map, List.length_map]
    _ = (p.keys.map Text.fold).toFinset.card := (List.toFinset_card_of_nodup hnodup).symm
    _ = _ := by rw [hfolded, Set.ncard_coe_finset]

end Follows

/-! ## Calls on one map -/

inductive Call
  | get (key : Text)
  | set (key value : Text)
  | erase (key : Text)
  | pop (key : Text)
  | getOrSet (key value : Text)
  | setAll (pairs : List (Text × Text))
  | clear

/-- The answer of a call and the map as it is left. -/
def Call.run (p : Properties) : Call → Except Fault (Option Text) × Properties
  | .get key =>
      match p.get? key with
      | some value => (.ok (some value), p)
      | none => (.error .noKey, p)
  | .set key value => (.ok none, p.set key value)
  | .erase key =>
      match p.erase? key with
      | some q => (.ok none, q)
      | none => (.error .noKey, p)
  | .pop key =>
      match p.pop? key with
      | some (value, q) => (.ok (some value), q)
      | none => (.error .noKey, p)
  | .getOrSet key value => (.ok (some (p.getOrSet key value).1), (p.getOrSet key value).2)
  | .setAll pairs => (.ok none, p.setAll pairs)
  | .clear => (.ok none, p.clear)

/-- What the history says about the answer. -/
def Call.answer (h : History) : Call → Except Fault (Option Text)
  | .get key => if Live h key then .ok (lastValue? h key) else .error .noKey
  | .set _ _ => .ok none
  | .erase key => if Live h key then .ok none else .error .noKey
  | .pop key => if Live h key then .ok (lastValue? h key) else .error .noKey
  | .getOrSet key value => .ok (if Live h key then lastValue? h key else some value)
  | .setAll _ => .ok none
  | .clear => .ok none

/-- What a call adds to the history: nothing if it fails or finds what it would set. -/
def Call.events (h : History) : Call → History
  | .get _ => []
  | .set key value => [.wrote key value]
  | .erase key => if Live h key then [.removed key] else []
  | .pop key => if Live h key then [.removed key] else []
  | .getOrSet key value => if Live h key then [] else [.wrote key value]
  | .setAll pairs => pairs.map fun e => .wrote e.1 e.2
  | .clear => [.cleared]

theorem Follows.call {h : History} {p : Properties} (H : Follows h p) (c : Call) :
    (c.run p).1 = c.answer h ∧ Follows (h ++ c.events h) (c.run p).2 := by
  cases c with
  | get key =>
      rcases H.not_live_or_live key with ⟨hdead, hget, -⟩ | ⟨value, -, hlive, hlast, hget, -⟩
      · simp [Call.run, Call.answer, Call.events, hdead, hget, H]
      · simp [Call.run, Call.answer, Call.events, hlive, hlast, hget, H]
  | set key value => exact ⟨rfl, H.set key value⟩
  | erase key =>
      rcases H.not_live_or_live key with ⟨hdead, -, herase⟩ | ⟨-, q, hlive, -, -, herase⟩
      · simp [Call.run, Call.answer, Call.events, hdead, herase, H]
      · simp [Call.run, Call.answer, Call.events, hlive, herase, H.erase herase]
  | pop key =>
      rcases H.not_live_or_live key with ⟨hdead, hget, -⟩ | ⟨value, q, hlive, hlast, hget, herase⟩
      · simp [Call.run, Call.answer, Call.events, pop?_eq, hdead, hget, H]
      · simp [Call.run, Call.answer, Call.events, pop?_eq, hlive, hlast, hget, herase,
          H.erase herase]
  | getOrSet key value =>
      rcases H.not_live_or_live key with ⟨hdead, hget, -⟩ | ⟨last, -, hlive, hlast, hget, -⟩
      · simp [Call.run, Call.answer, Call.events, getOrSet, hdead, hget, H.set key value]
      · simp [Call.run, Call.answer, Call.events, getOrSet, hlive, hlast, hget, H]
  | setAll pairs => exact ⟨rfl, H.setAll pairs⟩
  | clear => exact ⟨rfl, Follows.clear h p⟩

/-- A call that fails misses a key and leaves the map as it is. -/
theorem Call.run_of_error {p : Properties} {c : Call} {f : Fault} (h : (c.run p).1 = .error f) :
    f = .noKey ∧ (c.run p).2 = p := by
  cases c with
  | get key =>
      rw [run] at h ⊢
      cases hget : p.get? key <;> simp_all
  | erase key =>
      rw [run] at h ⊢
      cases herase : p.erase? key <;> simp_all
  | pop key =>
      rw [run] at h ⊢
      cases hpop : p.pop? key <;> simp_all
  | set | getOrSet | setAll | clear => cases h

/-! ## Calls on several maps -/

inductive Step
  | call (i : Nat) (c : Call)
  | setAllFrom (i j : Nat)
  | copy (i : Nat)

/-- A call on the map at a place; where there is none, nothing is done. -/
def runAt (ps : List Properties) (i : Nat) (c : Call) :
    Except Fault (Option Text) × List Properties :=
  ((ps[i]?.map fun p => (c.run p).1).getD (.ok none), ps.modify i fun p => (c.run p).2)

def Step.run (ps : List Properties) : Step → Except Fault (Option Text) × List Properties
  | .call i c => runAt ps i c
  | .setAllFrom i j =>
      match ps[j]? with
      | some q => runAt ps i (.setAll q.items)
      | none => (.ok none, ps)
  | .copy i => (.ok none, ps ++ (ps[i]?.map Properties.copy).toList)

def Step.answer (hs : List History) : Step → Except Fault (Option Text)
  | .call i c => (hs[i]?.map c.answer).getD (.ok none)
  | .setAllFrom _ _ => .ok none
  | .copy _ => .ok none

/-- What a step adds to the histories. A copy begins with the history of the other. -/
def Step.record (hs : List History) : Step → List History
  | .call i c => hs.modify i fun h => h ++ c.events h
  | .setAllFrom i j =>
      match hs[j]? with
      | some h' => hs.modify i fun h => h ++ (Call.setAll (itemsOf h')).events h
      | none => hs
  | .copy i => hs ++ hs[i]?.toList

/-- The step may change the map at a place. -/
def Step.Writes (i : Nat) : Step → Prop
  | .call j _ => j = i
  | .setAllFrom j _ => j = i
  | .copy _ => False

/-- The maps after the steps, beginning with an empty one. -/
def maps (steps : List Step) : List Properties := steps.foldl (fun ps s => (s.run ps).2) [empty]

def histories (steps : List Step) : List History := steps.foldl Step.record [[]]

section Steps

variable {hs : List History} {ps : List Properties} {i : Nat} {s : Step} {steps : List Step}

theorem follows_getElem? (H : List.Forall₂ Follows hs ps) (i : Nat) :
    (hs[i]? = none ∧ ps[i]? = none) ∨
      ∃ h p, hs[i]? = some h ∧ ps[i]? = some p ∧ Follows h p := by
  induction H generalizing i with
  | nil => exact Or.inl ⟨rfl, rfl⟩
  | cons hhead _ ih =>
      cases i with
      | zero => exact Or.inr ⟨_, _, rfl, rfl, hhead⟩
      | succ i => exact ih i

theorem follows_modify {f : History → History} {g : Properties → Properties}
    (H : List.Forall₂ Follows hs ps) (hstep : ∀ h p, Follows h p → Follows (f h) (g p)) (i : Nat) :
    List.Forall₂ Follows (hs.modify i f) (ps.modify i g) := by
  induction H generalizing i with
  | nil => simp
  | cons hhead hrest ih =>
      cases i with
      | zero => exact .cons (hstep _ _ hhead) hrest
      | succ i => exact .cons hhead (ih i)

theorem follows_runAt (H : List.Forall₂ Follows hs ps) (i : Nat) (c : Call) :
    (runAt ps i c).1 = (hs[i]?.map c.answer).getD (.ok none) ∧
      List.Forall₂ Follows (hs.modify i fun h => h ++ c.events h) (runAt ps i c).2 := by
  refine ⟨?_, follows_modify H (fun h p hp => (hp.call c).2) i⟩
  rcases follows_getElem? H i with ⟨hh, hp⟩ | ⟨h, p, hh, hp, hfollows⟩
  · simp [runAt, hh, hp]
  · simp [runAt, hh, hp, (hfollows.call c).1]

/-- Each step answers as the histories say, and the maps follow the longer histories. -/
theorem follows_step (H : List.Forall₂ Follows hs ps) (s : Step) :
    (s.run ps).1 = s.answer hs ∧ List.Forall₂ Follows (s.record hs) (s.run ps).2 := by
  cases s with
  | call i c => exact follows_runAt H i c
  | setAllFrom i j =>
      rw [Step.run, Step.answer, Step.record]
      rcases follows_getElem? H j with ⟨hh, hp⟩ | ⟨h', q, hh, hp, hfollows⟩
      · rw [hh, hp]
        exact ⟨rfl, H⟩
      · rw [hh, hp]
        dsimp only
        rw [← hfollows.items]
        obtain ⟨hanswer, hmaps⟩ := follows_runAt H i (.setAll q.items)
        refine ⟨hanswer.trans ?_, hmaps⟩
        cases hs[i]? <;> rfl
  | copy i =>
      refine ⟨rfl, ?_⟩
      rw [Step.run, Step.record]
      rcases follows_getElem? H i with ⟨hh, hp⟩ | ⟨h, p, hh, hp, hfollows⟩
      · simpa [hh, hp] using H
      · rw [hh, hp]
        exact List.rel_append H (.cons hfollows.copy .nil)

theorem follows_maps (steps : List Step) :
    List.Forall₂ Follows (histories steps) (maps steps) := by
  induction steps using List.reverseRecOn with
  | nil => exact .cons Follows.empty .nil
  | append_singleton steps s ih =>
      rw [histories, maps, List.foldl_concat, List.foldl_concat]
      exact (follows_step ih s).2

theorem runAt_of_error {c : Call} {f : Fault} (h : (runAt ps i c).1 = .error f) :
    f = .noKey ∧ (runAt ps i c).2 = ps := by
  rw [runAt] at h ⊢
  cases hp : ps[i]? with
  | none => simp [hp] at h
  | some p =>
      rw [hp] at h
      obtain ⟨hf, hsame⟩ := Call.run_of_error h
      refine ⟨hf, List.ext_getElem? fun j => ?_⟩
      rw [List.getElem?_modify]
      by_cases hij : i = j
      · subst hij
        rw [hp]
        simp [hsame]
      · simp [hij]

theorem Step.run_of_error {f : Fault} (h : (s.run ps).1 = .error f) :
    f = .noKey ∧ (s.run ps).2 = ps := by
  cases s with
  | call i c => exact runAt_of_error h
  | setAllFrom i j =>
      rw [run] at h ⊢
      cases hp : ps[j]? with
      | none => simp [hp] at h
      | some q =>
          rw [hp] at h
          exact runAt_of_error h
  | copy i => cases h

/-- A step leaves the maps alone that it does not write to. -/
theorem Step.getElem?_run {p : Properties} (hp : ps[i]? = some p) (hs : ¬s.Writes i) :
    (s.run ps).2[i]? = some p := by
  have hother : ∀ {j : Nat} (c : Call), j ≠ i → (runAt ps j c).2[i]? = some p := by
    intro j c hji
    exact (List.getElem?_modify_ne _ _ hji).trans hp
  cases s with
  | call j c => exact hother c hs
  | setAllFrom j k =>
      rw [run]
      cases ps[k]? with
      | none => exact hp
      | some q => exact hother _ hs
  | copy j =>
      obtain ⟨hlt, -⟩ := List.getElem?_eq_some_iff.mp hp
      rw [run, List.getElem?_append_left hlt, hp]

theorem getElem?_maps_append {later : List Step} {p : Properties} (hp : (maps steps)[i]? = some p)
    (hlater : ∀ s ∈ later, ¬s.Writes i) : (maps (steps ++ later))[i]? = some p := by
  induction later using List.reverseRecOn with
  | nil => rwa [List.append_nil]
  | append_singleton later s ih =>
      simp only [List.forall_mem_append, List.forall_mem_singleton] at hlater
      rw [← List.append_assoc, maps, List.foldl_concat]
      exact Step.getElem?_run (ih hlater.1) hlater.2

theorem maps_copy (steps : List Step) (i : Nat) :
    maps (steps ++ [.copy i]) = maps steps ++ (maps steps)[i]?.toList := by
  rw [maps, List.foldl_concat, ← maps, Step.run]
  rcases follows_getElem? (follows_maps steps) i with ⟨-, hp⟩ | ⟨h, p, -, hp, hfollows⟩
  · rw [hp]
    rfl
  · rw [hp, Option.map_some, copy_of_apart hfollows.apart]

end Steps

/-! ## What a history tells of a map -/

/-- Everything that is asked of a map is told by its history. A key is asked for by its folded form
only. -/
structure Tells (h : History) (p : Properties) : Prop extends Follows h p where
  has : ∀ key, p.has key = true ↔ Live h key
  first? : ∀ keys, p.first? keys = keys.findSome? (lastValue? h)
  items : p.items = itemsOf h
  size : p.size = {f | ∃ key, Live h key ∧ Text.fold key = f}.ncard
  folded : ∀ key key', Text.fold key = Text.fold key' →
    p.get? key = p.get? key' ∧ p.has key = p.has key'
  firstFolded : ∀ keys keys' : List Text, keys.map Text.fold = keys'.map Text.fold →
    p.first? keys = p.first? keys'

theorem first?_congr {keys keys' : List Text} (h : keys.map Text.fold = keys'.map Text.fold)
    (p : Properties) : p.first? keys = p.first? keys' := by
  have hfolded : ∀ keys : List Text, p.first? keys = (keys.map Text.fold).findSome? fun f =>
      (p.entries.find? fun e => decide (Text.fold e.1 = f)).map Prod.snd := by
    intro keys
    rw [List.findSome?_map]
    rfl
  rw [hfolded, h, ← hfolded]

theorem Follows.tells {h : History} {p : Properties} (H : Follows h p) : Tells h p where
  toFollows := H
  has := H.has
  first? := H.first?
  items := H.items
  size := H.size
  folded key key' hsame := by
    have hget := get?_congr (decide_eq_true hsame) p
    exact ⟨hget, by rw [Properties.has, Properties.has, hget]⟩
  firstFolded _ _ hsame := first?_congr hsame p

/-- Maps that are made, changed and copied in any way answer for their histories. A call that fails
misses a key and changes nothing, and a copy has the same items and is a map of its own. -/
theorem maps_tell_histories (steps : List Step) :
    List.Forall₂ Tells (histories steps) (maps steps) ∧
      (∀ s : Step, (s.run (maps steps)).1 = s.answer (histories steps)) ∧
      (∀ (s : Step) (f : Fault), (s.run (maps steps)).1 = .error f →
        f = .noKey ∧ (s.run (maps steps)).2 = maps steps) ∧
      (∀ (i : Nat) (p : Properties), (maps steps)[i]? = some p →
        ∃ q, maps (steps ++ [.copy i]) = maps steps ++ [q] ∧ q.items = p.items) ∧
      ∀ (later : List Step) (i : Nat) (p : Properties), (maps steps)[i]? = some p →
        (∀ s ∈ later, ¬s.Writes i) → (maps (steps ++ later))[i]? = some p := by
  have hfollows := follows_maps steps
  refine ⟨hfollows.imp fun _ _ H => H.tells, fun s => (follows_step hfollows s).1,
    fun s f hf => s.run_of_error hf, fun i p hp => ⟨p, ?_, rfl⟩,
    fun later i p hp hlater => getElem?_maps_append hp hlater⟩
  rw [maps_copy, hp]
  rfl

/-- A key is set again in another case, and after a copy removed and set once more. -/
def respellings : List Step :=
  [.call 0 (.setAll [("Aß", "1"), ("b", "2")]), .call 0 (.set "aSS" "3"), .copy 0,
    .call 0 (.erase "ASS"), .call 0 (.set "ass" "4")]

theorem maps_tell_histories_respellings : ∃ p q : Properties, maps respellings = [p, q] ∧
    List.Forall₂ Tells (histories respellings) [p, q] ∧
    p.items = ([("b", "2"), ("ass", "4")] : List (Text × Text)) ∧
    q.items = ([("Aß", "3"), ("b", "2")] : List (Text × Text)) ∧
    ((Step.call 1 (.pop "c")).run [p, q]).1 = .error .noKey ∧
    ((Step.call 1 (.pop "c")).run [p, q]).2 = [p, q] ∧
    (∃ r, maps (respellings ++ [.copy 1]) = [p, q, r] ∧ r.items = q.items) ∧
    (maps (respellings ++ [.call 0 .clear]))[1]? = some q := by
  obtain ⟨htells, -, hfails, hcopies, hlater⟩ := maps_tell_histories respellings
  have hmaps : maps respellings =
      [⟨[("b", "2"), ("ass", "4")]⟩, ⟨[("Aß", "3"), ("b", "2")]⟩] := by decide +kernel
  rw [hmaps] at htells hfails hcopies hlater
  have herror : ((Step.call 1 (.pop "c")).run
      [⟨[("b", "2"), ("ass", "4")]⟩, ⟨[("Aß", "3"), ("b", "2")]⟩]).1 = .error .noKey := by
    decide +kernel
  have hother : ∀ s ∈ [Step.call 0 .clear], ¬s.Writes 1 := by simp [Step.Writes]
  exact ⟨_, _, hmaps, htells, by decide +kernel, by decide +kernel, herror,
    (hfails _ _ herror).2, hcopies 1 _ rfl, hlater _ 1 _ rfl hother⟩

end Properties

end TodoLedger
