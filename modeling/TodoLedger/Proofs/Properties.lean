import Mathlib.Data.List.Basic
import TodoLedger.Properties
/-!
# Property maps

Keys of which no two are one key are set one behind the other, each with its own spelling. Setting,
removing, clearing and copying are told by what they do to the keys in order and to the value of a key.
-/

namespace TodoLedger

namespace Properties

variable {es pairs : List (Text × Text)} {key value : Text}

/-- No two of the keys are one key. -/
def Apart (keys : List Text) : Prop := keys.Pairwise fun a b => sameKey a b = false

instance (keys : List Text) : Decidable (Apart keys) :=
  inferInstanceAs (Decidable (List.Pairwise _ _))

theorem sameKey_self (key : Text) : sameKey key key = true := decide_eq_true rfl

theorem setEntry_of_new (h : ∀ e ∈ es, sameKey e.1 key = false) :
    setEntry key value es = es ++ [(key, value)] := by
  induction es with
  | nil => rfl
  | cons e es ih =>
      obtain ⟨he, hes⟩ := List.forall_mem_cons.mp h
      rw [setEntry, he, ih hes]
      rfl

theorem setAll_of_apart (h : Apart ((es ++ pairs).map Prod.fst)) :
    setAll ⟨es⟩ pairs = ⟨es ++ pairs⟩ := by
  induction pairs generalizing es with
  | nil =>
      rw [List.append_nil]
      rfl
  | cons e pairs ih =>
      have hnew : ∀ d ∈ es, sameKey d.1 e.1 = false := by
        intro d hd
        rw [List.map_append] at h
        exact (List.pairwise_append.mp h).2.2 d.1 (List.mem_map_of_mem hd) e.1 (by simp)
      have hset : set ⟨es⟩ e.1 e.2 = ⟨es ++ [e]⟩ := by
        rw [set, setEntry_of_new hnew]
      have hrest := @ih (es ++ [e]) (by rwa [List.append_assoc, List.singleton_append])
      rw [List.append_assoc, List.singleton_append] at hrest
      rw [setAll, List.foldl_cons, hset]
      exact hrest

theorem ofList_of_apart (h : Apart (pairs.map Prod.fst)) : ofList pairs = ⟨pairs⟩ :=
  @setAll_of_apart [] pairs h

/-- A key and a value stand among the entries only if they stood there or were set. -/
theorem of_mem_setEntry {e : Text × Text} (h : e ∈ setEntry key value es) :
    (e.1 = key ∨ e.1 ∈ es.map Prod.fst) ∧ (e.2 = value ∨ e.2 ∈ es.map Prod.snd) := by
  induction es with
  | nil =>
      obtain rfl := List.mem_singleton.mp h
      exact ⟨Or.inl rfl, Or.inl rfl⟩
  | cons d es ih =>
      rw [setEntry] at h
      split_ifs at h
      · rcases List.mem_cons.mp h with rfl | h
        · exact ⟨Or.inr List.mem_cons_self, Or.inl rfl⟩
        · exact ⟨Or.inr (List.mem_cons_of_mem _ (List.mem_map_of_mem h)),
            Or.inr (List.mem_cons_of_mem _ (List.mem_map_of_mem h))⟩
      · rcases List.mem_cons.mp h with rfl | h
        · exact ⟨Or.inr List.mem_cons_self, Or.inr List.mem_cons_self⟩
        · exact ⟨(ih h).1.imp id (List.mem_cons_of_mem _),
            (ih h).2.imp id (List.mem_cons_of_mem _)⟩

theorem apart_setEntry (h : Apart (es.map Prod.fst)) :
    Apart ((setEntry key value es).map Prod.fst) := by
  induction es with
  | nil => exact List.pairwise_singleton _ _
  | cons e es ih =>
      obtain ⟨hfirst, hrest⟩ := List.pairwise_cons.mp h
      rw [setEntry]
      split_ifs with hsame
      · exact List.pairwise_cons.mpr ⟨hfirst, hrest⟩
      · refine List.pairwise_cons.mpr ⟨fun k hk => ?_, ih hrest⟩
        obtain ⟨d, hd, rfl⟩ := List.mem_map.mp hk
        rcases (of_mem_setEntry hd).1 with hkey | hkey
        · rw [hkey, Bool.eq_false_iff]
          exact hsame
        · exact hfirst _ hkey

/-- What is made at once has each key once. -/
theorem apart_ofList (pairs : List (Text × Text)) : Apart ((ofList pairs).entries.map Prod.fst) := by
  have hall : ∀ p : Properties, Apart (p.entries.map Prod.fst) →
      Apart ((p.setAll pairs).entries.map Prod.fst) := by
    induction pairs with
    | nil => exact fun p h => h
    | cons e pairs ih => exact fun p h => ih (p.set e.1 e.2) (apart_setEntry h)
  exact hall empty List.Pairwise.nil

/-- What holds of the keys and the values that are set holds of the entries. -/
theorem forall_ofList {P Q : Text → Prop} (h : ∀ e ∈ pairs, P e.1 ∧ Q e.2) :
    ∀ e ∈ (ofList pairs).entries, P e.1 ∧ Q e.2 := by
  have hall : ∀ p : Properties, (∀ e ∈ p.entries, P e.1 ∧ Q e.2) →
      ∀ e ∈ (p.setAll pairs).entries, P e.1 ∧ Q e.2 := by
    induction pairs with
    | nil => exact fun p hp => hp
    | cons d pairs ih =>
        obtain ⟨⟨hkey, hvalue⟩, hrest⟩ := List.forall_mem_cons.mp h
        refine fun p hp => ih hrest (p.set d.1 d.2) fun e he => ?_
        obtain ⟨hfst, hsnd⟩ := of_mem_setEntry he
        constructor
        · rcases hfst with heq | hmem
          · rwa [heq]
          · obtain ⟨e', he', heq⟩ := List.mem_map.mp hmem
            exact heq ▸ (hp e' he').1
        · rcases hsnd with heq | hmem
          · rwa [heq]
          · obtain ⟨e', he', heq⟩ := List.mem_map.mp hmem
            exact heq ▸ (hp e' he').2
  exact hall empty (by simp [empty])

theorem exists_mem_of_get? {p : Properties} (h : p.get? key = some value) :
    ∃ k, (k, value) ∈ p.entries ∧ sameKey k key = true := by
  obtain ⟨e, he, rfl⟩ := Option.map_eq_some_iff.mp h
  exact ⟨e.1, List.mem_of_find?_eq_some he, by simpa using List.find?_some he⟩

/-- A key is found with the value it stands with. -/
theorem get?_of_mem (h : Apart (es.map Prod.fst)) (hmem : (key, value) ∈ es) :
    get? ⟨es⟩ key = some value := by
  induction es with
  | nil => cases hmem
  | cons e es ih =>
      obtain ⟨hfirst, hrest⟩ := List.pairwise_cons.mp h
      rcases List.mem_cons.mp hmem with rfl | hmem
      · simp [get?, sameKey_self]
      · have hne : sameKey e.1 key = false := hfirst key (List.mem_map_of_mem hmem)
        have hget := ih hrest hmem
        rw [get?] at hget ⊢
        rw [List.find?_cons, hne]
        exact hget

/-- Keys that are one key with the same key are one key. -/
theorem sameKey_congr {a b : Text} (h : sameKey a b = true) (key : Text) :
    sameKey a key = sameKey b key := by
  rw [sameKey, sameKey, of_decide_eq_true h]

theorem get?_congr {a b : Text} (h : sameKey a b = true) (p : Properties) : p.get? a = p.get? b := by
  simp only [get?, sameKey, of_decide_eq_true h]

theorem sameKey_comm (a b : Text) : sameKey a b = sameKey b a := decide_eq_decide.mpr eq_comm

/-- A key that is set has the value it was set to; the others keep theirs. -/
theorem get?_set (p : Properties) (key value other : Text) :
    (p.set key value).get? other = if sameKey key other then some value else p.get? other := by
  obtain ⟨es⟩ := p
  rw [set]
  induction es with
  | nil => cases hother : sameKey key other <;> simp [setEntry, get?, hother]
  | cons e es ih =>
      rw [setEntry]
      split_ifs with hkey hother hother
      · rw [← sameKey_congr hkey] at hother
        simp [get?, hother]
      · rw [← sameKey_congr hkey] at hother
        simp [get?, hother]
      · rw [if_pos hother] at ih
        have hne : sameKey e.1 other = false := by
          rw [Bool.eq_false_iff]
          intro hsame
          rw [sameKey, of_decide_eq_true hother, ← sameKey] at hkey
          exact hkey hsame
        rw [get?] at ih ⊢
        rw [List.find?_cons, hne]
        exact ih
      · rw [if_neg hother] at ih
        rw [get?, get?] at ih ⊢
        rw [List.find?_cons, List.find?_cons]
        cases sameKey e.1 other with
        | true => rfl
        | false => exact ih

/-! ## Keys in order -/

section Calls

variable {p q : Properties} {other : Text}

theorem has_iff : p.has key = true ↔ ∃ k ∈ p.keys, sameKey k key = true := by
  simp [has, get?, keys]

theorem keys_set (p : Properties) (key value : Text) :
    (p.set key value).keys = if p.has key then p.keys else p.keys ++ [key] := by
  obtain ⟨es⟩ := p
  induction es with
  | nil => rfl
  | cons e es ih =>
      simp only [keys, has, get?, set, setEntry, List.find?_cons, List.map_cons] at ih ⊢
      cases sameKey e.1 key with
      | true => rfl
      | false =>
          simp only [Bool.false_eq_true, ↓reduceIte, List.map_cons, ih]
          split_ifs with h <;> simp [h]

theorem apart_set (h : Apart p.keys) : Apart (p.set key value).keys := apart_setEntry h

theorem erase?_eq_some_iff : p.erase? key = some q ↔
    p.has key = true ∧ q = ⟨p.entries.filter fun e => !sameKey e.1 key⟩ := by
  rw [erase?]
  split_ifs with hhas <;> simp [hhas, eq_comm]

theorem keys_erase (h : p.erase? key = some q) : q.keys = p.keys.filter (!sameKey · key) := by
  obtain ⟨-, rfl⟩ := erase?_eq_some_iff.mp h
  simp only [keys, List.filter_map, Function.comp_def]

/-- A key that is removed has no value; the others keep theirs. -/
theorem get?_erase (h : p.erase? key = some q) (other : Text) :
    q.get? other = if sameKey key other then none else p.get? other := by
  obtain ⟨-, rfl⟩ := erase?_eq_some_iff.mp h
  simp only [get?, List.find?_filter, Bool.decide_and, Bool.decide_eq_true]
  split_ifs with hother
  · have hnone : p.entries.find? (fun e => !sameKey e.1 key && sameKey e.1 other) = none := by
      simp only [sameKey, of_decide_eq_true hother]
      simp
    rw [hnone]
    rfl
  · congr 2
    funext e
    cases hsame : sameKey e.1 other with
    | false => rw [Bool.and_false]
    | true =>
        rw [sameKey_congr hsame, sameKey_comm other key, Bool.eq_false_iff.mpr hother]
        rfl

theorem apart_erase (h : p.erase? key = some q) (hp : Apart p.keys) : Apart q.keys := by
  rw [keys_erase h]
  exact hp.filter _

theorem pop?_eq (p : Properties) (key : Text) :
    p.pop? key = (p.get? key).bind fun value => (p.erase? key).map (value, ·) := by
  rw [pop?]
  cases p.get? key with
  | none => rfl
  | some value => cases p.erase? key <;> rfl

theorem erase?_of_get? (h : p.get? key = some value) : ∃ q, p.erase? key = some q :=
  ⟨_, erase?_eq_some_iff.mpr ⟨by rw [has, h]; rfl, rfl⟩⟩

@[simp] theorem clear_eq (p : Properties) : p.clear = empty := by
  fun_induction clear p with
  | case1 p e q hpop ih => exact ih
  | case2 p hpop =>
      obtain ⟨_ | ⟨⟨key, value⟩, es⟩⟩ := p
      · rfl
      · have hget : get? ⟨(key, value) :: es⟩ key = some value := by
          simp [get?, sameKey_self]
        obtain ⟨q, herase⟩ := erase?_of_get? hget
        simp [popFirst?, keys, pop?_eq, hget, herase] at hpop

theorem items_of_apart (h : Apart p.keys) : p.items = p.entries := by
  have hitem : ∀ e ∈ p.entries, (p.get? e.1).map (e.1, ·) = some e := by
    intro e he
    rw [get?_of_mem h he]
    rfl
  rw [items, keys, List.filterMap_map]
  exact (List.filterMap_congr hitem).trans List.filterMap_some

theorem copy_of_apart (h : Apart p.keys) : p.copy = p := by
  rw [copy, items_of_apart h, ofList_of_apart h]

end Calls

end Properties

end TodoLedger
