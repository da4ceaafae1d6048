import TodoLedger.Proofs.Text.Reread
import TodoLedger.Proofs.Text.Span
import TodoLedger.Settings.Environment
/-!
# Variables in a text

A text is cut from the left into characters that stand for themselves and tokens, a name between `${`
and `}`. `Cut` says what such a cut is, and each text has one. Substituting leaves the characters and
puts the value of its variable in the place of each token, in one pass: a value is never cut again. If a
token has no value, nothing is substituted and the first such token decides the fault.
-/

namespace TodoLedger.Environment

open Utf8

variable {environment : List Variable} {t u name value : Text} {c : Rune}

/-! ## Parts of a text -/

def IsName (name : Text) : Prop := name ≠ [] ∧ Rune.ofChar '\x7d' ∉ name

instance : Decidable (IsName name) := inferInstanceAs (Decidable (_ ∧ _))

def tokenText (name : Text) : Text :=
  Rune.ofChar '$' :: Rune.ofChar '\x7b' :: (name ++ [Rune.ofChar '\x7d'])

inductive Part
  | literal (c : Rune)
  | token (name : Text)

/-- What stands in the place of a part when the tokens have values. -/
def Part.exchanged (value : Text → Text) : Part → Text
  | literal c => [c]
  | token name => value name

/-- The text is made of the parts; a character stands for itself where no token begins. -/
inductive Cut : Text → List Part → Prop
  | nil : Cut [] []
  | literal {c : Rune} {t : Text} {parts : List Part} :
      (∀ name rest, IsName name → c :: t ≠ tokenText name ++ rest) → Cut t parts →
      Cut (c :: t) (.literal c :: parts)
  | token {name t : Text} {parts : List Part} : IsName name → Cut t parts →
      Cut (tokenText name ++ t) (.token name :: parts)

theorem Cut.single (h : IsName name) : Cut (tokenText name) [.token name] := by
  simpa using Cut.token h .nil

/-- A token is found by its braces. -/
theorem tokenName?_eq_some_iff :
    tokenName? t = some name ↔ IsName name ∧ ∃ r, t = tokenText name ++ r := by
  constructor
  · intro h
    match t, h with
    | a :: b :: r, h =>
      rw [tokenName?] at h
      split_ifs at h with hopen
      obtain ⟨rfl, rfl⟩ : a = Rune.ofChar '$' ∧ b = Rune.ofChar '\x7b' := by simpa using hopen
      dsimp only at h
      split_ifs at h with hname
      obtain rfl := Option.some.inj h
      rw [Bool.or_eq_true, not_or, List.isEmpty_iff, decide_eq_true_eq] at hname
      obtain ⟨hbrace, rest, hr⟩ := Span.exists_append_of_takeWhile_ne hname.2
      refine ⟨⟨hname.1, hbrace⟩, rest, ?_⟩
      conv_lhs => rw [hr]
      simp [tokenText]
  · rintro ⟨⟨hne, hbrace⟩, r, rfl⟩
    have htake := Span.takeWhile_ne_append_cons (t := r) hbrace
    have hempty : name.isEmpty = false := by simpa using hne
    have hlength : name.length ≠ (name ++ Rune.ofChar '\x7d' :: r).length := by simp
    rw [tokenText, List.cons_append, List.cons_append, List.append_assoc, List.singleton_append,
      tokenName?]
    simp only [htake, hempty, hlength]
    rfl

theorem tokenName?_eq_none_iff :
    tokenName? t = none ↔ ∀ name r, IsName name → t ≠ tokenText name ++ r := by
  rw [Option.eq_none_iff_forall_ne_some]
  constructor
  · rintro h name r hname rfl
    exact h name (tokenName?_eq_some_iff.mpr ⟨hname, r, rfl⟩)
  · intro h name hfound
    obtain ⟨hname, r, rfl⟩ := tokenName?_eq_some_iff.mp hfound
    exact h name r hname rfl

/-! ## The cut -/

theorem tokenText_append_inj {name' : Text} (h : IsName name) (h' : IsName name')
    (heq : tokenText name ++ t = tokenText name' ++ u) : name = name' ∧ t = u := by
  simp only [tokenText, List.cons_append, List.append_assoc, List.cons.injEq, true_and] at heq
  exact Span.split_at_first h.2 h'.2 heq

theorem exists_cut (t : Text) : ∃ parts, Cut t parts := by
  induction hlength : t.length using Nat.strong_induction_on generalizing t with
  | _ n ih =>
      cases t with
      | nil => exact ⟨[], .nil⟩
      | cons c r =>
          cases hfound : tokenName? (c :: r) with
          | none =>
              obtain ⟨parts, hparts⟩ := ih r.length (by simp [← hlength]) r rfl
              exact ⟨_, .literal (tokenName?_eq_none_iff.mp hfound) hparts⟩
          | some name =>
              obtain ⟨hname, rest, hr⟩ := tokenName?_eq_some_iff.mp hfound
              have hshort : rest.length < n := by
                rw [← hlength, hr, List.length_append, tokenText, List.length_cons]
                omega
              obtain ⟨parts, hparts⟩ := ih rest.length hshort rest rfl
              rw [hr]
              exact ⟨_, .token hname hparts⟩

theorem Cut.unique {parts parts' : List Part} (h : Cut t parts) (h' : Cut t parts') :
    parts = parts' := by
  induction h generalizing parts' with
  | nil =>
      generalize hnil : ([] : Text) = u at h'
      cases h' with
      | nil => rfl
      | literal => cases hnil
      | token => cases hnil
  | @literal c t parts hfree _ ih =>
      generalize htext : c :: t = u at h'
      cases h' with
      | nil => cases htext
      | literal _ hrest =>
          obtain ⟨rfl, rfl⟩ := List.cons.inj htext
          rw [ih hrest]
      | token hname _ => exact absurd htext (hfree _ _ hname)
  | @token name t parts hname _ ih =>
      generalize htext : tokenText name ++ t = u at h'
      cases h' with
      | nil => cases htext
      | literal hfree _ => exact absurd htext.symm (hfree _ _ hname)
      | token hname' hrest =>
          obtain ⟨rfl, rfl⟩ := tokenText_append_inj hname hname' htext
          rw [ih hrest]

/-! ## What becomes of the parts -/

theorem substituteFrom_eq (environment : List Variable) (n : Nat) (t : Text) :
    substituteFrom environment n t = substitute environment (t.drop n) := by
  induction t generalizing n with
  | nil => cases n <;> rfl
  | cons c t ih =>
      cases n with
      | zero => rfl
      | succ n => exact ih n

theorem substitute_cons (h : tokenName? (c :: t) = none) :
    substitute environment (c :: t) = (substitute environment t).map (c :: ·) := by
  rw [substitute, substituteFrom, h]
  rfl

theorem substitute_tokenText (h : IsName name) :
    substitute environment (tokenText name ++ t) =
      (lookup environment name).bind fun value => (substitute environment t).map (value ++ ·) := by
  have hfound : tokenName? (tokenText name ++ t) = some name :=
    tokenName?_eq_some_iff.mpr ⟨h, t, rfl⟩
  have hbehind : (Rune.ofChar '\x7b' :: (name ++ [Rune.ofChar '\x7d']) ++ t).drop (name.length + 2) = t := by
    rw [List.drop_append_of_le_length (by simp), List.drop_of_length_le (by simp), List.nil_append]
  rw [tokenText, List.cons_append] at hfound ⊢
  rw [substitute, substituteFrom, hfound]
  dsimp only
  rw [substituteFrom_eq, hbehind]
  cases lookup environment name <;> rfl

/-! ## What a name is worth -/

/-- The name has bytes, and the variable of these bytes has the value. -/
def Gives (environment : List Variable) (name value : Text) : Prop :=
  (∀ c ∈ name, isEncodable c = true) ∧ valueOf? environment (reread name) = some value

theorem lookup_eq_ok_iff : lookup environment name = .ok value ↔ Gives environment name value := by
  rw [lookup, Gives, reread]
  cases hencode : encode name with
  | ok bytes =>
      obtain ⟨hbytes, rfl⟩ := encode_eq_ok_iff.mp hencode
      dsimp only
      rw [and_iff_right hbytes]
      cases hvalue : valueOf? environment (decode (bytesOf name)) <;> simp
  | error fault =>
      have hbytes : ¬∀ c ∈ name, isEncodable c = true := fun hbytes => by
        rw [encode_eq hbytes] at hencode
        cases hencode
      simp [hbytes]

/-- A name that gives nothing is reported, unless it has no bytes to be looked up by. -/
theorem lookup_of_not_gives (h : ∀ value, ¬Gives environment name value) :
    ((∀ c ∈ name, isEncodable c = true) →
      lookup environment name = .error (.variableMissing name)) ∧
    ((∃ c ∈ name, isEncodable c = false) →
      ∃ fault, lookup environment name = .error (.encoding fault)) := by
  constructor
  · intro hbytes
    rw [lookup, encode_eq hbytes]
    dsimp only
    cases hvalue : valueOf? environment (decode (bytesOf name)) with
    | none => rfl
    | some value => exact absurd ⟨hbytes, hvalue⟩ (h value)
  · rintro ⟨c, hc, hnone⟩
    rw [lookup]
    cases hencode : encode name with
    | error fault => exact ⟨fault, rfl⟩
    | ok bytes =>
        rw [(encode_eq_ok_iff.mp hencode).1 c hc] at hnone
        cases hnone

theorem Cut.infix_of_token {parts : List Part} (h : Cut t parts) (hname : .token name ∈ parts) :
    name <:+: t := by
  induction h with
  | nil => cases hname
  | literal _ _ ih =>
      cases hname with
      | tail _ hname => exact (ih hname).trans (List.suffix_cons ..).isInfix
  | @token name' t parts _ _ ih =>
      cases hname with
      | head => exact ⟨[Rune.ofChar '$', Rune.ofChar '\x7b'], Rune.ofChar '\x7d' :: t, by simp [tokenText]⟩
      | tail _ hname => exact (ih hname).trans (List.suffix_append ..).isInfix

/-- A name out of a text that was read from bytes is looked up as it stands. -/
theorem gives_iff_of_isStable (h : IsStable name) :
    Gives environment name value ↔ valueOf? environment name = some value := by
  rw [Gives, reread_eq_self_iff.mpr h, and_iff_right h.isEncodable]

/-! ## What becomes of a text -/

theorem substitute_of_cut {parts : List Part} {valueOf : Text → Text} (h : Cut t parts)
    (hvalue : ∀ name, .token name ∈ parts → lookup environment name = .ok (valueOf name)) :
    substitute environment t = .ok (parts.flatMap (Part.exchanged valueOf)) := by
  induction h with
  | nil => rfl
  | @literal c t parts hfree _ ih =>
      rw [substitute_cons (tokenName?_eq_none_iff.mpr hfree),
        ih fun name hname => hvalue name (List.mem_cons_of_mem _ hname)]
      rfl
  | @token name t parts hname _ ih =>
      rw [substitute_tokenText hname, hvalue name List.mem_cons_self,
        ih fun name hname => hvalue name (List.mem_cons_of_mem _ hname)]
      rfl

/-- The first token that has no value decides. -/
theorem substitute_eq_error {parts front back : List Part} {fault : Fault} (h : Cut t parts)
    (hparts : parts = front ++ .token name :: back)
    (hfront : ∀ n, .token n ∈ front → ∃ value, lookup environment n = .ok value)
    (hname : lookup environment name = .error fault) : substitute environment t = .error fault := by
  induction h generalizing front with
  | nil => simp at hparts
  | @literal c t parts hfree _ ih =>
      cases front with
      | nil => cases hparts
      | cons part front =>
          have hrest := ih (List.cons.inj hparts).2 fun n hn => hfront n (List.mem_cons_of_mem _ hn)
          rw [substitute_cons (tokenName?_eq_none_iff.mpr hfree), hrest]
          rfl
  | @token name' t parts hname' _ ih =>
      rw [substitute_tokenText hname']
      cases front with
      | nil =>
          cases hparts
          rw [hname]
          rfl
      | cons part front =>
          obtain ⟨rfl, hrest⟩ := List.cons.inj hparts
          obtain ⟨value, hvalue⟩ := hfront name' List.mem_cons_self
          rw [hvalue, ih hrest fun n hn => hfront n (List.mem_cons_of_mem _ hn)]
          rfl

/-- Each text has one cut, and substituting follows it. If every token gives a value, each is exchanged
for its value and the rest of the text stays. Otherwise the first token without one is the fault: the
variable is reported missing by its name, or the name could not be written as bytes. The latter does not
happen in a text that was read from bytes. -/
theorem substitute_follows_cut (environment : List Variable) (t : Text) :
    ∃ parts, (∀ parts', Cut t parts' ↔ parts' = parts) ∧
      (IsStable t → ∀ name, .token name ∈ parts → (∀ c ∈ name, isEncodable c = true) ∧
        ∀ value, Gives environment name value ↔ valueOf? environment name = some value) ∧
      (∀ valueOf : Text → Text,
        (∀ name, .token name ∈ parts → Gives environment name (valueOf name)) →
        substitute environment t = .ok (parts.flatMap (Part.exchanged valueOf))) ∧
      ∀ front name back, parts = front ++ .token name :: back →
        (∀ n, .token n ∈ front → ∃ value, Gives environment n value) →
        (∀ value, ¬Gives environment name value) →
        ((∀ c ∈ name, isEncodable c = true) → ∃ fault, substitute environment t = .error fault ∧
          fault.kind = "ValueError" ∧
          fault.message = "Environment variable " ++ name ++ " not found") ∧
        ((∃ c ∈ name, isEncodable c = false) → ∃ fault, substitute environment t = .error fault ∧
          fault.kind = "UnicodeEncodeError") := by
  obtain ⟨parts, hcut⟩ := exists_cut t
  refine ⟨parts, fun parts' => ⟨fun h => h.unique hcut, fun h => h ▸ hcut⟩, ?_, ?_, ?_⟩
  · intro hstable name hname
    have hself := hstable.of_infix (hcut.infix_of_token hname)
    exact ⟨hself.isEncodable, fun _ => gives_iff_of_isStable hself⟩
  · intro valueOf hvalue
    exact substitute_of_cut hcut fun name hname => lookup_eq_ok_iff.mpr (hvalue name hname)
  · intro front name back hparts hfront hname
    have hgiven : ∀ n, .token n ∈ front → ∃ value, lookup environment n = .ok value := by
      intro n hn
      obtain ⟨value, hvalue⟩ := hfront n hn
      exact ⟨value, lookup_eq_ok_iff.mpr hvalue⟩
    obtain ⟨hmissing, hbytes⟩ := lookup_of_not_gives hname
    constructor
    · intro hencodable
      exact ⟨_, substitute_eq_error hcut hparts hgiven (hmissing hencodable), rfl, rfl⟩
    · intro hnone
      obtain ⟨fault, hfault⟩ := hbytes hnone
      exact ⟨_, substitute_eq_error hcut hparts hgiven hfault, rfl⟩

/-- The only variable has a token as its value. -/
def nested : List Variable := [("A", tokenText "B")]

theorem substitute_follows_cut_nested :
    (Cut (Rune.ofChar '$' :: tokenText "A") [.literal '$', .token "A"] ∧
      Gives nested "A" (tokenText "B") ∧
      substitute nested (Rune.ofChar '$' :: tokenText "A") =
        .ok (Rune.ofChar '$' :: tokenText "B")) ∧
    Cut (tokenText "A" ++ tokenText "B") [.token "A", .token "B"] ∧
      (∀ value, ¬Gives nested "B" value) ∧
      ∃ fault, substitute nested (tokenText "A" ++ tokenText "B") = .error fault ∧
        fault.kind = "ValueError" ∧ fault.message = "Environment variable B not found" := by
  have hliteral : Cut (Rune.ofChar '$' :: tokenText "A") [.literal '$', .token "A"] :=
    .literal (tokenName?_eq_none_iff.mp (by decide)) (.single (by decide))
  have htokens : Cut (tokenText "A" ++ tokenText "B") [.token "A", .token "B"] :=
    .token (by decide) (.single (by decide))
  have hgives : Gives nested "A" (tokenText "B") := ⟨by decide, by decide⟩
  have hmissing : ∀ value, ¬Gives nested "B" value := fun value h => by
    have hnone : valueOf? nested (reread "B") = none := by decide
    cases hnone.symm.trans h.2
  refine ⟨⟨hliteral, hgives, ?_⟩, htokens, hmissing, ?_⟩
  · obtain ⟨parts, hcut, -, hok, -⟩ :=
      substitute_follows_cut nested (Rune.ofChar '$' :: tokenText "A")
    obtain rfl := (hcut _).mp hliteral
    refine hok (fun _ => tokenText "B") fun name hname => ?_
    obtain rfl : name = "A" := by simpa using hname
    exact hgives
  · obtain ⟨parts, hcut, -, -, hfail⟩ :=
      substitute_follows_cut nested (tokenText "A" ++ tokenText "B")
    obtain rfl := (hcut _).mp htokens
    refine (hfail [.token "A"] "B" [] rfl (fun n hn => ?_) hmissing).1 (by decide)
    obtain rfl : n = "A" := by simpa using hn
    exact ⟨_, hgives⟩

/-- A surrogate that stands for no byte keeps a name from being looked up, and the fault does not say
the name. -/
theorem unwritable_name_not_named :
    ¬∀ (environment : List Variable) (t : Text) (parts front : List Part) (name : Text)
      (back : List Part), Cut t parts → parts = front ++ .token name :: back →
      (∀ n, .token n ∈ front → ∃ value, valueOf? environment n = some value) →
      valueOf? environment name = none →
      ∃ fault, substitute environment t = .error fault ∧
        fault.message = "Environment variable " ++ name ++ " not found" := by
  intro h
  have hcut : Cut (tokenText [Rune.ofNat 0xD800]) [.token [Rune.ofNat 0xD800]] :=
    .single (by decide)
  obtain ⟨fault, hfault, hmessage⟩ := h [] _ _ [] _ [] hcut rfl (by simp) rfl
  have hrefused : substitute [] (tokenText [Rune.ofNat 0xD800]) =
      .error (.encoding ⟨Rune.ofNat 0xD800, 0, 1⟩) := by decide
  rw [hrefused] at hfault
  obtain rfl := Except.error.inj hfault
  exact absurd hmessage (by decide)

end TodoLedger.Environment
