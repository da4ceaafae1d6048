import TodoLedger.Text.Utf8
import Mathlib.Tactic.Common
/-!
# Bytes and the text that is read from them

No byte is lost by reading: the text of some bytes is written as these bytes again. Conversely a
text is read back from its bytes when it is stable, that is when no escaped byte in it could begin a
character together with the bytes behind it. What is read is stable, and so are its parts.
-/

namespace TodoLedger.Utf8

/-- The bytes of a text whose characters all have a written form. -/
def bytesOf (t : Text) : Bytes := t.flatMap encodeRune

@[simp] theorem bytesOf_nil : bytesOf [] = [] := rfl

@[simp] theorem bytesOf_cons (c : Rune) (t : Text) : bytesOf (c :: t) = encodeRune c ++ bytesOf t :=
  rfl

@[simp] theorem bytesOf_append (s t : Text) : bytesOf (s ++ t) = bytesOf s ++ bytesOf t :=
  List.flatMap_append

private theorem encodeFrom_eq_ok_iff {t : Text} {bytes : Bytes} (position : Nat) :
    encodeFrom position t = .ok bytes ↔ (∀ c ∈ t, isEncodable c = true) ∧ bytes = bytesOf t := by
  induction t generalizing position bytes with
  | nil =>
      rw [encodeFrom]
      constructor
      · rintro ⟨⟩
        exact ⟨by simp, rfl⟩
      · rintro ⟨-, rfl⟩
        rfl
  | cons c t ih =>
      rw [encodeFrom, List.forall_mem_cons]
      split_ifs with hc
      · cases hrest : encodeFrom (position + 1) t with
        | error fault =>
            have hnone : ¬∀ d ∈ t, isEncodable d = true := by
              intro ht
              have hok := (ih (position + 1)).mpr ⟨ht, rfl⟩
              rw [hrest] at hok
              cases hok
            simp [Except.map, hnone]
        | ok rest =>
            obtain ⟨ht, rfl⟩ := (ih (position + 1)).mp hrest
            simp only [Except.map, Except.ok.injEq, bytesOf_cons]
            exact ⟨fun h => ⟨⟨hc, ht⟩, h.symm⟩, fun h => h.2.symm⟩
      · simp [hc]

theorem encode_eq_ok_iff {t : Text} {bytes : Bytes} :
    encode t = .ok bytes ↔ (∀ c ∈ t, isEncodable c = true) ∧ bytes = bytesOf t :=
  encodeFrom_eq_ok_iff 0

theorem encode_eq {t : Text} (h : ∀ c ∈ t, isEncodable c = true) : encode t = .ok (bytesOf t) :=
  encode_eq_ok_iff.mpr ⟨h, rfl⟩

/-! ## One character -/

private theorem isContinuation_iff {b : UInt8} :
    isContinuation b = true ↔ 0x80 ≤ b.toNat ∧ b.toNat < 0xC0 := by
  simp [isContinuation, UInt8.le_iff_toNat_le, UInt8.lt_iff_toNat_lt]

private theorem isSecond_iff {a b : UInt8} : isSecond a b = true ↔
    (0x80 ≤ b.toNat ∧ b.toNat < 0xC0) ∧ (a.toNat = 0xE0 → 0xA0 ≤ b.toNat) ∧
      (a.toNat = 0xED → b.toNat < 0xA0) ∧ (a.toNat = 0xF0 → 0x90 ≤ b.toNat) ∧
      (a.toNat = 0xF4 → b.toNat < 0x90) := by
  simp only [isSecond, Bool.and_eq_true, isContinuation_iff, Bool.or_eq_true, bne_iff_ne, ne_eq,
    decide_eq_true_eq, UInt8.le_iff_toNat_le, UInt8.lt_iff_toNat_lt, ← UInt8.toNat_inj,
    UInt8.reduceToNat]
  omega

private theorem octet_eq {n : Nat} (b : UInt8) (h : n = b.toNat) : octet n = b := by
  rw [octet, h, UInt8.ofNat_toNat]

private theorem isEscape_iff {c : Rune} :
    isEscape c = true ↔ 0xDC80 ≤ c.code ∧ c.code ≤ 0xDCFF := by
  simp [isEscape]

private theorem isEscape_eq_false_iff {c : Rune} :
    isEscape c = false ↔ ¬(0xDC80 ≤ c.code ∧ c.code ≤ 0xDCFF) := by
  rw [← isEscape_iff, Bool.not_eq_true]

/-- A number of a character that is no surrogate. -/
private theorem plain_of_number {n : Nat} (hlt : n < 0x110000) (h : n < 0xD800 ∨ 0xE000 ≤ n) :
    (Rune.ofNat n).code = n ∧ isEscape (Rune.ofNat n) = false ∧
      isEncodable (Rune.ofNat n) = true := by
  have hcode : (Rune.ofNat n).code = n := Rune.code_ofNat hlt
  refine ⟨hcode, isEscape_eq_false_iff.mpr (by omega), ?_⟩
  simp only [isEncodable, isSurrogate, hcode, Bool.or_eq_true, Bool.not_eq_true',
    Bool.and_eq_false_iff, decide_eq_false_iff_not]
  omega

/-- A first byte and the bytes behind it spell a character. -/
inductive Spells : UInt8 → Bytes → Rune → Prop
  | one {a : UInt8} (ha : a.toNat < 0x80) : Spells a [] (Rune.ofNat a.toNat)
  | two {a b : UInt8} (ha : 0xC2 ≤ a.toNat ∧ a.toNat < 0xE0) (hb : isSecond a b = true) :
      Spells a [b] (Rune.ofNat ((a.toNat - 0xC0) * 0x40 + low b))
  | three {a b c : UInt8} (ha : 0xE0 ≤ a.toNat ∧ a.toNat < 0xF0) (hb : isSecond a b = true)
      (hc : isContinuation c = true) :
      Spells a [b, c] (Rune.ofNat (((a.toNat - 0xE0) * 0x40 + low b) * 0x40 + low c))
  | four {a b c d : UInt8} (ha : 0xF0 ≤ a.toNat ∧ a.toNat ≤ 0xF4) (hb : isSecond a b = true)
      (hc : isContinuation c = true) (hd : isContinuation d = true) :
      Spells a [b, c, d]
        (Rune.ofNat ((((a.toNat - 0xF0) * 0x40 + low b) * 0x40 + low c) * 0x40 + low d))

private theorem low_eq (b : UInt8) : low b = b.toNat - 0x80 := rfl

theorem Spells.continuation {a : UInt8} {s : Bytes} {c : Rune} (h : Spells a s c) :
    ∀ b ∈ s, isContinuation b = true := by
  have hsecond : ∀ {x y : UInt8}, isSecond x y = true → isContinuation y = true := by
    intro x y hy
    exact isContinuation_iff.mpr (isSecond_iff.mp hy).1
  cases h with
  | one => simp
  | two _ hb => simp [hsecond hb]
  | three _ hb hc => simp [hsecond hb, hc]
  | four _ hb hc hd => simp [hsecond hb, hc, hd]

/-- The bytes that spell a character are its written form. -/
theorem Spells.encodeRune {a : UInt8} {s : Bytes} {c : Rune} (h : Spells a s c) :
    encodeRune c = a :: s ∧ isEncodable c = true ∧ isEscape c = false := by
  cases h with
  | one ha =>
      obtain ⟨hcode, hescape, hencodable⟩ := @plain_of_number a.toNat (by omega) (by omega)
      refine ⟨?_, hencodable, hescape⟩
      simp only [Utf8.encodeRune, hescape, hcode, Bool.false_eq_true, if_false]
      rw [if_pos ha, octet_eq a rfl]
  | @two b ha hb =>
      rw [isSecond_iff] at hb
      have hlow := low_eq b
      obtain ⟨hcode, hescape, hencodable⟩ :=
        @plain_of_number ((a.toNat - 0xC0) * 0x40 + low b) (by omega) (by omega)
      refine ⟨?_, hencodable, hescape⟩
      simp only [Utf8.encodeRune, hescape, hcode, Bool.false_eq_true, if_false]
      rw [if_neg (by omega), if_pos (by omega), octet_eq a (by omega), octet_eq b (by omega)]
  | @three b c ha hb hc =>
      rw [isSecond_iff] at hb
      rw [isContinuation_iff] at hc
      have hlowb := low_eq b
      have hlowc := low_eq c
      obtain ⟨hcode, hescape, hencodable⟩ :=
        @plain_of_number (((a.toNat - 0xE0) * 0x40 + low b) * 0x40 + low c) (by omega) (by omega)
      refine ⟨?_, hencodable, hescape⟩
      simp only [Utf8.encodeRune, hescape, hcode, Bool.false_eq_true, if_false]
      rw [if_neg (by omega), if_neg (by omega), if_pos (by omega), octet_eq a (by omega),
        octet_eq b (by omega), octet_eq c (by omega)]
  | @four b c d ha hb hc hd =>
      rw [isSecond_iff] at hb
      rw [isContinuation_iff] at hc hd
      have hlowb := low_eq b
      have hlowc := low_eq c
      have hlowd := low_eq d
      obtain ⟨hcode, hescape, hencodable⟩ := @plain_of_number
        ((((a.toNat - 0xF0) * 0x40 + low b) * 0x40 + low c) * 0x40 + low d) (by omega) (by omega)
      refine ⟨?_, hencodable, hescape⟩
      simp only [Utf8.encodeRune, hescape, hcode, Bool.false_eq_true, if_false]
      rw [if_neg (by omega), if_neg (by omega), if_neg (by omega), octet_eq a (by omega),
        octet_eq b (by omega), octet_eq c (by omega), octet_eq d (by omega)]

private theorem octet_toNat {n : Nat} (h : n < 256) : (octet n).toNat = n := by
  simp [octet, Nat.mod_eq_of_lt h]

/-- Every character that is written and stands for no byte is spelled by some bytes. -/
theorem exists_spells {c : Rune} (hencodable : isEncodable c = true)
    (hescape : isEscape c = false) : ∃ a s, Spells a s c := by
  have hlt := c.isLt
  have hplain : c.code < 0xD800 ∨ 0xE000 ≤ c.code := by
    simp only [isEncodable, hescape, isSurrogate, Bool.false_or, Bool.not_eq_true',
      Bool.and_eq_false_iff, decide_eq_false_iff_not] at hencodable
    omega
  have hof : ∀ {n : Nat}, n = c.code → Rune.ofNat n = c := by
    rintro n rfl
    exact Rune.ext (Rune.code_ofNat hlt)
  by_cases hone : c.code < 0x80
  · have ha : (octet c.code).toNat = c.code := octet_toNat (by omega)
    have hspells := @Spells.one (octet c.code) (by omega)
    rw [hof ha] at hspells
    exact ⟨_, _, hspells⟩
  by_cases htwo : c.code < 0x800
  · have ha := @octet_toNat (0xC0 + c.code / 0x40) (by omega)
    have hb := @octet_toNat (0x80 + c.code % 0x40) (by omega)
    have hlowb := low_eq (octet (0x80 + c.code % 0x40))
    refine ⟨octet (0xC0 + c.code / 0x40), [octet (0x80 + c.code % 0x40)], ?_⟩
    have hspells := @Spells.two (octet (0xC0 + c.code / 0x40)) (octet (0x80 + c.code % 0x40))
      (by omega) (isSecond_iff.mpr (by omega))
    rwa [hof (by omega)] at hspells
  by_cases hthree : c.code < 0x10000
  · have ha := @octet_toNat (0xE0 + c.code / 0x1000) (by omega)
    have hb := @octet_toNat (0x80 + c.code / 0x40 % 0x40) (by omega)
    have hc := @octet_toNat (0x80 + c.code % 0x40) (by omega)
    have hlowb := low_eq (octet (0x80 + c.code / 0x40 % 0x40))
    have hlowc := low_eq (octet (0x80 + c.code % 0x40))
    refine ⟨octet (0xE0 + c.code / 0x1000),
      [octet (0x80 + c.code / 0x40 % 0x40), octet (0x80 + c.code % 0x40)], ?_⟩
    have hspells := @Spells.three (octet (0xE0 + c.code / 0x1000))
      (octet (0x80 + c.code / 0x40 % 0x40)) (octet (0x80 + c.code % 0x40)) (by omega)
      (isSecond_iff.mpr (by omega)) (isContinuation_iff.mpr (by omega))
    rwa [hof (by omega)] at hspells
  · have ha := @octet_toNat (0xF0 + c.code / 0x40000) (by omega)
    have hb := @octet_toNat (0x80 + c.code / 0x1000 % 0x40) (by omega)
    have hc := @octet_toNat (0x80 + c.code / 0x40 % 0x40) (by omega)
    have hd := @octet_toNat (0x80 + c.code % 0x40) (by omega)
    have hlowb := low_eq (octet (0x80 + c.code / 0x1000 % 0x40))
    have hlowc := low_eq (octet (0x80 + c.code / 0x40 % 0x40))
    have hlowd := low_eq (octet (0x80 + c.code % 0x40))
    refine ⟨octet (0xF0 + c.code / 0x40000), [octet (0x80 + c.code / 0x1000 % 0x40),
      octet (0x80 + c.code / 0x40 % 0x40), octet (0x80 + c.code % 0x40)], ?_⟩
    have hspells := @Spells.four (octet (0xF0 + c.code / 0x40000))
      (octet (0x80 + c.code / 0x1000 % 0x40)) (octet (0x80 + c.code / 0x40 % 0x40))
      (octet (0x80 + c.code % 0x40)) (by omega) (isSecond_iff.mpr (by omega))
      (isContinuation_iff.mpr (by omega)) (isContinuation_iff.mpr (by omega))
    rwa [hof (by omega)] at hspells

/-! ## Reading one character -/

theorem Spells.head {a : UInt8} {s : Bytes} {c : Rune} (h : Spells a s c) (r : Bytes) :
    head a (s ++ r) = .ok (c, s.length) := by
  have hnat : ∀ {x y : UInt8}, x < y ↔ x.toNat < y.toNat := UInt8.lt_iff_toNat_lt
  unfold Utf8.head
  simp only [hnat, UInt8.reduceToNat, Bool.or_eq_true, decide_eq_true_eq]
  cases h with
  | one ha => rw [if_pos ha]; rfl
  | two ha hb =>
      rw [if_neg (by omega), if_neg (by omega)]
      simp only [List.cons_append, hb, Bool.not_true, Bool.false_eq_true, if_false]
      rw [if_pos ha.2]
      rfl
  | three ha hb hc =>
      rw [if_neg (by omega), if_neg (by omega)]
      simp only [List.cons_append, hb, hc, Bool.not_true, Bool.false_eq_true, if_false]
      rw [if_neg (by omega), if_pos ha.2]
      rfl
  | four ha hb hc hd =>
      rw [if_neg (by omega), if_neg (by omega)]
      simp only [List.cons_append, hb, hc, hd, Bool.not_true, Bool.false_eq_true, if_false]
      rw [if_neg (by omega), if_neg (by omega)]
      rfl

/-- Where a character is read, the bytes read spell it. -/
theorem exists_spells_of_head {a : UInt8} {r : Bytes} {c : Rune} {n : Nat}
    (h : head a r = .ok (c, n)) : ∃ s u, r = s ++ u ∧ s.length = n ∧ Spells a s c := by
  have hnat : ∀ {x y : UInt8}, x < y ↔ x.toNat < y.toNat := UInt8.lt_iff_toNat_lt
  unfold Utf8.head at h
  split at h
  · rename_i hascii
    obtain ⟨rfl, rfl⟩ := Prod.mk.inj (Except.ok.inj h)
    exact ⟨[], r, rfl, rfl, .one (hnat.mp hascii)⟩
  · split at h
    · cases h
    · rename_i hascii hstart
      simp only [hnat, UInt8.reduceToNat, Bool.or_eq_true, decide_eq_true_eq] at hascii hstart
      split at h
      · cases h
      · rename_i b r
        split at h
        · cases h
        · rename_i hb
          rw [Bool.not_eq_true', Bool.not_eq_false] at hb
          split at h
          · rename_i htwo
            simp only [hnat, UInt8.reduceToNat] at htwo
            obtain ⟨rfl, rfl⟩ := Prod.mk.inj (Except.ok.inj h)
            exact ⟨[b], r, rfl, rfl, .two (by omega) hb⟩
          · rename_i htwo
            simp only [hnat, UInt8.reduceToNat] at htwo
            split at h
            · cases h
            · rename_i c r
              split at h
              · cases h
              · rename_i hc
                rw [Bool.not_eq_true', Bool.not_eq_false] at hc
                split at h
                · rename_i hthree
                  simp only [hnat, UInt8.reduceToNat] at hthree
                  obtain ⟨rfl, rfl⟩ := Prod.mk.inj (Except.ok.inj h)
                  exact ⟨[b, c], r, rfl, rfl, .three (by omega) hb hc⟩
                · rename_i hthree
                  simp only [hnat, UInt8.reduceToNat] at hthree
                  split at h
                  · cases h
                  · rename_i d r
                    split at h
                    · cases h
                    · rename_i hd
                      rw [Bool.not_eq_true', Bool.not_eq_false] at hd
                      obtain ⟨rfl, rfl⟩ := Prod.mk.inj (Except.ok.inj h)
                      exact ⟨[b, c, d], r, rfl, rfl, .four (by omega) hb hc hd⟩

/-- No character is spelled by the bytes, whatever comes behind them. -/
def IsLost (a : UInt8) (r : Bytes) : Prop := ∀ s u c, r = s ++ u → ¬Spells a s c

theorem isLost_of_head {a : UInt8} {r : Bytes} {f : Nat × DecodingCause}
    (h : head a r = .error f) : IsLost a r := by
  rintro s u c rfl hspells
  rw [hspells.head] at h
  cases h

theorem head_of_isLost {a : UInt8} {r : Bytes} (h : IsLost a r) :
    ∃ f, head a r = .error f := by
  cases hhead : head a r with
  | error f => exact ⟨f, rfl⟩
  | ok x =>
      obtain ⟨s, u, hr, -, hspells⟩ := exists_spells_of_head hhead
      exact absurd hspells (h s u x.1 hr)

theorem IsLost.le {a : UInt8} {r : Bytes} (h : IsLost a r) : 0x80 ≤ a.toNat := by
  by_contra hlt
  exact h [] r _ rfl (.one (by omega))

/-! ## Reading and writing -/

private theorem decodeFrom_eq_drop (n : Nat) (r : Bytes) :
    decodeFrom n r = decode (r.drop n) := by
  induction r generalizing n with
  | nil => simp [decode, decodeFrom]
  | cons b r ih =>
      cases n with
      | zero => rfl
      | succ n => rw [decodeFrom, ih, List.drop_succ_cons]

theorem decode_spelled {a : UInt8} {s : Bytes} {c : Rune} (h : Spells a s c) (r : Bytes) :
    decode (a :: (s ++ r)) = c :: decode r := by
  rw [decode, decodeFrom, h.head]
  simp only
  rw [decodeFrom_eq_drop, List.drop_left]

theorem decode_lost {a : UInt8} {r : Bytes} (h : IsLost a r) :
    decode (a :: r) = escape a :: decode r := by
  obtain ⟨f, hf⟩ := head_of_isLost h
  rw [decode, decodeFrom, hf]
  rfl

/-- Bytes are read a character at a time, or a byte where no character is spelled. -/
theorem decode_induction {motive : Bytes → Prop} (nil : motive [])
    (spelled : ∀ a s c r, Spells a s c → motive r → motive (a :: (s ++ r)))
    (lost : ∀ a r, IsLost a r → motive r → motive (a :: r)) (bytes : Bytes) : motive bytes := by
  induction hn : bytes.length using Nat.strongRecOn generalizing bytes with
  | _ n ih =>
      cases bytes with
      | nil => exact nil
      | cons a r =>
          rw [List.length_cons] at hn
          cases hhead : head a r with
          | error f => exact lost a r (isLost_of_head hhead) (ih r.length (by omega) r rfl)
          | ok x =>
              obtain ⟨s, u, rfl, -, hspells⟩ := exists_spells_of_head hhead
              rw [List.length_append] at hn
              exact spelled a s x.1 u hspells (ih u.length (by omega) u rfl)

private theorem escape_spec {a : UInt8} (h : 0x80 ≤ a.toNat) :
    isEscape (escape a) = true ∧ (escape a).code = 0xDC00 + a.toNat := by
  have ha := a.toNat_lt
  have hcode : (escape a).code = 0xDC00 + a.toNat := Rune.code_ofNat (by omega)
  exact ⟨isEscape_iff.mpr (by omega), hcode⟩

/-- The byte that an escape stands for. -/
def escaped (c : Rune) : UInt8 := octet (c.code - 0xDC00)

theorem encodeRune_of_isEscape {c : Rune} (h : isEscape c = true) :
    encodeRune c = [escaped c] := by
  simp [encodeRune, h, escaped]

private theorem escaped_escape {a : UInt8} (h : 0x80 ≤ a.toNat) : escaped (escape a) = a := by
  rw [escaped, (escape_spec h).2]
  exact octet_eq a (by omega)

private theorem escape_escaped {c : Rune} (h : isEscape c = true) : escape (escaped c) = c := by
  rw [isEscape_iff] at h
  have hn := @octet_toNat (c.code - 0xDC00) (by omega)
  refine Rune.ext ?_
  rw [escaped, escape, Rune.code_ofNat (by omega)]
  omega

/-- Writing what was read gives the bytes back. -/
@[simp] theorem bytesOf_decode (bytes : Bytes) : bytesOf (decode bytes) = bytes := by
  induction bytes using decode_induction with
  | nil => rfl
  | spelled a s c r h ih =>
      rw [decode_spelled h, bytesOf_cons, h.encodeRune.1, ih]
      rfl
  | lost a r h ih =>
      rw [decode_lost h, bytesOf_cons, encodeRune_of_isEscape (escape_spec h.le).1,
        escaped_escape h.le, ih]
      rfl

/-! ## Stable texts -/

/-- Every character has a written form, and no escaped byte begins a character with the bytes
behind it. -/
def IsStable : Text → Prop
  | [] => True
  | c :: r => isEncodable c = true ∧ (isEscape c = true → IsLost (escaped c) (bytesOf r)) ∧
    IsStable r

theorem isStable_decode (bytes : Bytes) : IsStable (decode bytes) := by
  induction bytes using decode_induction with
  | nil => trivial
  | spelled a s c r h ih =>
      obtain ⟨-, hencodable, hescape⟩ := h.encodeRune
      rw [decode_spelled h]
      refine ⟨hencodable, fun hc => ?_, ih⟩
      rw [hescape] at hc
      cases hc
  | lost a r h ih =>
      rw [decode_lost h]
      refine ⟨?_, fun _ => ?_, ih⟩
      · rw [isEncodable, (escape_spec h.le).1, Bool.true_or]
      · rwa [escaped_escape h.le, bytesOf_decode]

theorem IsStable.isEncodable {t : Text} (h : IsStable t) : ∀ c ∈ t, isEncodable c = true := by
  induction t with
  | nil => simp
  | cons c t ih => exact List.forall_mem_cons.mpr ⟨h.1, ih h.2.2⟩

theorem IsStable.encode {t : Text} (h : IsStable t) : encode t = .ok (bytesOf t) :=
  encode_eq h.isEncodable

/-- A stable text is read back from its bytes. -/
theorem IsStable.decode_bytesOf {t : Text} (h : IsStable t) : decode (bytesOf t) = t := by
  induction t with
  | nil => rfl
  | cons c t ih =>
      obtain ⟨hencodable, hlost, ht⟩ := h
      rw [bytesOf_cons]
      cases hescape : isEscape c with
      | true =>
          rw [encodeRune_of_isEscape hescape, List.singleton_append, decode_lost (hlost hescape),
            ih ht, escape_escaped hescape]
      | false =>
          obtain ⟨a, s, hspells⟩ := exists_spells hencodable hescape
          rw [hspells.encodeRune.1, List.cons_append, decode_spelled hspells, ih ht]

private theorem IsLost.of_append {a : UInt8} {r u : Bytes} (h : IsLost a (r ++ u)) :
    IsLost a r := by
  rintro s v c rfl
  exact h s (v ++ u) c (List.append_assoc s v u)

theorem isStable_cons {c : Rune} {t : Text} (hencodable : isEncodable c = true)
    (hescape : isEscape c = false) : IsStable (c :: t) ↔ IsStable t := by
  simp [IsStable, hencodable, hescape]

theorem IsStable.of_append_left {s t : Text} (h : IsStable (s ++ t)) : IsStable s := by
  induction s with
  | nil => trivial
  | cons c s ih =>
      rw [List.cons_append] at h
      obtain ⟨hencodable, hlost, hrest⟩ := h
      refine ⟨hencodable, fun hc => ?_, ih hrest⟩
      have := hlost hc
      rw [bytesOf_append] at this
      exact this.of_append

theorem IsStable.of_append_right {s t : Text} (h : IsStable (s ++ t)) : IsStable t := by
  induction s with
  | nil => exact h
  | cons c s ih => exact ih h.2.2

theorem IsStable.of_infix {s t : Text} (h : IsStable t) (hs : s <:+: t) : IsStable s := by
  obtain ⟨before, after, rfl⟩ := hs
  exact h.of_append_left.of_append_right

private theorem Spells.not_continuation {a : UInt8} {s : Bytes} {c : Rune} (h : Spells a s c) :
    isContinuation a = false := by
  rw [← Bool.not_eq_true, isContinuation_iff]
  cases h with
  | one ha => omega
  | two ha => omega
  | three ha => omega
  | four ha => omega

/-- Stable texts are put together where the second does not begin with an escape. -/
theorem IsStable.append {s t : Text} (hs : IsStable s) (ht : IsStable t)
    (hhead : ∀ c, t.head? = some c → isEscape c = false) : IsStable (s ++ t) := by
  induction s with
  | nil => exact ht
  | cons c s ih =>
      obtain ⟨hencodable, hlost, hrest⟩ := hs
      rw [List.cons_append]
      refine ⟨hencodable, fun hc => ?_, ih hrest⟩
      rw [bytesOf_append]
      intro r u d hsplit hspells
      rcases List.append_eq_append_iff.mp hsplit with ⟨v, hr, ht'⟩ | ⟨v, hr, -⟩
      · cases v with
        | nil =>
            rw [List.append_nil] at hr
            exact hlost hc r [] d (by simp [hr]) hspells
        | cons b v =>
            have hb : isContinuation b = true := hspells.continuation b (by simp [hr])
            cases t with
            | nil => simp at ht'
            | cons e t =>
                obtain ⟨a, s', he⟩ := exists_spells ht.1 (hhead e rfl)
                rw [bytesOf_cons, he.encodeRune.1] at ht'
                obtain rfl : a = b := (List.cons.inj ht').1
                rw [he.not_continuation] at hb
                cases hb
      · exact hlost hc r v d hr hspells

end TodoLedger.Utf8
