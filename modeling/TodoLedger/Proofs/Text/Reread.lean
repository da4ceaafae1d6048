import TodoLedger.Proofs.Text.Append
import TodoLedger.Proofs.Text.Cut
/-!
# What a text is read back to

A text is written as bytes and read again. Stable texts come back as they are. In others escaped bytes
that stand side by side come together to characters; but no line ends where none ended before, and no
ASCII text comes to stand where it did not.
-/

namespace TodoLedger

namespace Utf8

variable {s t : Text} {c : Rune}

/-- What is read from the bytes on which a text is written. -/
def reread (t : Text) : Text := decode (bytesOf t)

theorem reread_eq_self_iff : reread t = t ↔ IsStable t :=
  ⟨fun h => h ▸ isStable_decode _, IsStable.decode_bytesOf⟩

theorem bytesOf_reread (t : Text) : bytesOf (reread t) = bytesOf t := bytesOf_decode _

/-- A character that is no escaped byte keeps apart what stands before it and behind it. -/
theorem reread_append_cons (hencodable : isEncodable c = true) (hc : isEscape c = false) :
    reread (s ++ c :: t) = reread s ++ c :: reread t := by
  have hbytes : bytesOf (s ++ c :: t) = bytesOf s ++ bytesOf (c :: reread t) := by
    rw [bytesOf_append, bytesOf_cons, bytesOf_cons, bytesOf_reread]
  have hstable : IsStable (c :: reread t) := (isStable_cons hencodable hc).mpr (isStable_decode _)
  rw [reread, hbytes, decode_append _ hstable fun d hd => Option.some.inj hd ▸ hc]
  rfl

theorem reread_cons (hencodable : isEncodable c = true) (hc : isEscape c = false) :
    reread (c :: t) = c :: reread t := reread_append_cons (s := []) hencodable hc

theorem endFree_reread (h : Text.EndFree t) : Text.EndFree (reread t) := by
  intro c hc
  by_contra hend
  rw [Bool.not_eq_false, Rune.isLineEnd, Bool.or_eq_true, decide_eq_true_eq, decide_eq_true_eq] at hend
  have hmem : ∀ b ∈ encodeRune c, b ∈ bytesOf t := by
    intro b hb
    rw [← bytesOf_reread]
    exact List.mem_flatMap.mpr ⟨c, hc, hb⟩
  rcases hend with rfl | rfl
  · exact (endFree_bytesOf h _ (hmem _ List.mem_cons_self)).1 rfl
  · exact (endFree_bytesOf h _ (hmem _ List.mem_cons_self)).2 rfl

private theorem exists_of_bytesOf_cons {front back : Bytes} (hc : c.code < 0x80)
    (h : bytesOf t = front ++ (encodeRune c ++ back)) :
    ∃ s u, t = s ++ c :: u ∧ bytesOf s = front ∧ bytesOf u = back := by
  obtain ⟨-, hbyte⟩ := (encodeRune_cases c).resolve_right fun hwide => by omega
  have hsmall : (UInt8.ofNat c.code).toNat = c.code := by
    rw [UInt8.toNat_ofNat']
    omega
  rw [hbyte, List.singleton_append] at h
  induction t generalizing front with
  | nil => simp at h
  | cons d t ih =>
      rw [bytesOf_cons] at h
      rcases List.append_eq_append_iff.mp h with ⟨bs, rfl, hrest⟩ | ⟨bs, hd, hrest⟩
      · obtain ⟨s, u, rfl, rfl, hu⟩ := ih hrest
        exact ⟨d :: s, u, rfl, bytesOf_cons d s, hu⟩
      · cases bs with
        | nil =>
            obtain ⟨s, u, rfl, hs, hu⟩ := @ih [] hrest.symm
            refine ⟨d :: s, u, rfl, ?_, hu⟩
            rw [bytesOf_cons, hs, hd, List.append_nil, List.append_nil]
        | cons a bs =>
            -- the byte belongs to this character, which is no other than the one looked for
            obtain ⟨rfl, hback⟩ := List.cons.inj hrest
            have hmem : UInt8.ofNat c.code ∈ encodeRune d := by simp [hd]
            obtain rfl : d = c := Rune.ext (by rw [eq_of_mem_encodeRune hmem (by omega), hsmall])
            rw [hbyte] at hd
            obtain ⟨rfl, hsingle⟩ : front = [] ∧ bs = [] := by
              have hlength := congrArg List.length hd
              simp only [List.length_append, List.length_cons, List.length_nil] at hlength
              exact ⟨List.length_eq_zero_iff.mp (by omega), List.length_eq_zero_iff.mp (by omega)⟩
            exact ⟨[], t, rfl, rfl, by rw [hback, hsingle]; rfl⟩

private theorem exists_of_bytesOf_append {m : Text} {front back : Bytes} (hne : m ≠ [])
    (hm : ∀ c ∈ m, c.code < 0x80) (h : bytesOf t = front ++ (bytesOf m ++ back)) :
    ∃ s u, t = s ++ (m ++ u) ∧ bytesOf s = front := by
  induction m generalizing t front with
  | nil => exact absurd rfl hne
  | cons c m ih =>
      obtain ⟨hc, hm⟩ := List.forall_mem_cons.mp hm
      rw [bytesOf_cons, List.append_assoc] at h
      obtain ⟨s, u, rfl, hs, hu⟩ := exists_of_bytesOf_cons hc h
      by_cases hlast : m = []
      · exact ⟨s, u, by rw [hlast]; rfl, hs⟩
      · obtain ⟨s', u', rfl, hs'⟩ := @ih _ [] hlast hm hu
        cases s' with
        | nil => exact ⟨s, u', rfl, hs⟩
        | cons d s' =>
            have hnone := (encodeRune_cases d).elim (fun h => by simp [h.2]) fun h => h.2.1
            simp [hnone] at hs'

/-- ASCII text that is read back stood in the text. -/
theorem infix_of_infix_reread {m : Text} (hm : ∀ c ∈ m, c.code < 0x80) (h : m <:+: reread t) :
    m <:+: t := by
  by_cases hne : m = []
  · rw [hne]
    exact List.nil_infix
  · obtain ⟨s, u, hsplit⟩ := h
    have hbytes : bytesOf t = bytesOf s ++ (bytesOf m ++ bytesOf u) := by
      rw [← bytesOf_reread, ← hsplit, bytesOf_append, bytesOf_append, List.append_assoc]
    obtain ⟨s', u', rfl, -⟩ := exists_of_bytesOf_append hne hm hbytes
    exact ⟨s', u', by rw [List.append_assoc]⟩

end Utf8

end TodoLedger
