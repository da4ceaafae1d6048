import TodoLedger.Proofs.Text.Stable
/-!
# Physical lines of bytes

Bytes are cut into physical lines behind each line feed, each carriage return and each pair of the
two. The cut needs no decoding: it is where the lines of the text are cut that is read from the bytes,
whether these are valid or not.
-/

namespace TodoLedger

open Utf8

namespace Bytes

def lineFeed : UInt8 := 10

def carriageReturn : UInt8 := 13

/-- No byte ends a line. -/
def EndFree (bytes : Bytes) : Prop := ∀ b ∈ bytes, b ≠ lineFeed ∧ b ≠ carriageReturn

/-- The physical lines of some bytes, each with the bytes that end it. -/
inductive Cut : Bytes → List Bytes → Prop
  | nil : Cut [] []
  | last {body : Bytes} : body ≠ [] → EndFree body → Cut body [body]
  | lf {body rest : Bytes} {ls : List Bytes} : EndFree body → Cut rest ls →
      Cut (body ++ [lineFeed] ++ rest) ((body ++ [lineFeed]) :: ls)
  | cr {body rest : Bytes} {ls : List Bytes} : EndFree body → rest.head? ≠ some lineFeed →
      Cut rest ls → Cut (body ++ [carriageReturn] ++ rest) ((body ++ [carriageReturn]) :: ls)
  | crlf {body rest : Bytes} {ls : List Bytes} : EndFree body → Cut rest ls →
      Cut (body ++ [carriageReturn, lineFeed] ++ rest)
        ((body ++ [carriageReturn, lineFeed]) :: ls)

end Bytes

namespace Utf8

/-- The written form of a character is one ASCII byte, or it holds no ASCII byte at all. -/
theorem encodeRune_cases (c : Rune) : (c.code < 0x80 ∧ encodeRune c = [UInt8.ofNat c.code]) ∨
    0x80 ≤ c.code ∧ encodeRune c ≠ [] ∧ ∀ b ∈ encodeRune c, 0x80 ≤ b.toNat := by
  have hlt := c.isLt
  have htoNat : ∀ n, (octet n).toNat = n % 256 := fun n => by simp [octet]
  rw [encodeRune]
  split_ifs with hescape hone htwo hthree
  · right
    simp only [isEscape, Bool.and_eq_true, decide_eq_true_eq] at hescape
    simp only [List.forall_mem_singleton, htoNat]
    exact ⟨by omega, by simp, by omega⟩
  · exact Or.inl ⟨hone, rfl⟩
  · right
    simp only [List.forall_mem_cons, htoNat]
    exact ⟨by omega, by simp, by omega, by omega, by simp⟩
  · right
    simp only [List.forall_mem_cons, htoNat]
    exact ⟨by omega, by simp, by omega, by omega, by omega, by simp⟩
  · right
    simp only [List.forall_mem_cons, htoNat]
    exact ⟨by omega, by simp, by omega, by omega, by omega, by omega, by simp⟩

/-- A byte that ends a line is the written form of the character that does. -/
theorem eq_of_mem_encodeRune {c : Rune} {b : UInt8} (h : b ∈ encodeRune c) (hb : b.toNat < 0x80) :
    c.code = b.toNat := by
  rcases encodeRune_cases c with ⟨hcode, hbytes⟩ | ⟨-, -, hbytes⟩
  · rw [hbytes, List.mem_singleton] at h
    rw [h, UInt8.toNat_ofNat']
    omega
  · exact absurd (hbytes b h) (by omega)

theorem endFree_bytesOf {t : Text} (h : Text.EndFree t) : Bytes.EndFree (bytesOf t) := by
  intro b hb
  obtain ⟨c, hc, hb⟩ := List.mem_flatMap.mp hb
  obtain ⟨hlf, hcr⟩ := Text.isLineEnd_eq_false.mp (h c hc)
  constructor
  · rintro rfl
    exact hlf (Rune.ext (eq_of_mem_encodeRune hb (by decide)))
  · rintro rfl
    exact hcr (Rune.ext (eq_of_mem_encodeRune hb (by decide)))

theorem head?_bytesOf_ne {t : Text} (h : t.head? ≠ some (Rune.ofChar '\n')) :
    (bytesOf t).head? ≠ some Bytes.lineFeed := by
  cases t with
  | nil => simp
  | cons c t =>
      intro hhead
      have hmem : Bytes.lineFeed ∈ encodeRune c := by
        rcases encodeRune_cases c with ⟨-, hbytes⟩ | ⟨-, hne, -⟩
        · rw [bytesOf_cons, hbytes] at hhead
          rw [hbytes, List.mem_singleton]
          exact (Option.some.inj hhead).symm
        · obtain ⟨b, bs, hbytes⟩ := List.exists_cons_of_ne_nil hne
          rw [bytesOf_cons, hbytes] at hhead
          rw [hbytes, ← Option.some.inj hhead]
          exact List.mem_cons_self
      exact h (congrArg some (Rune.ext (eq_of_mem_encodeRune hmem (by decide))))

end Utf8

def Line.bytes (l : Line) : Bytes := bytesOf l.text

theorem Text.bytesOf_ofLines (ls : List Line) :
    bytesOf (ofLines ls) = (ls.map Line.bytes).flatten := by
  induction ls with
  | nil => rfl
  | cons l ls ih => rw [ofLines_cons, bytesOf_append, ih, List.map_cons, List.flatten_cons, Line.bytes]

namespace Text

/-- Lines that are well cut are written as the physical lines of their bytes. -/
theorem WellCut.cut {ls : List Line} (h : WellCut ls) :
    Bytes.Cut (bytesOf (ofLines ls)) (ls.map Line.bytes) := by
  induction h with
  | nil => exact .nil
  | @last body hne hb =>
      have hbytes : bytesOf body ≠ [] := by
        obtain ⟨c, t, rfl⟩ := List.exists_cons_of_ne_nil hne
        rcases encodeRune_cases c with ⟨-, hc⟩ | ⟨-, hc, -⟩
        · simp [hc]
        · simp [hc]
      simpa [Line.bytes, Line.text, Ending.text] using Bytes.Cut.last hbytes (endFree_bytesOf hb)
  | @cons l ls hb he hcr hls ih =>
      obtain ⟨body, e⟩ := l
      have hbody := endFree_bytesOf hb
      rw [ofLines_cons, bytesOf_append, List.map_cons, Line.bytes, Line.text, bytesOf_append]
      cases e with
      | «open» => exact absurd rfl he
      | lf => exact .lf hbody ih
      | crlf => exact .crlf hbody ih
      | cr => exact .cr hbody (head?_bytesOf_ne (head?_ofLines_ne hls (hcr rfl))) ih

end Text

/-- The lines that are read from some bytes are written as their physical lines. -/
theorem Bytes.cut_decode (bytes : Bytes) :
    Bytes.Cut bytes ((Text.lines (decode bytes)).map Line.bytes) := by
  have hcut := (Text.wellCut_lines (decode bytes)).cut
  rwa [Text.ofLines_lines, bytesOf_decode] at hcut

end TodoLedger
