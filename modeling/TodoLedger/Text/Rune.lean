/-!
# Runes and text

A text is a list of code points. Surrogates are admitted, because a byte of a file that is not
valid UTF-8 is kept in a text as the surrogate `U+DC00 + byte`; every other surrogate has no
encoding at all.
-/

namespace TodoLedger

/-- A code point: a Unicode character, or a surrogate standing alone. -/
structure Rune where
  code : Nat
  isLt : code < 0x110000
deriving DecidableEq

namespace Rune

/-- The code point of a number, or the replacement character where there is none. -/
def ofNat (n : Nat) : Rune :=
  if h : n < 0x110000 then ⟨n, h⟩ else ⟨0xFFFD, by decide⟩

def ofChar (c : Char) : Rune := ofNat c.toNat

/-- The character of a code point; a surrogate gives the replacement character. -/
def toChar (c : Rune) : Char :=
  if c.code.isValidChar then Char.ofNat c.code else Char.ofNat 0xFFFD

instance : Coe Char Rune := ⟨ofChar⟩

instance : Inhabited Rune := ⟨ofNat 0⟩

@[ext] theorem ext {a b : Rune} (h : a.code = b.code) : a = b := by
  cases a; cases b; simp_all

theorem code_ofNat {n : Nat} (h : n < 0x110000) : (ofNat n).code = n := by
  simp [ofNat, h]

/-- The code lies in one of the ranges, ends included. -/
def within (ranges : List (Nat × Nat)) (c : Rune) : Bool :=
  ranges.any fun r => r.1 ≤ c.code && c.code ≤ r.2

end Rune

abbrev Text := List Rune

end TodoLedger

/-- The code points of a string. -/
def String.toText (s : String) : TodoLedger.Text := s.toList.map TodoLedger.Rune.ofChar

namespace TodoLedger

instance : Coe String Text := ⟨String.toText⟩

namespace Text

/-- The string of a text, a lone surrogate shown as the replacement character. -/
def toString (t : Text) : String := String.ofList (t.map Rune.toChar)

/-- A natural number in decimal. -/
def ofNat (n : Nat) : Text := (Nat.toDigits 10 n).map Rune.ofChar

def ofInt : Int → Text
  | .ofNat n => ofNat n
  | .negSucc n => Rune.ofChar '-' :: ofNat (n + 1)

/-- A natural number in decimal, filled with zeros up to a width. -/
def padded (width n : Nat) : Text :=
  List.replicate (width - (ofNat n).length) (Rune.ofChar '0') ++ ofNat n

/-- A natural number in lower-case hexadecimal, filled with zeros up to a width. -/
def hex (width n : Nat) : Text :=
  let digits := (Nat.toDigits 16 n).map Rune.ofChar
  List.replicate (width - digits.length) (Rune.ofChar '0') ++ digits

def join (separator : Text) (parts : List Text) : Text := separator.intercalate parts

/-- Comparison code point by code point; a proper beginning comes first. -/
def le : Text → Text → Bool
  | [], _ => true
  | _ :: _, [] => false
  | a :: s, b :: t => if a.code = b.code then le s t else a.code < b.code

end Text

end TodoLedger
