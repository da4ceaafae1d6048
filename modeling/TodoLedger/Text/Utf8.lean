import TodoLedger.Text.Rune
/-!
# UTF-8 with bytes kept

Every sequence of bytes is read as a text: a byte that takes part in no valid sequence becomes the
surrogate `U+DC00 + byte`, and writing the text gives that byte back. Reading strictly refuses such
bytes instead. Surrogates outside `U+DC80` to `U+DCFF` cannot be written.
-/

namespace TodoLedger

abbrev Bytes := List UInt8

/-- A surrogate at a position of a text that could not be written, with the run it belongs to. -/
structure EncodingFault where
  rune : Rune
  position : Nat
  count : Nat
deriving DecidableEq

/-- Why bytes are no valid UTF-8. -/
inductive DecodingCause
  | badStart
  | badContinuation
  | endsEarly
deriving DecidableEq

/-- The first bytes that are no valid UTF-8. -/
structure DecodingFault where
  byte : UInt8
  position : Nat
  count : Nat
  cause : DecodingCause
deriving DecidableEq

namespace Utf8

def isContinuation (b : UInt8) : Bool := 0x80 ≤ b && b < 0xC0

def low (b : UInt8) : Nat := b.toNat - 0x80

/-- The second byte is one that the first byte admits: no form longer than needed, no surrogate and
nothing above `U+10FFFF`. -/
def isSecond (a b : UInt8) : Bool :=
  isContinuation b &&
    (a != 0xE0 || 0xA0 ≤ b) && (a != 0xED || b < 0xA0) && (a != 0xF0 || 0x90 ≤ b) &&
    (a != 0xF4 || b < 0x90)

/-- What the bytes after a first byte make of it: a character that takes so many further bytes, or
a fault of so many bytes. -/
def head (a : UInt8) (r : Bytes) : Except (Nat × DecodingCause) (Rune × Nat) :=
  if a < 0x80 then .ok (Rune.ofNat a.toNat, 0)
  else if a < 0xC2 || 0xF4 < a then .error (1, .badStart)
  else match r with
    | [] => .error (1, .endsEarly)
    | b :: r =>
      if !isSecond a b then .error (1, .badContinuation)
      else if a < 0xE0 then .ok (Rune.ofNat ((a.toNat - 0xC0) * 0x40 + low b), 1)
      else match r with
        | [] => .error (2, .endsEarly)
        | c :: r =>
          if !isContinuation c then .error (2, .badContinuation)
          else if a < 0xF0 then
            .ok (Rune.ofNat (((a.toNat - 0xE0) * 0x40 + low b) * 0x40 + low c), 2)
          else match r with
            | [] => .error (3, .endsEarly)
            | d :: _ =>
              if !isContinuation d then .error (3, .badContinuation)
              else .ok (Rune.ofNat
                ((((a.toNat - 0xF0) * 0x40 + low b) * 0x40 + low c) * 0x40 + low d), 3)

/-- The surrogate that stands for a byte that is no valid UTF-8. -/
def escape (b : UInt8) : Rune := Rune.ofNat (0xDC00 + b.toNat)

/-- Reads the bytes after the first `skip`. -/
def decodeFrom : Nat → Bytes → Text
  | _, [] => []
  | skip + 1, _ :: r => decodeFrom skip r
  | 0, a :: r =>
    match head a r with
    | .ok (c, n) => c :: decodeFrom n r
    | .error _ => escape a :: decodeFrom 0 r

/-- The text of any bytes. -/
def decode (bytes : Bytes) : Text := decodeFrom 0 bytes

def strictFrom (position : Nat) : Nat → Bytes → Except DecodingFault Text
  | _, [] => .ok []
  | skip + 1, _ :: r => strictFrom (position + 1) skip r
  | 0, a :: r =>
    match head a r with
    | .ok (c, n) => (strictFrom (position + 1) n r).map (c :: ·)
    | .error (count, cause) => .error ⟨a, position, count, cause⟩

/-- The text of bytes that are valid UTF-8. -/
def decodeStrict (bytes : Bytes) : Except DecodingFault Text := strictFrom 0 0 bytes

def isSurrogate (c : Rune) : Bool := 0xD800 ≤ c.code && c.code ≤ 0xDFFF

/-- The surrogates that stand for a byte. -/
def isEscape (c : Rune) : Bool := 0xDC80 ≤ c.code && c.code ≤ 0xDCFF

/-- The character has a written form. -/
def isEncodable (c : Rune) : Bool := isEscape c || !isSurrogate c

def octet (n : Nat) : UInt8 := UInt8.ofNat n

def encodeRune (c : Rune) : Bytes :=
  let n := c.code
  if isEscape c then [octet (n - 0xDC00)]
  else if n < 0x80 then [octet n]
  else if n < 0x800 then [octet (0xC0 + n / 0x40), octet (0x80 + n % 0x40)]
  else if n < 0x10000 then
    [octet (0xE0 + n / 0x1000), octet (0x80 + n / 0x40 % 0x40), octet (0x80 + n % 0x40)]
  else
    [octet (0xF0 + n / 0x40000), octet (0x80 + n / 0x1000 % 0x40), octet (0x80 + n / 0x40 % 0x40),
      octet (0x80 + n % 0x40)]

def encodeFrom (position : Nat) : Text → Except EncodingFault Bytes
  | [] => .ok []
  | c :: r =>
    if isEncodable c then (encodeFrom (position + 1) r).map (encodeRune c ++ ·)
    else .error ⟨c, position, 1 + (r.takeWhile isSurrogate).length⟩

/-- The bytes of a text. -/
def encode (t : Text) : Except EncodingFault Bytes := encodeFrom 0 t

end Utf8

namespace EncodingFault

def message (f : EncodingFault) : Text :=
  (if f.count = 1 then
    "'utf-8' codec can't encode character '\\u" ++ Text.hex 4 f.rune.code ++ "' in position " ++
      Text.ofNat f.position
  else
    "'utf-8' codec can't encode characters in position " ++ Text.ofNat f.position ++ "-" ++
      Text.ofNat (f.position + f.count - 1)) ++ ": surrogates not allowed"

end EncodingFault

namespace DecodingFault

def message (f : DecodingFault) : Text :=
  (if f.count = 1 then
    "'utf-8' codec can't decode byte 0x" ++ Text.hex 2 f.byte.toNat ++ " in position " ++
      Text.ofNat f.position
  else
    "'utf-8' codec can't decode bytes in position " ++ Text.ofNat f.position ++ "-" ++
      Text.ofNat (f.position + f.count - 1)) ++
  match f.cause with
  | .badStart => ": invalid start byte"
  | .badContinuation => ": invalid continuation byte"
  | .endsEarly => ": unexpected end of data"

end DecodingFault

end TodoLedger
