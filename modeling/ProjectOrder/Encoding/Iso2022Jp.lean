import ProjectOrder.Encoding.Index
import ProjectOrder.Encoding.Kana

/-!
# Escape sequences of ISO 2022 for Japanese

Text in seven bits, in which escape sequences switch between ASCII, its Japanese variant, half-width
katakana and the double-byte set. Half-width katakana can be read, but are written in their ordinary
form.
-/

namespace ProjectOrder.Encoding

/-- The form in which the Japanese set has a character: the minus sign is written in full width. -/
def japaneseForm (c : Char) : Char :=
  if c = '\u2212' then '\uFF0D' else c

namespace Iso2022Jp

/-- The character set that the bytes are in. -/
inductive Mode where
  | ascii
  /-- ASCII with the yen sign and the overline for backslash and tilde. -/
  | roman
  | katakana
  | doubleByte
deriving DecidableEq, Repr

/-- The mode that an escape sequence switches to, by its last two bytes. -/
def Mode.ofEscape? (a b : UInt8) : Option Mode :=
  if a = 0x28 ∧ b = 0x42 then some ascii
  else if a = 0x28 ∧ b = 0x4A then some roman
  else if a = 0x28 ∧ b = 0x49 then some katakana
  else if a = 0x24 ∧ (b = 0x40 ∨ b = 0x42) then some doubleByte
  else none

/-- The bytes that switch to a mode. -/
def Mode.escape : Mode → List UInt8
  | ascii => [0x1B, 0x28, 0x42]
  | roman => [0x1B, 0x28, 0x4A]
  | katakana => [0x1B, 0x28, 0x49]
  | doubleByte => [0x1B, 0x24, 0x42]

/-- The shift and escape controls stand for no characters. -/
def isShift (n : Nat) : Bool :=
  n == 0x0E || n == 0x0F || n == 0x1B

/-- The character of a byte in a single-byte mode. -/
def single? (m : Mode) (b : UInt8) : Option Char :=
  let n := b.toNat
  match m with
  | .ascii => if n < 0x80 ∧ !isShift n then some (Char.ofNat n) else none
  | .roman =>
    if n = 0x5C then some '\u00A5'
    else if n = 0x7E then some '\u203E'
    else if n < 0x80 ∧ !isShift n then some (Char.ofNat n)
    else none
  | .katakana => if 0x21 ≤ n ∧ n ≤ 0x5F then some (Kana.halfWidth (n - 0x21)) else none
  | .doubleByte => none

variable [Indexes]

/-- The text of some bytes. `escaped` tells that an escape sequence came last: another one must not
follow before a character. -/
def decodeFrom (mode : Mode) (escaped : Bool) : List UInt8 → Option (List Char)
  | [] => some []
  | 0x1B :: a :: b :: rest => do
    let mode ← Mode.ofEscape? a b
    if escaped then none else decodeFrom mode true rest
  | b :: rest =>
    if mode = .doubleByte then
      match rest with
      | [] => none
      | b' :: rest => do
        let c ← Layout.iso2022Jp.char? Indexes.jis0208 b b'
        return c :: (← decodeFrom mode false rest)
    else do
      let c ← single? mode b
      return c :: (← decodeFrom mode false rest)

/-- The text of some bytes. -/
def decode? (bs : List UInt8) : Option (List Char) :=
  decodeFrom .ascii false bs

/-- The mode in which a character is written, and its bytes. An ASCII character is written in the
current mode if that is a single-byte one. -/
def place? (mode : Mode) (c : Char) : Option (Mode × List UInt8) :=
  let n := c.toNat
  if isShift n then none
  else if n < 0x80 then
    if mode = .roman ∧ n ≠ 0x5C ∧ n ≠ 0x7E then some (.roman, [n.toUInt8])
    else some (.ascii, [n.toUInt8])
  else if c = '\u00A5' then some (.roman, [0x5C])
  else if c = '\u203E' then some (.roman, [0x7E])
  else (Indexes.jis0208.pointer? (japaneseForm (Kana.widen c))).map fun pointer =>
    (.doubleByte, Layout.iso2022Jp.bytes pointer)

/-- The bytes of a text, which end in ASCII. -/
def encodeFrom (mode : Mode) : List Char → Option (List UInt8)
  | [] => some (if mode = .ascii then [] else Mode.ascii.escape)
  | c :: cs => do
    let (next, bytes) ← place? mode c
    let rest ← encodeFrom next cs
    return (if next = mode then [] else next.escape) ++ bytes ++ rest

/-- The bytes of a text. -/
def encode? (cs : List Char) : Option (List UInt8) :=
  encodeFrom .ascii cs

end Iso2022Jp

end ProjectOrder.Encoding
