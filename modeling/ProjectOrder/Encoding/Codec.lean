import ProjectOrder.Encoding.Basic
import ProjectOrder.Encoding.Gb18030
import ProjectOrder.Encoding.Iso2022Jp

/-!
# Reading and writing encoded text

`Encoding.decode?` and `Encoding.encode?` go between bytes and characters. Both fail as a whole if
any part has no counterpart. What the double-byte sets hold is left to the `Indexes`.
-/

namespace ProjectOrder.Encoding

variable [Indexes]

/-! ## Reading -/

/-- Reads a text byte by byte: ASCII as it is, and any other byte by a function that may take up
more bytes. -/
def decodeWith (special : UInt8 → List UInt8 → Option (List Char × List UInt8)) :
    Nat → List UInt8 → Option (List Char)
  | _, [] => some []
  | 0, _ :: _ => none
  | fuel + 1, b :: bs =>
    if b < 0x80 then (decodeWith special fuel bs).map (Char.ofNat b.toNat :: ·)
    else
      match special b bs with
      | some (cs, rest) => (decodeWith special fuel rest).map (cs ++ ·)
      | none => none

/-- The character of a sequence of four bytes, of which the last two are still to come. -/
def fourBytes? (b t : UInt8) : List UInt8 → Option (List Char × List UInt8)
  | b₃ :: b₄ :: rest =>
    ((Gb18030.numberOfBytes? b t b₃ b₄).bind Gb18030.point?).map
      fun point => ([Char.ofNat point], rest)
  | _ => none

/-- The first character of GB 18030 above ASCII: the euro sign, a sequence of four bytes, of which
the second is a digit, or two bytes. -/
def specialGb (b : UInt8) (bs : List UInt8) : Option (List Char × List UInt8) :=
  if b = 0x80 then some (['\u20AC'], bs)
  else
    match bs with
    | [] => none
    | t :: rest =>
      if 0x30 ≤ t ∧ t ≤ 0x39 then fourBytes? b t rest
      else Layout.gb.next? Indexes.gb18030 b bs

/-- The pointers of Big5 that stand for a letter and a mark on it. -/
def big5Marked : List (Nat × List Char) :=
  [(1133, ['\u00CA', '\u0304']), (1135, ['\u00CA', '\u030C']), (1164, ['\u00EA', '\u0304']),
   (1166, ['\u00EA', '\u030C'])]

/-- The first characters of Big5 above ASCII. -/
def specialBig5 (b : UInt8) (bs : List UInt8) : Option (List Char × List UInt8) :=
  match bs with
  | [] => none
  | t :: rest => do
    let pointer ← Layout.big5.pointer? b t
    match big5Marked.lookup pointer with
    | some marked => return (marked, rest)
    | none => return ([← Indexes.big5.char? pointer], rest)

/-- The first character of EUC for Japanese above ASCII: a half-width katakana or a character of the
second set, each after a shift byte, or one of the first set. -/
def specialEucJp (b : UInt8) (bs : List UInt8) : Option (List Char × List UInt8) :=
  match bs with
  | [] => none
  | t :: rest =>
    if b = 0x8E then
      if 0xA1 ≤ t ∧ t ≤ 0xDF then some ([Kana.halfWidth (t.toNat - 0xA1)], rest) else none
    else if b = 0x8F then Layout.eucJp.next? Indexes.jis0212 t rest
    else Layout.eucJp.next? Indexes.jis0208 b bs

/-- The first private-use character of the Shift JIS user area. -/
def userAreaFirst : Nat := 0xE000

/-- The first and the last pointer of the Shift JIS user area. -/
def userArea : Nat × Nat := (8836, 10715)

/-- The first character of Shift JIS above ASCII: a single byte, a character of the user area or one
of the Japanese set. -/
def specialShiftJis (b : UInt8) (bs : List UInt8) : Option (List Char × List UInt8) :=
  if b = 0x80 then some (['\u0080'], bs)
  else if 0xA1 ≤ b ∧ b ≤ 0xDF then some ([Kana.halfWidth (b.toNat - 0xA1)], bs)
  else
    match bs with
    | [] => none
    | t :: rest => do
      let pointer ← Layout.shiftJis.pointer? b t
      if userArea.1 ≤ pointer ∧ pointer ≤ userArea.2 then
        return ([Char.ofNat (userAreaFirst + (pointer - userArea.1))], rest)
      else return ([← Indexes.jis0208.char? pointer], rest)

/-- The text of some bytes, if all of them are characters. -/
def decode? (e : Encoding) (bs : List UInt8) : Option (List Char) :=
  match e with
  | utf8 => (String.fromUTF8? ⟨bs.toArray⟩).map String.toList
  | charset c => bs.mapM c.decodeByte?
  | gbk | gb18030 => decodeWith specialGb bs.length bs
  | big5 => decodeWith specialBig5 bs.length bs
  | eucKr => decodeWith (Layout.eucKr.next? Indexes.eucKr) bs.length bs
  | eucJp => decodeWith specialEucJp bs.length bs
  | shiftJis => decodeWith specialShiftJis bs.length bs
  | iso2022Jp => Iso2022Jp.decode? bs
  | replacement | utf16be | utf16le => none

/-! ## Writing -/

/-- The pointer of a character in GB 18030, that of its new code point if it has moved. -/
def gbPointer? (c : Char) : Option Nat :=
  match Gb18030.moved.lookup c with
  | some (pointer, _) => some pointer
  | none => Indexes.gb18030.pointer? c

/-- The bytes of a character above ASCII in GBK. -/
def gbkBytes? (c : Char) : Option (List UInt8) :=
  if c = '\uE5E5' then none
  else if c = '\u20AC' then some [0x80]
  else (gbPointer? c).map Layout.gb.bytes

/-- The bytes of a character above ASCII in GB 18030, two of them where there are such. -/
def gb18030Bytes? (c : Char) : Option (List UInt8) :=
  if c = '\uE5E5' then none
  else
    match gbPointer? c with
    | some pointer => some (Layout.gb.bytes pointer)
    | none => (Gb18030.number? c.toNat).map Gb18030.bytesOfNumber

/-- The first pointer of Big5 that is written. -/
def big5First : Nat := 5024

/-- The characters of Big5 that are written with the last of their pointers. -/
def big5Last : List Char :=
  ['\u2550', '\u255E', '\u2561', '\u256A', '\u5341', '\u5345']

/-- The pointer with which a character is written in Big5. -/
def big5Pointer? (c : Char) : Option Nat :=
  let rows := Indexes.big5.rows.filter fun row => big5First ≤ row.1
  firstPointer? (if c ∈ big5Last then rows.reverse else rows) c

/-- The bytes of a character above ASCII in EUC for Japanese. -/
def eucJpBytes? (c : Char) : Option (List UInt8) :=
  if c = '\u00A5' then some [0x5C]
  else if c = '\u203E' then some [0x7E]
  else
    match Kana.halfWidthIndex? c with
    | some i => some [0x8E, (0xA1 + i).toUInt8]
    | none => (Indexes.jis0208.pointer? (japaneseForm c)).map Layout.eucJp.bytes

/-- The first and the last pointer of the Japanese set that Shift JIS does not write. -/
def shiftJisUnused : Nat × Nat := (8272, 8835)

/-- The pointer with which a character is written in Shift JIS. -/
def shiftJisPointer? (c : Char) : Option Nat :=
  firstPointer? (Indexes.jis0208.rows.filter fun row =>
    row.1 < shiftJisUnused.1 || shiftJisUnused.2 < row.1) c

/-- The bytes of a character above ASCII in Shift JIS. The user area can be read only. -/
def shiftJisBytes? (c : Char) : Option (List UInt8) :=
  if c = '\u0080' then some [0x80]
  else if c = '\u00A5' then some [0x5C]
  else if c = '\u203E' then some [0x7E]
  else
    match Kana.halfWidthIndex? c with
    | some i => some [(0xA1 + i).toUInt8]
    | none => (shiftJisPointer? (japaneseForm c)).map Layout.shiftJis.bytes

/-- Writes a text character by character: ASCII as it is, and the rest by a function. -/
def encodeWith (special : Char → Option (List UInt8)) (cs : List Char) : Option (List UInt8) :=
  (cs.mapM fun c => if c.toNat < 0x80 then some [c.toNat.toUInt8] else special c).map List.flatten

/-- The bytes of a text, if all its characters can be written. -/
def encode? (e : Encoding) (cs : List Char) : Option (List UInt8) :=
  match e.output with
  | charset c => cs.mapM c.encodeChar?
  | gbk => encodeWith gbkBytes? cs
  | gb18030 => encodeWith gb18030Bytes? cs
  | big5 => encodeWith (fun c => (big5Pointer? c).map Layout.big5.bytes) cs
  | eucKr => encodeWith (fun c => (Indexes.eucKr.pointer? c).map Layout.eucKr.bytes) cs
  | eucJp => encodeWith eucJpBytes? cs
  | shiftJis => encodeWith shiftJisBytes? cs
  | iso2022Jp => Iso2022Jp.encode? cs
  | utf8 | replacement | utf16be | utf16le => some (String.ofList cs).toUTF8.toList

end ProjectOrder.Encoding
