/-!
# Double-byte sets

A character of a double-byte set has a number, its pointer, which the two bytes spell. An `Index`
ties pointers to characters and a `Layout` pointers to bytes. The indexes are tables of many
thousand rows that the encoding standard publishes. They are no part of this library: whatever reads
or writes text takes them as a parameter, `Indexes`.
-/

namespace ProjectOrder

namespace Encoding

/-- The first pointer of a character in some rows of an index. -/
def firstPointer? (rows : List (Nat × Char)) (c : Char) : Option Nat :=
  (rows.find? fun row => row.2 = c).map Prod.fst

/-- The index of a set: rows of a pointer and the character it stands for, by ascending pointers. -/
structure Index (size : Nat) where
  rows : List (Nat × Char)
  ascending : rows.Pairwise fun row later => row.1 < later.1
  lt_size : ∀ row ∈ rows, row.1 < size

namespace Index

variable {size : Nat}

/-- The index without rows. -/
def empty : Index size :=
  ⟨[], .nil, nofun⟩

/-- The character of a pointer. -/
def char? (index : Index size) (pointer : Nat) : Option Char :=
  index.rows.lookup pointer

/-- The pointer of a character, the first one if it has several. -/
def pointer? (index : Index size) (c : Char) : Option Nat :=
  firstPointer? index.rows c

end Index

/-- The bytes that number the rows or the columns of a set. They are consecutive but for one gap:
the byte of a number is `low` above it before the gap and `high` above it from there on. -/
structure Axis where
  count : Nat
  gap : Nat
  low : Nat
  high : Nat
  low_le_high : low ≤ high := by decide
  high_le : high + count ≤ 0x100 := by decide

namespace Axis

/-- Consecutive bytes. -/
def run (first count : Nat) (h : first + count ≤ 0x100 := by decide) : Axis :=
  ⟨count, 0, first, first, Nat.le_refl _, h⟩

/-- The byte of a number. -/
def byte (axis : Axis) (n : Nat) : UInt8 :=
  (n + if n < axis.gap then axis.low else axis.high).toUInt8

/-- The number of a byte. -/
def number? (axis : Axis) (b : UInt8) : Option Nat :=
  let b := b.toNat
  if axis.low ≤ b ∧ b < axis.low + axis.gap then some (b - axis.low)
  else if axis.high + axis.gap ≤ b ∧ b < axis.high + axis.count then some (b - axis.high)
  else none

end Axis

/-- How pointers are spelled in two bytes: row by row, the row in the first byte. -/
structure Layout where
  lead : Axis
  trail : Axis

namespace Layout

/-- How many pointers two bytes can spell. -/
def size (layout : Layout) : Nat :=
  layout.lead.count * layout.trail.count

/-- The bytes of a pointer. -/
def bytes (layout : Layout) (pointer : Nat) : List UInt8 :=
  [layout.lead.byte (pointer / layout.trail.count),
    layout.trail.byte (pointer % layout.trail.count)]

/-- The pointer of two bytes. -/
def pointer? (layout : Layout) (b t : UInt8) : Option Nat :=
  match layout.lead.number? b, layout.trail.number? t with
  | some row, some column => some (row * layout.trail.count + column)
  | _, _ => none

/-- The character of two bytes. -/
def char? {size : Nat} (layout : Layout) (index : Index size) (b t : UInt8) : Option Char :=
  (layout.pointer? b t).bind index.char?

/-- The character that two bytes begin with, and the bytes after it. -/
def next? {size : Nat} (layout : Layout) (index : Index size) (b : UInt8) :
    List UInt8 → Option (List Char × List UInt8)
  | [] => none
  | t :: rest => (layout.char? index b t).map fun c => ([c], rest)

/-- The layout of GBK and GB 18030. -/
def gb : Layout where
  lead := .run 0x81 126
  trail := { count := 190, gap := 0x3F, low := 0x40, high := 0x41 }

/-- The layout of Big5. -/
def big5 : Layout where
  lead := .run 0x81 126
  trail := { count := 157, gap := 0x3F, low := 0x40, high := 0x62 }

/-- The layout of EUC for Korean. -/
def eucKr : Layout where
  lead := .run 0x81 126
  trail := .run 0x41 190

/-- The layout of Shift JIS. -/
def shiftJis : Layout where
  lead := { count := 60, gap := 0x1F, low := 0x81, high := 0xC1 }
  trail := { count := 188, gap := 0x3F, low := 0x40, high := 0x41 }

/-- The layout of EUC for Japanese: the 94 rows of the Japanese sets in the upper half of a byte. -/
def eucJp : Layout where
  lead := .run 0xA1 94
  trail := .run 0xA1 94

/-- The layout of ISO 2022 for Japanese: the same rows in the lower half. -/
def iso2022Jp : Layout where
  lead := .run 0x21 94
  trail := .run 0x21 94

end Layout

end Encoding

open Encoding in
/-- The indexes of the double-byte sets. -/
class Indexes where
  /-- JIS X 0208. Shift JIS can spell more rows than the other encodings of the set. -/
  jis0208 : Index Layout.shiftJis.size
  /-- JIS X 0212, in which text can be read, but is not written. -/
  jis0212 : Index Layout.eucJp.size
  gb18030 : Index Layout.gb.size
  big5 : Index Layout.big5.size
  eucKr : Index Layout.eucKr.size

end ProjectOrder
