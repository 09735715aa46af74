/-!
# Blank characters

The white space of Unicode, and texts stripped of it at both ends. Markup has its own, narrower
notion of space: `Markup.isSpace`.
-/

namespace ProjectOrder.Text

/-- A character with the Unicode property `White_Space`. -/
def isBlank (c : Char) : Bool :=
  let n := c.toNat
  (0x9 ≤ n && n ≤ 0xD) || n == 0x20 || n == 0x85 || n == 0xA0 || n == 0x1680 ||
    (0x2000 ≤ n && n ≤ 0x200A) || n == 0x2028 || n == 0x2029 || n == 0x202F || n == 0x205F ||
    n == 0x3000

/-- The characters between the leading and the trailing run of `p`. -/
def strip (p : Char → Bool) (cs : List Char) : List Char :=
  ((cs.dropWhile p).reverse.dropWhile p).reverse

/-- A text without the blanks at its two ends. -/
def trim (s : String) : String :=
  String.ofList (strip isBlank s.toList)

/-- A text with no character but blanks. -/
def isBlankText (s : String) : Bool :=
  s.toList.all isBlank

end ProjectOrder.Text
