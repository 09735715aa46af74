/-!
# Half-width katakana

The katakana of half width stand outside the double-byte set. `widen` gives the ordinary form of
one.
-/

namespace ProjectOrder.Encoding.Kana

/-- The first code point of half-width katakana. -/
def halfWidthFirst : Nat := 0xFF61

/-- How many half-width katakana there are. -/
def halfWidthCount : Nat := 63

/-- The ordinary forms of the half-width katakana, in their order. -/
def wideForms : List Char :=
  "。「」、・ヲァィゥェォャュョッーアイウエオカキクケコサシスセソタチツテトナニヌネノハヒフヘホマミムメモヤユヨラリルレロワン゛゜".toList

/-- The place of a character among the half-width katakana. -/
def halfWidthIndex? (c : Char) : Option Nat :=
  if halfWidthFirst ≤ c.toNat ∧ c.toNat < halfWidthFirst + halfWidthCount then
    some (c.toNat - halfWidthFirst)
  else none

/-- The half-width katakana of a place. -/
def halfWidth (i : Nat) : Char :=
  Char.ofNat (halfWidthFirst + i)

/-- The ordinary form of a half-width katakana; other characters stay. -/
def widen (c : Char) : Char :=
  ((halfWidthIndex? c).bind (wideForms[·]?)).getD c

end ProjectOrder.Encoding.Kana
