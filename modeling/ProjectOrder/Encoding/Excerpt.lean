import ProjectOrder.Encoding.Gb18030
import ProjectOrder.Encoding.Index

/-!
# An excerpt of the indexes

The rows of the indexes that are at hand without the published tables: kana with the marks that are
written with them, and the characters of GB 18030 that have moved. The program runs with this
excerpt, so it can neither read nor write text that needs another row. What is proved of reading and
writing holds for any indexes, or for all that have what the published ones have.
-/

namespace ProjectOrder

open Encoding

namespace Indexes

/-- Runs of kana in the Japanese set: pointer of the first, its code point, length. -/
def kana : List (Nat × Nat × Nat) :=
  [(1, 0x3001, 2), (5, 0x30FB, 1), (10, 0x309B, 2), (27, 0x30FC, 1), (53, 0x300C, 2),
   (60, 0xFF0D, 1), (282, 0x3041, 83), (376, 0x30A1, 86)]

/-- The kana have the pointers below 470. -/
theorem kana_le : ∀ run ∈ kana, run.1 + run.2.2 ≤ 470 := by decide

/-- The rows at hand. -/
instance excerpt : Indexes where
  jis0208 :=
    { rows := rowsOf kana
      ascending := (show Ascending 0 kana by decide).pairwise_rowsOf
      lt_size := fun _ hrow => Nat.lt_trans (lt_of_mem_rowsOf kana_le hrow) (by decide) }
  jis0212 := .empty
  gb18030 :=
    { rows := Gb18030.moved.map Prod.snd
      ascending := by decide +kernel
      lt_size := by decide +kernel }
  big5 := .empty
  eucKr := .empty

end Indexes

end ProjectOrder
