import ProjectOrder.Text.Letter
import ProjectOrder.Collation.CaseOrder

/-!
# Comparing names

Two comparisons of texts. `compareFolded` compares lowercase forms and ties on spellings of one
name. `compareCased` compares characters and lets the case order decide between two cases of a
letter. The second is meant for texts that tie under the first: on all texts it is not transitive,
since the Kelvin sign comes before `k`, `k` before `l`, and `l` before the Kelvin sign.
-/

namespace ProjectOrder

/-- The dictionary order of the lowercase forms. -/
def compareFolded (a b : List Char) : Ordering :=
  (a.flatMap Text.lowercase).compareLex compare (b.flatMap Text.lowercase)

/-- The order of characters. Where one of two cases of a letter is uppercase and the other is not,
the case order decides; all else goes by code point. -/
def compareChar (order : CaseOrder) (x y : Char) : Ordering :=
  if Text.lowercase x = Text.lowercase y ∧ Text.isUppercase x ≠ Text.isUppercase y then
    let upperFirst := if Text.isUppercase x then Ordering.lt else Ordering.gt
    match order with
    | .upperFirst => upperFirst
    | .lowerFirst => upperFirst.swap
  else compare x y

/-- The dictionary order of the characters under a case order. -/
def compareCased (order : CaseOrder) (a b : List Char) : Ordering :=
  a.compareLex (compareChar order) b

end ProjectOrder
