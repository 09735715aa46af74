import ProjectOrder.Files.FilePath
import ProjectOrder.Proofs.Collation.TextOrder

/-!
# The order of paths

`FilePath.compare` is a total order of component lists: it is transitive, swapping two paths
reverses it, and it ties exactly the paths that are the same.
-/

namespace ProjectOrder.FilePath

open Std (OrientedCmp TransCmp LawfulEqCmp)

namespace Component

/-- The characters of a name. -/
def chars : Component → List Char
  | name s => s
  | root | current | parent => []

/-- The order of components in two stages, each of them transitive on its own. -/
theorem compare_eq_compareLex :
    Component.compare = compareLex (compareOn rank)
      (fun a b => a.chars.compareLex Ord.compare b.chars) := by
  funext a b
  cases a <;> cases b <;> rfl

instance : TransCmp Component.compare := by
  have hchars : TransCmp fun a b : Component => a.chars.compareLex Ord.compare b.chars :=
    transCmp_onto chars
  rw [compare_eq_compareLex]
  infer_instance

instance : LawfulEqCmp Component.compare where
  compare_self := Std.ReflCmp.compare_self
  eq_of_compare {a b} h := by
    rw [compare_eq_compareLex, compareLex, Ordering.then_eq_eq] at h
    obtain ⟨hrank, hchars⟩ := h
    have hrank : a.rank = b.rank := LawfulEqCmp.eq_of_compare hrank
    have hchars : a.chars = b.chars := LawfulEqCmp.eq_of_compare hchars
    cases a <;> cases b <;> simp_all [rank, chars]

end Component

instance : TransCmp FilePath.compare :=
  transCmp_onto components

variable {p q r : FilePath}

/-- The order ties exactly the paths that are the same. -/
theorem compare_eq_eq_iff : p.compare q = .eq ↔ p.same q := by
  rw [compare, LawfulEqCmp.compare_eq_iff_eq, same, decide_eq_true_iff]

/-- A path comes no later than one that is the same. -/
theorem isLE_compare_of_same (h : p.same q) : (p.compare q).isLE := by
  rw [compare_eq_eq_iff.2 h]
  rfl

end ProjectOrder.FilePath
