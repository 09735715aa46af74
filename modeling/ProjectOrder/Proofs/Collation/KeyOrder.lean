import ProjectOrder.Collation.Key
import ProjectOrder.Proofs.Collation.TextOrder

/-!
# The order of keys

Under each case order, `Key.compare` is a total order whose ties are equal keys. Its two cased
stages are transitive only where the folded stage before them ties, so they are joined to it first:
`compareNames` and `compareIdentifiers`.
-/

namespace ProjectOrder

open Std (OrientedCmp TransCmp LawfulEqCmp TransOrd)

namespace Key

/-- Compares names without regard to case and then by spelling. -/
def compareNames (order : CaseOrder) : List (List Char) → List (List Char) → Ordering :=
  compareLex (List.compareLex compareFolded) (List.compareLex (compareCased order))

/-- Compares whole identifiers without regard to case and then by spelling. -/
def compareIdentifiers (order : CaseOrder) : List Char → List Char → Ordering :=
  compareLex compareFolded (compareCased order)

variable {order : CaseOrder}

instance : TransCmp (compareNames order) :=
  trans_within_folded.compareLex_list.transCmp_compareLex

instance : TransCmp (compareIdentifiers order) :=
  trans_within_folded.transCmp_compareLex

/-- The five stages in three groups, each of them transitive on its own. -/
theorem compare_eq_then {a b : Key} :
    compare order a b = (Ord.compare a.kind.rank b.kind.rank).then
      ((compareNames order a.name b.name).then
        (compareIdentifiers order a.identifier.toList b.identifier.toList)) := by
  simp only [compare, compareNames, compareIdentifiers, compareLex, Ordering.then_assoc]

/-- The order of keys is transitive, and swapping two keys reverses it. -/
instance : TransCmp (compare order) := by
  have hnames : TransCmp fun a b : Key => compareNames order a.name b.name :=
    transCmp_onto name
  have hidentifiers : TransCmp fun a b : Key =>
      compareIdentifiers order a.identifier.toList b.identifier.toList :=
    transCmp_onto fun k : Key => k.identifier.toList
  have hgroups : compare order = compareLex (compareOn fun k => k.kind.rank)
      (compareLex (fun a b => compareNames order a.name b.name)
        fun a b => compareIdentifiers order a.identifier.toList b.identifier.toList) := by
    funext a b
    exact compare_eq_then
  rw [hgroups]
  infer_instance

/-- Keys that tie are equal: the last stage compares identifiers character by character. -/
instance : LawfulEqCmp (compare order) where
  compare_self := Std.ReflCmp.compare_self
  eq_of_compare {a b} h := by
    simp only [compare_eq_then, compareIdentifiers, compareLex, Ordering.then_eq_eq] at h
    obtain ⟨hrank, -, -, hidentifier⟩ := h
    have hkind := EntryKind.rank_inj (LawfulEqCmp.eq_of_compare hrank)
    have hidentifier := String.toList_inj.1 (LawfulEqCmp.eq_of_compare hidentifier)
    cases a
    cases b
    simp_all

/-- Under each case order the comparison of keys is a total order: it is antisymmetric and
transitive, strictly so where one of two steps is strict, and it ties only equal keys. -/
theorem compare_totalOrder (order : CaseOrder) (a b c : Key) :
    compare order b a = (compare order a b).swap ∧
      (compare order a b ≠ .gt → compare order b c ≠ .gt →
        compare order a c ≠ .gt ∧
          (compare order a b = .lt ∨ compare order b c = .lt → compare order a c = .lt)) ∧
      (compare order a b = .eq ↔ a.kind = b.kind ∧ a.identifier = b.identifier) := by
  refine ⟨OrientedCmp.eq_swap, fun hab hbc => ?_, ?_⟩
  · have hab := Ordering.ne_gt_iff_isLE.1 hab
    have hbc := Ordering.ne_gt_iff_isLE.1 hbc
    refine ⟨Ordering.ne_gt_iff_isLE.2 (TransCmp.isLE_trans hab hbc), ?_⟩
    rintro (h | h)
    · exact TransCmp.lt_of_lt_of_isLE h hbc
    · exact TransCmp.lt_of_isLE_of_lt hab h
  · rw [LawfulEqCmp.compare_eq_iff_eq]
    constructor
    · rintro rfl
      exact ⟨rfl, rfl⟩
    · intro h
      obtain ⟨kind, identifier⟩ := a
      obtain ⟨rfl, rfl⟩ := h
      rfl

/-- The Kelvin sign is read as a `k` first, so it comes before `l` although its code point does
not. -/
theorem compare_totalOrder_kelvin :
    let kelvin : Key := ⟨.file, "\u212A"⟩
    let k : Key := ⟨.file, "k"⟩
    let l : Key := ⟨.file, "l"⟩
    compare .upperFirst kelvin k ≠ .gt ∧ compare .upperFirst k l ≠ .gt ∧
      compare .upperFirst kelvin l = .lt := by
  have hkelvin : compare .upperFirst ⟨.file, "\u212A"⟩ ⟨.file, "k"⟩ ≠ .gt := by decide
  have hkl : compare .upperFirst ⟨.file, "k"⟩ ⟨.file, "l"⟩ = .lt := by decide
  have htotal := compare_totalOrder .upperFirst ⟨.file, "\u212A"⟩ ⟨.file, "k"⟩ ⟨.file, "l"⟩
  exact ⟨hkelvin, by simp [hkl], (htotal.2.1 hkelvin (by simp [hkl])).2 (.inr hkl)⟩

end Key

end ProjectOrder
