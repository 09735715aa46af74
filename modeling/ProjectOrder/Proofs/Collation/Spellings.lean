import Mathlib.Order.Defs.Unbundled
import ProjectOrder.Proofs.Collation.TextOrder

/-!
# The order of spellings

Where the cased comparison may be relied on. Swapping two texts reverses it and it ties only equal
texts, but on all texts it goes round in circles (`exists_circle`). Among the spellings of one name,
which are the texts of one lowercase form, it is a strict total order:
`compareCased_orders_spellings`.
-/

namespace ProjectOrder

open Std (OrientedCmp LawfulEqCmp)

/-- Texts are spellings of one name if the folded comparison ties them all. -/
def AreSpellings (texts : Set (List Char)) : Prop :=
  ∀ a ∈ texts, ∀ b ∈ texts, compareFolded a b = .eq

variable {order : CaseOrder} {texts : Set (List Char)}

/-- The cased comparison is transitive on the spellings of one name. -/
theorem AreSpellings.isLE_trans (h : AreSpellings texts) {a b c : List Char} (ha : a ∈ texts)
    (hb : b ∈ texts) (hc : c ∈ texts) (hab : (compareCased order a b).isLE)
    (hbc : (compareCased order b c).isLE) : (compareCased order a c).isLE :=
  trans_within_folded (h a ha b hb) (h b hb c hc) hab hbc

/-- The cased comparison puts the spellings of one name in a strict total order. -/
theorem AreSpellings.isStrictTotalOrder (h : AreSpellings texts) :
    IsStrictTotalOrder {a // a ∈ texts} fun a b => compareCased order a b = .lt where
  irrefl a hlt := by
    have hself : compareCased order (a : List Char) a = .eq := Std.ReflCmp.compare_self
    rw [hself] at hlt
    cases hlt
  trans a b c hab hbc :=
    trans_within_folded.lt_trans (h a a.2 b b.2) (h b b.2 c c.2) hab hbc
  trichotomous a b hab hba := by
    cases hcompare : compareCased order (a : List Char) b with
    | lt => exact (hab hcompare).elim
    | eq => exact Subtype.ext (LawfulEqCmp.eq_of_compare hcompare)
    | gt => exact (hba (OrientedCmp.lt_of_gt hcompare)).elim

/-- Under each case order there are texts that come before one another in a circle. Where uppercase
is first, the Kelvin sign comes before `k`, which it is a case of, and after `l` by code point;
where lowercase is first, `K` comes after `k`, and before `a` by code point. -/
theorem exists_circle (order : CaseOrder) :
    ∃ a b c, compareCased order a b = .lt ∧ compareCased order b c = .lt ∧
      compareCased order c a = .lt := by
  cases order with
  | upperFirst => exact ⟨['\u212A'], ['k'], ['l'], by decide⟩
  | lowerFirst => exact ⟨['k'], ['K'], ['a'], by decide⟩

/-- Under each case order the cased comparison of all texts is reversed by swapping them and ties
only equal ones. It is transitive on the spellings of one name, and so puts them in a strict total
order, but it is not transitive on all texts. -/
theorem compareCased_orders_spellings (order : CaseOrder) :
    (∀ a b, compareCased order b a = (compareCased order a b).swap) ∧
    (∀ a b, compareCased order a b = .eq ↔ a = b) ∧
    (∀ texts, AreSpellings texts →
      (∀ a ∈ texts, ∀ b ∈ texts, ∀ c ∈ texts, (compareCased order a b).isLE →
        (compareCased order b c).isLE → (compareCased order a c).isLE) ∧
      IsStrictTotalOrder {a // a ∈ texts} fun a b => compareCased order a b = .lt) ∧
    ∃ a b c, compareCased order a b = .lt ∧ compareCased order b c = .lt ∧
      compareCased order c a = .lt := by
  refine ⟨fun a b => OrientedCmp.eq_swap, fun a b => LawfulEqCmp.compare_eq_iff_eq, ?_,
    exists_circle order⟩
  intro texts htexts
  exact ⟨fun a ha b hb c hc => htexts.isLE_trans ha hb hc, htexts.isStrictTotalOrder⟩

/-- Three spellings of a name that begins with the letter k and a dotted i. Their characters do not
pair off, since the dotted capital I stands for two. -/
theorem compareCased_orders_spellings_kelvin :
    let first := ['K', 'i', '\u0307']
    let second := ['\u212A', '\u0130']
    let third := ['k', 'I', '\u0307']
    AreSpellings {a | a ∈ [first, second, third]} ∧
      compareCased .upperFirst first second = .lt ∧
      compareCased .upperFirst second third = .lt ∧
      compareCased .upperFirst first third = .lt := by
  intro first second third
  have hspellings : AreSpellings {a | a ∈ [first, second, third]} := by
    show ∀ a ∈ [first, second, third], ∀ b ∈ [first, second, third], compareFolded a b = .eq
    decide
  have hfirst : compareCased .upperFirst first second = .lt := by decide
  have hsecond : compareCased .upperFirst second third = .lt := by decide
  have horder := ((compareCased_orders_spellings .upperFirst).2.2.1 _ hspellings).2
  have hthird : compareCased .upperFirst first third = .lt :=
    horder.trans ⟨first, .head _⟩ ⟨second, .tail _ (.head _)⟩
      ⟨third, .tail _ (.tail _ (.head _))⟩ hfirst hsecond
  exact ⟨hspellings, hfirst, hsecond, hthird⟩

end ProjectOrder
