import Mathlib.Data.List.Forall2
import ProjectOrder.Proofs.Collation.KeyOrder

/-!
# Names alike

Two names are alike if they have the same segments up to letter case: `Alike`. They are the ties of
the stage that compares names without regard to case. In the order of this stage the names that
begin alike stand together, those that are alike before those that go on: `BeginsAlike.of_between`
and `Alike.compareLex_eq_lt`.
-/

namespace ProjectOrder

open Std (OrientedCmp TransCmp)

/-- Whether two names have the same segments up to letter case. -/
def Alike (as bs : List (List Char)) : Prop :=
  List.Forall₂ (fun a b => compareFolded a b = .eq) as bs

/-- Whether a name begins with the segments of another up to letter case. -/
def BeginsAlike (top as : List (List Char)) : Prop :=
  ∃ front rest, as = front ++ rest ∧ Alike top front

instance : DecidableRel Alike :=
  fun as bs => inferInstanceAs (Decidable (List.Forall₂ _ as bs))

variable {top as bs cs : List (List Char)} {a b c t : List Char}

/-! ## Segment by segment -/

/-- Names with a first segment each are alike if these tie and the rest is alike. -/
theorem alike_cons_cons : Alike (a :: as) (b :: bs) ↔ compareFolded a b = .eq ∧ Alike as bs :=
  List.forall₂_cons

/-- Names tie without regard to case exactly if they are alike. -/
theorem compareLex_compareFolded_eq_eq_iff :
    as.compareLex compareFolded bs = .eq ↔ Alike as bs := by
  induction as generalizing bs with
  | nil =>
      rw [List.compareLex_nil_left_eq_eq]
      exact List.forall₂_nil_left_iff.symm
  | cons a as ih =>
      cases bs with
      | nil => simp [Alike, List.compareLex_cons_nil]
      | cons b bs => rw [List.compareLex_cons_cons, Ordering.then_eq_eq, ih, alike_cons_cons]

/-- Every name begins like the empty one. -/
theorem beginsAlike_nil : BeginsAlike [] as :=
  ⟨[], as, rfl, .nil⟩

/-- A name begins like one with a first segment if it has one that ties with it and goes on
likewise. -/
theorem beginsAlike_cons_iff :
    BeginsAlike (a :: top) as ↔
      ∃ b bs, as = b :: bs ∧ compareFolded a b = .eq ∧ BeginsAlike top bs := by
  constructor
  · intro ⟨front, rest, has, hfront⟩
    obtain ⟨b, bs, hb, hbs, rfl⟩ := List.forall₂_cons_left_iff.1 hfront
    exact ⟨b, bs ++ rest, has, hb, bs, rest, rfl, hbs⟩
  · intro ⟨b, bs, has, hb, front, rest, hbs, hfront⟩
    exact ⟨b :: front, rest, by rw [has, hbs, List.cons_append], .cons hb hfront⟩

/-- Names that are alike begin alike. -/
theorem Alike.beginsAlike (h : Alike top as) : BeginsAlike top as :=
  ⟨as, [], (List.append_nil as).symm, h⟩

/-! ## Names in order -/

/-- A segment between two that tie with a third ties with it, too. -/
theorem compareFolded_eq_of_between (ha : compareFolded t a = .eq) (hc : compareFolded t c = .eq)
    (hab : (compareFolded a b).isLE) (hbc : (compareFolded b c).isLE) :
    compareFolded t b = .eq := by
  have hca : compareFolded c a = .eq := TransCmp.eq_trans (OrientedCmp.eq_symm hc) ha
  have hba : (compareFolded b a).isLE := TransCmp.isLE_trans hbc (by rw [hca]; rfl)
  exact TransCmp.eq_trans ha (OrientedCmp.isLE_antisymm hab hba)

/-- A name between two that begin alike begins like them. -/
theorem BeginsAlike.of_between (has : BeginsAlike top as) (hcs : BeginsAlike top cs)
    (hab : (as.compareLex compareFolded bs).isLE) (hbc : (bs.compareLex compareFolded cs).isLE) :
    BeginsAlike top bs := by
  induction top generalizing as bs cs with
  | nil => exact beginsAlike_nil
  | cons t top ih =>
      obtain ⟨a, as, rfl, ha, has⟩ := beginsAlike_cons_iff.1 has
      obtain ⟨c, cs, rfl, hc, hcs⟩ := beginsAlike_cons_iff.1 hcs
      cases bs with
      | nil => simp [List.compareLex_cons_nil] at hab
      | cons b bs =>
          rw [List.compareLex_cons_cons] at hab hbc
          have hb : compareFolded t b = .eq :=
            compareFolded_eq_of_between ha hc (Ordering.isLE_left_of_isLE_then hab)
              (Ordering.isLE_left_of_isLE_then hbc)
          -- the first segments tie all three, so the rest decides
          have htie : compareFolded a b = .eq := TransCmp.eq_trans (OrientedCmp.eq_symm ha) hb
          have htie' : compareFolded b c = .eq := TransCmp.eq_trans (OrientedCmp.eq_symm hb) hc
          rw [htie, Ordering.eq_then] at hab
          rw [htie', Ordering.eq_then] at hbc
          exact beginsAlike_cons_iff.2 ⟨b, bs, rfl, hb, ih has hcs hab hbc⟩

/-- A name comes before those that begin like it and go on. -/
theorem Alike.compareLex_eq_lt (has : Alike top as) (hbs : BeginsAlike top bs)
    (hne : ¬ Alike top bs) : as.compareLex compareFolded bs = .lt := by
  induction has generalizing bs with
  | nil =>
      cases bs with
      | nil => exact absurd .nil hne
      | cons b bs => exact List.compareLex_nil_cons
  | cons ha _ ih =>
      obtain ⟨b, bs, rfl, hb, hbs⟩ := beginsAlike_cons_iff.1 hbs
      have hrest : ¬ Alike _ bs := fun h => hne (.cons hb h)
      rw [List.compareLex_cons_cons, TransCmp.eq_trans (OrientedCmp.eq_symm ha) hb,
        Ordering.eq_then]
      exact ih hbs hrest

namespace Key

variable {order : CaseOrder} {j k : Key}

/-- Among keys of one kind the names decide first. -/
theorem compare_of_kind_eq (hkind : j.kind = k.kind) :
    compare order j k = (j.name.compareLex compareFolded k.name).then
      ((j.name.compareLex (compareCased order) k.name).then
        ((compareFolded j.identifier.toList k.identifier.toList).then
          (compareCased order j.identifier.toList k.identifier.toList))) := by
  have hrank : Ord.compare j.kind.rank k.kind.rank = .eq := by
    rw [hkind]
    exact Nat.compare_eq_eq.2 rfl
  rw [compare, hrank, Ordering.eq_then]

end Key

end ProjectOrder
