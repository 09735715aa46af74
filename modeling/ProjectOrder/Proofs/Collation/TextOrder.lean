import ProjectOrder.Collation.Compare

/-!
# The order of texts

`compareFolded` is transitive, and its ties are the texts of one lowercase form. `compareCased` is
lawful but not transitive on all texts. `trans_within_folded` says that it is transitive on texts
that tie under `compareFolded`, where the first difference is between characters whose lowercase
forms begin alike.
-/

namespace ProjectOrder

open Std (OrientedCmp TransCmp LawfulEqCmp TransOrd OrientedOrd LawfulEqOrd)

/-- Of two values one may stand before the other. -/
theorem isLE_total {α : Type} {cmp : α → α → Ordering} [OrientedCmp cmp] (a b : α) :
    (cmp a b).isLE || (cmp b a).isLE := by
  have hswap : cmp b a = (cmp a b).swap := OrientedCmp.eq_swap
  rw [hswap]
  cases cmp a b <;> rfl

/-- A transitive comparison of images is transitive. -/
theorem transCmp_onto {α β : Type} {cmp : β → β → Ordering} [TransCmp cmp] (f : α → β) :
    TransCmp fun a b => cmp (f a) (f b) where
  eq_swap := OrientedCmp.eq_swap
  isLE_trans := TransCmp.isLE_trans

/-- Among values that tie under `tie`, the comparison `cmp` is transitive. -/
def TransWithin {α : Type} (tie cmp : α → α → Ordering) : Prop :=
  ∀ ⦃a b c : α⦄, tie a b = .eq → tie b c = .eq →
    (cmp a b).isLE → (cmp b c).isLE → (cmp a c).isLE

namespace TransWithin

variable {α : Type} {tie cmp : α → α → Ordering}

/-- A comparison of what `tie` leaves open is transitive if it is so among ties. -/
theorem transCmp_compareLex [TransCmp tie] [OrientedCmp cmp] (h : TransWithin tie cmp) :
    TransCmp (compareLex tie cmp) where
  isLE_trans {a b c} hab hbc := by
    simp only [compareLex, Ordering.isLE_then_iff_or] at *
    rcases hab with hab | ⟨hab, hab'⟩ <;> rcases hbc with hbc | ⟨hbc, hbc'⟩
    · exact .inl (TransCmp.lt_trans hab hbc)
    · exact .inl (TransCmp.lt_of_lt_of_eq hab hbc)
    · exact .inl (TransCmp.lt_of_eq_of_lt hab hbc)
    · exact .inr ⟨TransCmp.eq_trans hab hbc, h hab hbc hab' hbc'⟩

/-- Strict steps among ties compose to a strict step. -/
theorem lt_trans [OrientedCmp cmp] [LawfulEqCmp cmp] (h : TransWithin tie cmp) {a b c : α}
    (hab : tie a b = .eq) (hbc : tie b c = .eq) (hlt : cmp a b = .lt) (hlt' : cmp b c = .lt) :
    cmp a c = .lt := by
  have hle : (cmp a c).isLE := h hab hbc (by simp [hlt]) (by simp [hlt'])
  cases hac : cmp a c with
  | lt => rfl
  | gt => simp [hac] at hle
  | eq =>
      -- equal ends would make both steps go in both directions
      obtain rfl := LawfulEqCmp.eq_of_compare hac
      simp [OrientedCmp.gt_of_lt hlt] at hlt'

/-- Transitivity among ties passes to the dictionary order of lists. -/
theorem compareLex_list [TransCmp tie] [OrientedCmp cmp] [LawfulEqCmp cmp]
    (h : TransWithin tie cmp) :
    TransWithin (List.compareLex tie) (List.compareLex cmp) := by
  intro as
  induction as with
  | nil => exact fun _ _ _ _ _ _ => List.isLE_compareLex_nil_left
  | cons a as ih =>
      intro bs cs htab htbc hab hbc
      cases bs with
      | nil => simp [List.compareLex_cons_nil] at htab
      | cons b bs =>
          cases cs with
          | nil => simp [List.compareLex_cons_nil] at htbc
          | cons c cs =>
              simp only [List.compareLex_cons_cons, Ordering.then_eq_eq,
                Ordering.isLE_then_iff_or] at htab htbc hab hbc ⊢
              rcases hab with hab | ⟨hab, hab'⟩ <;> rcases hbc with hbc | ⟨hbc, hbc'⟩
              · exact .inl (h.lt_trans htab.1 htbc.1 hab hbc)
              · exact .inl (LawfulEqCmp.eq_of_compare hbc ▸ hab)
              · exact .inl (LawfulEqCmp.eq_of_compare hab ▸ hbc)
              · obtain rfl := LawfulEqCmp.eq_of_compare hab
                exact .inr ⟨hbc, ih htab.2 htbc.2 hab' hbc'⟩

end TransWithin

/-! ## Lowercase forms -/

/-- Only the dotted capital I has a lowercase form of more than one character. -/
theorem lowercase_eq_singleton {x : Char} (hx : x ≠ '\u0130') :
    Text.lowercase x = [Char.ofNat (Text.lowercasePoint x.toNat)] := by
  simp [Text.lowercase, hx]

/-- Every character has a lowercase form. -/
theorem lowercase_ne_nil (x : Char) : Text.lowercase x ≠ [] := by
  unfold Text.lowercase
  split <;> simp

/-- The runs whose lowercase forms come near the letter i end before the dotted capital I. -/
theorem lowercaseRuns_image (r : Text.CaseRun) (hr : r ∈ Text.lowercaseRuns) :
    r.last < 0x130 ∨ 0x69 < r.image := by
  have htable : ∀ r ∈ Text.lowercaseRuns, r.last < 0x130 ∨ 0x69 < r.image := by
    decide +kernel
  exact htable r hr

/-- The code points with the lowercase form i lie before the dotted capital I. -/
theorem lt_of_lowercasePoint_eq {n : Nat} (h : Text.lowercasePoint n = 0x69) : n < 0x130 := by
  unfold Text.lowercasePoint at h
  split at h
  · rename_i r hr
    split at h
    · rename_i hn
      rcases lowercaseRuns_image r (List.mem_of_find?_eq_some hr) with hlast | himage
      · simp only [Text.Run.holds, Bool.and_eq_true, decide_eq_true_eq] at hn
        omega
      · omega
    · omega
  · omega

/-- A code point that stands for a character other than NUL is that character's number. -/
theorem eq_toNat_of_ofNat_eq {n : Nat} {x : Char} (h : Char.ofNat n = x) (hx : x.toNat ≠ 0) :
    n = x.toNat := by
  by_cases hn : n.isValidChar
  · rw [Char.ofNat, dif_pos hn] at h
    subst h
    rfl
  · rw [Char.ofNat, dif_neg hn] at h
    subst h
    exact absurd rfl hx

/-- A character whose lowercase form is the letter i comes before the dotted capital I. -/
theorem lt_of_lowercase_eq {x : Char} (h : Text.lowercase x = ['i']) : x < '\u0130' := by
  have hx : x ≠ '\u0130' := by
    rintro rfl
    simp [Text.lowercase] at h
  rw [lowercase_eq_singleton hx, List.cons.injEq] at h
  exact lt_of_lowercasePoint_eq (eq_toNat_of_ofNat_eq h.1 (by decide))

/-! ## Characters -/

/-- The place of a character among those whose lowercase forms begin like its own. -/
def letterRank (order : CaseOrder) (x : Char) : Nat :=
  if x = '\u0130' then 2
  else
    match order with
    | .upperFirst => if Text.isUppercase x then 0 else 1
    | .lowerFirst => if Text.isUppercase x then 1 else 0

/-- But for the dotted capital I, a letter has one of two ranks. -/
theorem letterRank_lt {order : CaseOrder} {x : Char} (hx : x ≠ '\u0130') :
    letterRank order x < 2 := by
  unfold letterRank
  cases order <;> split <;> simp_all <;> split <;> decide

/-- The comparison of characters agrees with their order. -/
theorem compare_eq_lt_of_lt {x y : Char} (h : x < y) : compare x y = .lt := by
  simp [compare, compareOfLessAndEq, h]

/-- A character whose lowercase form begins like that of the dotted capital I comes before it. -/
theorem lt_of_head?_lowercase {x : Char} (hx : x ≠ '\u0130')
    (h : (Text.lowercase x).head? = some 'i') : x < '\u0130' ∧ Text.lowercase x = ['i'] := by
  have hlower : Text.lowercase x = ['i'] := by
    rw [lowercase_eq_singleton hx] at h ⊢
    simpa using h
  exact ⟨lt_of_lowercase_eq hlower, hlower⟩

/-- Where the lowercase forms begin alike, characters are ordered by rank and then by code point. -/
theorem compareChar_eq_of_head {order : CaseOrder} {x y : Char}
    (h : (Text.lowercase x).head? = (Text.lowercase y).head?) :
    compareChar order x y = compareLex (compareOn (letterRank order)) compare x y := by
  have hdotted : Text.lowercase '\u0130' = ['i', '\u0307'] := by simp [Text.lowercase]
  by_cases hx : x = '\u0130' <;> by_cases hy : y = '\u0130'
  · subst hx hy
    simp [compareChar, compareLex, compareOn]
  · subst hx
    obtain ⟨hlt, hlower⟩ := lt_of_head?_lowercase hy (by rw [← h, hdotted]; rfl)
    have hless : letterRank order y < 2 := letterRank_lt hy
    have hrank : compareOn (letterRank order) '\u0130' y = .gt :=
      Nat.compare_eq_gt.2 (by simpa [letterRank] using hless)
    simp [compareChar, hdotted, hlower, compareLex, hrank,
      OrientedCmp.gt_of_lt (compare_eq_lt_of_lt hlt)]
  · subst hy
    obtain ⟨hlt, hlower⟩ := lt_of_head?_lowercase hx (by rw [h, hdotted]; rfl)
    have hless : letterRank order x < 2 := letterRank_lt hx
    have hrank : compareOn (letterRank order) x '\u0130' = .lt :=
      Nat.compare_eq_lt.2 (by simpa [letterRank] using hless)
    simp [compareChar, hdotted, hlower, compareLex, hrank, compare_eq_lt_of_lt hlt]
  · have hlower : Text.lowercase x = Text.lowercase y := by
      rw [lowercase_eq_singleton hx, lowercase_eq_singleton hy] at h ⊢
      simpa using h
    cases order <;> cases hux : Text.isUppercase x <;> cases huy : Text.isUppercase y <;>
      simp [compareChar, compareLex, compareOn, letterRank, hx, hy, hlower, hux, huy] <;> rfl

variable {order : CaseOrder}

/-- Swapping two characters reverses their order. -/
instance : OrientedCmp (compareChar order) where
  eq_swap {x y} := by
    have hcomm : Text.lowercase y = Text.lowercase x ↔ Text.lowercase x = Text.lowercase y :=
      eq_comm
    unfold compareChar
    cases hux : Text.isUppercase x <;> cases huy : Text.isUppercase y <;>
      by_cases hlower : Text.lowercase x = Text.lowercase y <;>
      cases order <;> simp [hcomm, hlower, OrientedOrd.eq_swap (a := x)]

/-- Only equal characters tie. -/
instance : LawfulEqCmp (compareChar order) where
  compare_self {x} := by simp [compareChar]
  eq_of_compare {x y} h := by
    unfold compareChar at h
    split at h
    · cases order <;> cases hux : Text.isUppercase x <;> simp [hux] at h
    · exact LawfulEqCmp.eq_of_compare h

/-- Compares characters by how their lowercase forms begin. -/
def compareHead : Char → Char → Ordering :=
  compareOn fun x => (Text.lowercase x).head?

/-- Characters tie in their heads if their lowercase forms begin with the same character. -/
theorem compareHead_eq_eq_iff {x y : Char} :
    compareHead x y = .eq ↔ (Text.lowercase x).head? = (Text.lowercase y).head? :=
  LawfulEqOrd.compare_eq_iff_eq (α := Option Char)

/-- Characters whose lowercase forms begin alike are ordered transitively. -/
theorem trans_within_head : TransWithin compareHead (compareChar order) := by
  intro x y z hxy hyz h h'
  rw [compareHead_eq_eq_iff] at hxy hyz
  rw [compareChar_eq_of_head hxy] at h
  rw [compareChar_eq_of_head hyz] at h'
  rw [compareChar_eq_of_head (hxy.trans hyz)]
  exact TransCmp.isLE_trans h h'

/-! ## Texts -/

/-- The folded comparison is that of the lowercase forms. -/
theorem compareFolded_eq_compareOn :
    compareFolded = compareOn fun a : List Char => a.flatMap Text.lowercase :=
  rfl

/-- The ties of the comparison by lowercase forms are the texts of one lowercase form. -/
theorem compareFolded_eq_eq_iff {a b : List Char} :
    compareFolded a b = .eq ↔ a.flatMap Text.lowercase = b.flatMap Text.lowercase :=
  LawfulEqOrd.compare_eq_iff_eq (α := List Char)

instance : TransCmp compareFolded := by
  rw [compareFolded_eq_compareOn]
  infer_instance

instance : OrientedCmp (compareCased order) :=
  inferInstanceAs (OrientedCmp (List.compareLex (compareChar order)))

instance : LawfulEqCmp (compareCased order) :=
  inferInstanceAs (LawfulEqCmp (List.compareLex (compareChar order)))

/-- The cased comparison goes on behind characters that tie. -/
theorem compareCased_cons_cons {x y : Char} {as bs : List Char} :
    compareCased order (x :: as) (y :: bs) =
      (compareChar order x y).then (compareCased order as bs) :=
  List.compareLex_cons_cons

/-- Texts of one lowercase form begin with characters whose lowercase forms begin alike. -/
theorem compareHead_eq_of_flatMap_eq {x y : Char} {as bs : List Char}
    (h : (x :: as).flatMap Text.lowercase = (y :: bs).flatMap Text.lowercase) :
    compareHead x y = .eq := by
  rw [compareHead_eq_eq_iff]
  have hhead := congrArg List.head? h
  simpa [List.head?_append, List.head?_eq_some_head, lowercase_ne_nil] using hhead

/-- Only the empty text has an empty lowercase form. -/
theorem flatMap_lowercase_eq_nil {a : List Char} :
    a.flatMap Text.lowercase = [] ↔ a = [] := by
  cases a <;> simp [lowercase_ne_nil]

/-- Texts of one lowercase form are ordered transitively by their characters. -/
theorem trans_within_folded : TransWithin compareFolded (compareCased order) := by
  intro as bs cs hab hbc
  rw [compareFolded_eq_eq_iff] at hab hbc
  -- equal characters in front have equal lowercase forms, which cancel
  induction as generalizing bs cs with
  | nil => exact fun _ _ => List.isLE_compareLex_nil_left
  | cons x as ih =>
      cases bs with
      | nil => exact absurd (flatMap_lowercase_eq_nil.1 hab) (by simp)
      | cons y bs =>
          cases cs with
          | nil => exact absurd (flatMap_lowercase_eq_nil.1 hbc) (by simp)
          | cons z cs =>
              have hxy := compareHead_eq_of_flatMap_eq hab
              have hyz := compareHead_eq_of_flatMap_eq hbc
              intro h h'
              simp only [compareCased_cons_cons, Ordering.isLE_then_iff_or] at h h' ⊢
              rcases h with h | ⟨h, hrest⟩ <;> rcases h' with h' | ⟨h', hrest'⟩
              · exact .inl (trans_within_head.lt_trans hxy hyz h h')
              · exact .inl (LawfulEqCmp.eq_of_compare h' ▸ h)
              · exact .inl (LawfulEqCmp.eq_of_compare h ▸ h')
              · obtain rfl := LawfulEqCmp.eq_of_compare h
                obtain rfl := LawfulEqCmp.eq_of_compare h'
                simp only [List.flatMap_cons, List.append_cancel_left_eq] at hab hbc
                exact .inr ⟨h, ih hab hbc hrest hrest'⟩

end ProjectOrder
