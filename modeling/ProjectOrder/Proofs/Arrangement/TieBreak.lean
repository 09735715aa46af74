import Mathlib.Data.List.Pairwise
import ProjectOrder.Proofs.Arrangement.Moves
import ProjectOrder.Proofs.Collation.Names

/-!
# The case order as a tie-break

The case orders agree on two keys, or they order them in opposite ways, and then the keys are of one
kind and have names alike: `Key.compare_eq_of_not_namesakes` and `Key.Namesakes.sameOrOpposite`.
Where no child list of a document holds two such entries, sorting does not depend on the case order:
`Document.sort_eq_of_namesApart`.
-/

namespace ProjectOrder

open Std (OrientedCmp ReflCmp)

/-! ## Opposite results -/

/-- Whether two comparisons have one result, or opposite results neither of which is a tie. -/
def SameOrOpposite (o p : Ordering) : Prop :=
  o = p ∨ o ≠ .eq ∧ p = o.swap

namespace SameOrOpposite

variable {o o' p p' : Ordering}

/-- An ordering is the same as itself. -/
theorem refl (o : Ordering) : SameOrOpposite o o :=
  .inl rfl

/-- A later stage keeps what the first one says. -/
theorem then_then (h : SameOrOpposite o p) (h' : SameOrOpposite o' p') :
    SameOrOpposite (o.then o') (p.then p') := by
  rcases h with rfl | ⟨hne, rfl⟩
  · cases o with
    | eq => exact h'
    | lt | gt => exact .inl rfl
  · cases o with
    | eq => exact absurd rfl hne
    | lt | gt => exact .inr ⟨hne, rfl⟩

/-- Comparisons of members with the same or opposite results give dictionary orders with such
results. -/
theorem compareLex {α : Type} {cmp cmp' : α → α → Ordering}
    (h : ∀ a b, SameOrOpposite (cmp a b) (cmp' a b)) (as bs : List α) :
    SameOrOpposite (as.compareLex cmp bs) (as.compareLex cmp' bs) := by
  induction as generalizing bs with
  | nil =>
      cases bs with
      | nil => exact .refl _
      | cons b bs => exact .inl (by rw [List.compareLex_nil_cons, List.compareLex_nil_cons])
  | cons a as ih =>
      cases bs with
      | nil => exact .inl (by rw [List.compareLex_cons_nil, List.compareLex_cons_nil])
      | cons b bs =>
          rw [List.compareLex_cons_cons, List.compareLex_cons_cons]
          exact (h a b).then_then (ih bs)

end SameOrOpposite

variable {order other : CaseOrder}

/-- The case order decides only between two cases of a letter. -/
theorem sameOrOpposite_compareChar (x y : Char) :
    SameOrOpposite (compareChar order x y) (compareChar other x y) := by
  unfold compareChar
  split
  · cases order <;> cases other <;> cases Text.isUppercase x <;> simp [SameOrOpposite]
  · exact .refl _

/-- Under two case orders two texts compare the same or in opposite ways. -/
theorem sameOrOpposite_compareCased (as bs : List Char) :
    SameOrOpposite (compareCased order as bs) (compareCased other as bs) :=
  .compareLex sameOrOpposite_compareChar as bs

/-! ## Keys -/

namespace Key

variable {j k : Key}

/-- Whether two keys are of one kind and have names alike. -/
def Namesakes (j k : Key) : Prop :=
  j.kind = k.kind ∧ Alike j.name k.name

instance : DecidableRel Namesakes :=
  fun j k => inferInstanceAs (Decidable (j.kind = k.kind ∧ Alike j.name k.name))

/-- Under two case orders namesakes compare the same or in opposite ways. -/
theorem Namesakes.sameOrOpposite (order other : CaseOrder) (h : j.Namesakes k) :
    SameOrOpposite (compare order j k) (compare other j k) := by
  have htie : j.name.compareLex compareFolded k.name = .eq :=
    compareLex_compareFolded_eq_eq_iff.2 h.2
  rw [compare_of_kind_eq h.1, compare_of_kind_eq h.1, htie, Ordering.eq_then, Ordering.eq_then]
  exact (SameOrOpposite.compareLex sameOrOpposite_compareCased _ _).then_then
    ((SameOrOpposite.refl _).then_then (sameOrOpposite_compareCased _ _))

/-- Where a stage does not tie, those after it have no say. -/
theorem then_eq_then_of_ne_eq {o p q : Ordering} (h : o ≠ .eq) : o.then p = o.then q := by
  cases o with
  | eq => exact absurd rfl h
  | lt | gt => rfl

/-- Keys that are no namesakes compare the same under all case orders. -/
theorem compare_eq_of_not_namesakes (h : ¬ j.Namesakes k) :
    compare order j k = compare other j k := by
  by_cases hkind : j.kind = k.kind
  · have hname : j.name.compareLex compareFolded k.name ≠ .eq := fun htie =>
      h ⟨hkind, compareLex_compareFolded_eq_eq_iff.1 htie⟩
    rw [compare_of_kind_eq hkind, compare_of_kind_eq hkind]
    exact then_eq_then_of_ne_eq hname
  · have hrank : Ord.compare j.kind.rank k.kind.rank ≠ .eq := by
      cases hj : j.kind <;> cases hk : k.kind <;> simp_all [EntryKind.rank]
    exact then_eq_then_of_ne_eq hrank

/-- Of keys no two of which are namesakes, any two compare the same under all case orders. -/
theorem compare_eq_of_pairwise {ks : List Key} (h : ks.Pairwise fun j k => ¬ j.Namesakes k)
    (hj : j ∈ ks) (hk : k ∈ ks) : compare order j k = compare other j k := by
  have hsymm : Std.Symm fun j k : Key => compare order j k = compare other j k := by
    refine ⟨fun j k h => ?_⟩
    have hswap (o : CaseOrder) : compare o k j = (compare o j k).swap := OrientedCmp.eq_swap
    rw [hswap, hswap, h]
  have hself (k : Key) (_ : k ∈ ks) : compare order k k = compare other k k := by
    have hrefl (o : CaseOrder) : compare o k k = .eq := ReflCmp.compare_self
    rw [hrefl, hrefl]
  have hpairs : ks.Pairwise fun j k => compare order j k = compare other j k :=
    h.imp compare_eq_of_not_namesakes
  exact hpairs.forall_of_forall hself hj hk

end Key

/-! ## Documents -/

namespace Node

variable {ns : List Node} {n : Node}

/-- Whether no two entries of a child list are of one kind and have names alike. -/
def NamesApart (ns : List Node) : Prop :=
  (ns.filterMap key?).Pairwise fun j k => ¬ j.Namesakes k

instance : DecidablePred NamesApart :=
  fun ns => inferInstanceAs (Decidable ((ns.filterMap key?).Pairwise _))

/-- A child list whose names are apart is arranged the same under all case orders. -/
theorem arrange_eq_of_namesApart (h : NamesApart ns) : arrange order ns = arrange other ns := by
  have hle : ∀ m ∈ ns.filter isEntry, ∀ n ∈ ns.filter isEntry, le order m n = le other m n := by
    intro m hm n hn
    obtain ⟨hm, hentry⟩ := List.mem_filter.1 hm
    obtain ⟨hn, hentry'⟩ := List.mem_filter.1 hn
    obtain ⟨j, hj⟩ := isEntry_iff_key?.1 hentry
    obtain ⟨k, hk⟩ := isEntry_iff_key?.1 hentry'
    rw [le_of_key? hj hk, le_of_key? hj hk,
      Key.compare_eq_of_pairwise h (List.mem_filterMap.2 ⟨m, hm, hj⟩)
        (List.mem_filterMap.2 ⟨n, hn, hk⟩)]
  rw [arrange, arrange, mergeSort_congr hle]

/-- A node in whose child lists the names are apart is sorted the same under all case orders. -/
theorem sort_eq_of_namesApart (h : ∀ ns ∈ n.childLists, NamesApart ns) :
    n.sort order = n.sort other := by
  induction n with
  | leaf kind text => rfl
  | element entry tag ns ih =>
      rw [childLists_element, List.forall_mem_cons] at h
      have hinside : ∀ m ∈ arrange other ns, m.sort order = m.sort other := fun m hm => by
        have hm : m ∈ ns := arrange_perm.mem_iff.1 hm
        exact ih m hm fun ms hms => h.2 ms (List.mem_flatMap.2 ⟨m, hm, hms⟩)
      show element entry tag (sortList order ns) = element entry tag (sortList other ns)
      rw [sortList_eq_map, sortList_eq_map, arrange_eq_of_namesApart h.1,
        List.map_congr_left hinside]

end Node

namespace Document

/-- A document in whose child lists the names are apart is sorted the same under all case orders. -/
theorem sort_eq_of_namesApart {d : Document} (h : ∀ ns ∈ d.childLists, Node.NamesApart ns) :
    d.sort order = d.sort other := by
  have hroot : (Node.element none d.root.tag d.root.children).sort order =
      (Node.element none d.root.tag d.root.children).sort other := Node.sort_eq_of_namesApart h
  have hchildren : Node.sortList order d.root.children = Node.sortList other d.root.children :=
    (Node.element.inj hroot).2.2
  rw [sort, sort, hchildren]

/-- The case order is only a tie-break. Under the two case orders any two keys compare the same or
in opposite ways, neither of which is a tie, and then they are of one kind and their names have the
same segments up to letter case. So a document is sorted the same under both if no child list of it
holds two such entries. -/
theorem caseOrder_breaks_ties :
    (∀ a b : Key, Key.compare .upperFirst a b = Key.compare .lowerFirst a b ∨
      Key.compare .upperFirst a b ≠ .eq ∧ Key.compare .lowerFirst a b ≠ .eq ∧
        Key.compare .lowerFirst a b = (Key.compare .upperFirst a b).swap ∧
        Key.compare .upperFirst a b = (Key.compare .lowerFirst a b).swap ∧
        a.kind = b.kind ∧ Alike a.name b.name) ∧
    ∀ d : Document, (∀ ns ∈ d.childLists, Node.NamesApart ns) →
      d.sort .upperFirst = d.sort .lowerFirst := by
  refine ⟨fun a b => ?_, fun d h => sort_eq_of_namesApart h⟩
  by_cases hnames : a.Namesakes b
  · rcases hnames.sameOrOpposite .upperFirst .lowerFirst with heq | ⟨hne, hswap⟩
    · exact .inl heq
    · refine .inr ⟨hne, ?_, hswap, ?_, hnames⟩
      · rw [hswap]
        exact mt Ordering.swap_eq_eq.1 hne
      · rw [hswap, Ordering.swap_swap]
  · exact .inl (Key.compare_eq_of_not_namesakes hnames)

/-- Names that the case orders put in opposite ways do not matter in different lists. -/
theorem caseOrder_breaks_ties_apart :
    let entry (kind : EntryKind) (identifier : String) : Node :=
      .element (some ⟨kind, identifier, none⟩) ⟨"Item", "Item", [], true⟩ []
    let group (ns : List Node) : Node := .element none ⟨"ItemGroup", "ItemGroup", [], false⟩ ns
    let d : Document := ⟨.flat, .utf8, false, [], ⟨⟨"Project", "Project", [], false⟩,
      [group [entry .file "b.cpp", entry .file "src/A.cpp", entry .folder "a.cpp"],
        group [entry .file "c.cpp", entry .file "a.cpp"]]⟩, []⟩
    Key.compare .upperFirst ⟨.file, "src/A.cpp"⟩ ⟨.file, "a.cpp"⟩ = .lt ∧
      Key.compare .lowerFirst ⟨.file, "src/A.cpp"⟩ ⟨.file, "a.cpp"⟩ = .gt ∧
      (∀ ns ∈ d.childLists, Node.NamesApart ns) ∧ d.sort .upperFirst = d.sort .lowerFirst := by
  intro entry group d
  have hnames : ∀ ns ∈ d.childLists, Node.NamesApart ns := by decide
  exact ⟨by decide, by decide, hnames, caseOrder_breaks_ties.2 d hnames⟩

end Document

end ProjectOrder
