import Mathlib.Algebra.Ring.Nat
import Mathlib.Logic.Relation
import ProjectOrder.Proofs.Arrangement.Repeated

/-!
# The sorted form

Two documents are rearrangements of each other if shuffling child lists, at any depths, leads from
the one to the other: `Document.Rearranged`. A shuffle moves entries among the places of entries in
their list and keeps the relative order of those with one key. `Document.sort_eq_sort_iff` says that
the sorted form tells exactly this much about a document, and `Document.sort_again` what sorting
does to a document that has been sorted before.
-/

namespace ProjectOrder

namespace Node

/-- `ShuffledWithin ns ms` says that one child list is shuffled, `ns` itself or a list at some depth
inside it, and that `ms` is the result. -/
inductive ShuffledWithin : List Node → List Node → Prop where
  | here {ns ms : List Node} : Shuffled ns ms → ShuffledWithin ns ms
  | inside (before after : List Node) (entry : Option Entry) (tag : Tag) {ns ms : List Node} :
      ShuffledWithin ns ms →
      ShuffledWithin (before ++ .element entry tag ns :: after)
        (before ++ .element entry tag ms :: after)

/-- `Rearranged ns ms` says that shuffling child lists one after the other leads from `ns` to
`ms`. -/
def Rearranged : List Node → List Node → Prop :=
  Relation.ReflTransGen ShuffledWithin

variable {order : CaseOrder} {entry : Option Entry} {tag : Tag} {ns ms ls before after : List Node}

/-! ## Rearrangements -/

/-- A shuffle can be undone. -/
theorem ShuffledWithin.symm (h : ShuffledWithin ns ms) : ShuffledWithin ms ns := by
  induction h with
  | here h => exact .here h.symm
  | inside before after entry tag _ ih => exact .inside before after entry tag ih

instance : Std.Symm ShuffledWithin := ⟨fun _ _ => ShuffledWithin.symm⟩

namespace Rearranged

/-- A list is a rearrangement of itself. -/
theorem refl (ns : List Node) : Rearranged ns ns :=
  Relation.ReflTransGen.refl

/-- Rearrangements can follow one another. -/
theorem trans (h : Rearranged ls ns) (h' : Rearranged ns ms) : Rearranged ls ms :=
  Relation.ReflTransGen.trans h h'

/-- A rearrangement can be undone. -/
theorem symm (h : Rearranged ns ms) : Rearranged ms ns :=
  Relation.ReflTransGen.stdSymm.symm ns ms h

/-- A shuffle of the list itself is a rearrangement. -/
theorem of_shuffled (h : Shuffled ns ms) : Rearranged ns ms :=
  Relation.ReflTransGen.single (.here h)

/-- What is rearranged inside an element is rearranged in the list that holds the element. -/
theorem inside (h : Rearranged ns ms) :
    Rearranged (before ++ .element entry tag ns :: after)
      (before ++ .element entry tag ms :: after) :=
  Relation.ReflTransGen.lift (fun ns => before ++ .element entry tag ns :: after)
    (fun _ _ => .inside before after entry tag) ns ms h

end Rearranged

/-! ## Sorting rearranged lists -/

/-- The inner lists may be sorted after the list that holds them. -/
theorem sortList_eq_map : sortList order ns = (arrange order ns).map (sort order) := by
  rw [sortList, sortInner_eq_map, arrange_map fun _ => key?_sort]

/-- One shuffle, at whatever depth, leaves the sorted list the same. -/
theorem ShuffledWithin.sortList_eq (h : ShuffledWithin ns ms) :
    sortList order ms = sortList order ns := by
  induction h with
  | here h => rw [sortList_eq_map, sortList_eq_map, h.arrange_eq]
  | @inside before after entry tag ns ms _ ih =>
      have hnode : sort order (.element entry tag ms) = sort order (.element entry tag ns) :=
        congrArg (element entry tag) ih
      simp only [sortList, sortInner_eq_map, List.map_append, List.map_cons, hnode]

/-- A rearranged list has the same sorted list. -/
theorem Rearranged.sortList_eq (h : Rearranged ns ms) :
    sortList order ms = sortList order ns := by
  induction h with
  | refl => rfl
  | tail _ hstep ih => exact hstep.sortList_eq.trans ih

/-- Nodes that may each be sorted where they stand may be sorted one after the other. -/
theorem rearranged_map_sort
    (h : ∀ n ∈ ns, ∀ before after : List Node,
      Rearranged (before ++ n :: after) (before ++ n.sort order :: after)) :
    ∀ before, Rearranged (before ++ ns) (before ++ ns.map (sort order)) := by
  induction ns with
  | nil => exact fun before => .refl _
  | cons n ns ih =>
      intro before
      have hhead := h n (by simp) before ns
      have htail := ih (fun m hm => h m (List.mem_cons_of_mem _ hm)) (before ++ [n.sort order])
      simp only [List.append_assoc, List.singleton_append] at htail
      exact hhead.trans htail

/-- A list whose nodes may be sorted where they stand may be sorted. -/
theorem rearranged_sortList_of_nodes
    (h : ∀ n ∈ ns, ∀ before after : List Node,
      Rearranged (before ++ n :: after) (before ++ n.sort order :: after)) :
    Rearranged ns (sortList order ns) := by
  have hinner : Rearranged ns (sortInner order ns) := by
    rw [sortInner_eq_map]
    exact rearranged_map_sort h []
  exact hinner.trans (.of_shuffled shuffled_arrange)

/-- A node may be sorted where it stands. -/
theorem rearranged_sort (n : Node) :
    ∀ before after : List Node,
      Rearranged (before ++ n :: after) (before ++ n.sort order :: after) := by
  induction n with
  | leaf kind text => exact fun before after => .refl _
  | element entry tag ns ih =>
      intro before after
      have hinner : Rearranged ns (sortList order ns) := rearranged_sortList_of_nodes ih
      exact hinner.inside

/-- The sorted list is a rearrangement of the list. -/
theorem rearranged_sortList : Rearranged ns (sortList order ns) :=
  rearranged_sortList_of_nodes fun n _ => rearranged_sort n

/-- Two lists have one sorted list exactly if they are rearrangements of each other. -/
theorem sortList_eq_sortList_iff :
    sortList order ns = sortList order ms ↔ Rearranged ns ms := by
  constructor
  · intro h
    have hns : Rearranged ns (sortList order ns) := rearranged_sortList
    rw [h] at hns
    exact hns.trans rearranged_sortList.symm
  · intro h
    exact h.sortList_eq.symm

end Node

/-! ## Lists with entries -/

namespace Tally

open Node (ShuffledWithin Rearranged)

variable {order : CaseOrder} {entry : Option Entry} {tag : Tag} {ns ms : List Node}

/-- The number of lists inside some nodes is the sum of those inside each. -/
theorem lists_insideList (ns : List Node) :
    (insideList order ns).lists = (ns.map fun n => (inside order n).lists).sum := by
  induction ns with
  | nil => rfl
  | cons n ns ih => simp [insideList, add, ih]

/-- The lists inside an element are its child list, if this has an entry, and those inside its
children. -/
theorem lists_inside :
    (inside order (.element entry tag ns)).lists =
      (if ns.any Node.isEntry then 1 else 0) + (ns.map fun n => (inside order n).lists).sum := by
  rw [← lists_insideList]
  rfl

/-- A shuffle in an element, at whatever depth, leaves the number of its lists with entries the
same. -/
theorem lists_inside_of_shuffledWithin (h : ShuffledWithin ns ms) :
    ∀ entry tag, (inside order (.element entry tag ms)).lists =
      (inside order (.element entry tag ns)).lists := by
  induction h with
  | here h =>
      intro entry tag
      rw [lists_inside, lists_inside, h.perm_nodes.any_eq, (h.perm_nodes.map _).sum_nat]
  | @inside before after shuffledEntry shuffledTag ns ms _ ih =>
      intro entry tag
      -- whether the list around the shuffled element holds entries is read off their own marks
      have hany : (before ++ .element shuffledEntry shuffledTag ms :: after).any Node.isEntry =
          (before ++ .element shuffledEntry shuffledTag ns :: after).any Node.isEntry := by
        simp [Node.isEntry, Node.asEntry]
      rw [lists_inside, lists_inside, hany]
      simp [ih]

/-- Rearranging what an element holds leaves the number of its lists with entries the same. -/
theorem lists_inside_of_rearranged (h : Rearranged ns ms) :
    (inside order (.element entry tag ms)).lists =
      (inside order (.element entry tag ns)).lists := by
  induction h with
  | refl => rfl
  | tail _ hstep ih => exact (lists_inside_of_shuffledWithin hstep entry tag).trans ih

end Tally

namespace Document

variable {order other : CaseOrder} {d : Document}

/-- `d.Rearranged e` says that `e` is the document `d` with child lists under the root shuffled, at
any depths and any number of times. -/
structure Rearranged (d e : Document) : Prop where
  dialect : e.dialect = d.dialect
  encoding : e.encoding = d.encoding
  mark : e.mark = d.mark
  prolog : e.prolog = d.prolog
  epilog : e.epilog = d.epilog
  tag : e.root.tag = d.root.tag
  children : Node.Rearranged d.root.children e.root.children

/-- A sorted document has as many child lists with entries as the document. -/
theorem lists_tally_sort : ((d.sort other).tally order).lists = (d.tally order).lists := by
  have hchildren : Node.Rearranged d.root.children (d.sort other).root.children :=
    Node.rearranged_sortList
  -- the lists of a document are those of its root
  show (Tally.inside order (.element none d.root.tag (d.sort other).root.children)).lists =
    (Tally.inside order (.element none d.root.tag d.root.children)).lists
  exact Tally.lists_inside_of_rearranged hchildren

/-- A sorted document has no entry to move. -/
theorem moved_tally_sort : ((d.sort order).tally order).moved = 0 := by
  have hsame : ¬((d.sort order).tally order).changed := by
    rw [tally_changed_iff, sort_sort]
    exact fun h => h rfl
  simpa [Tally.changed] using hsame

/-- Documents have one sorted form exactly if they are rearrangements of each other. -/
theorem sort_eq_sort_iff (order : CaseOrder) (d e : Document) :
    d.sort order = e.sort order ↔ d.Rearranged e := by
  obtain ⟨dialect, encoding, mark, prolog, ⟨tag, children⟩, epilog⟩ := d
  obtain ⟨dialect', encoding', mark', prolog', ⟨tag', children'⟩, epilog'⟩ := e
  constructor
  · intro h
    simp only [sort, Document.mk.injEq, Element.mk.injEq] at h
    obtain ⟨rfl, rfl, rfl, rfl, ⟨rfl, hchildren⟩, rfl⟩ := h
    exact ⟨rfl, rfl, rfl, rfl, rfl, rfl, Node.sortList_eq_sortList_iff.1 hchildren⟩
  · rintro ⟨rfl, rfl, rfl, rfl, rfl, rfl, hchildren⟩
    simp only [sort, Node.sortList_eq_sortList_iff.2 hchildren]

/-- A document that is sorted a second time becomes what the second sorting alone makes of it. Under
the same case order it stays as it is: as many lists hold entries as before, and none moves. -/
theorem sort_again (first second : CaseOrder) (d : Document) :
    (d.sort first).sort second = d.sort second ∧
      (d.sort first).sort first = d.sort first ∧
      (d.sort first).tally first = ⟨(d.tally first).lists, 0⟩ := by
  refine ⟨sort_sort, sort_sort, ?_⟩
  calc (d.sort first).tally first
    _ = ⟨((d.sort first).tally first).lists, ((d.sort first).tally first).moved⟩ := rfl
    _ = ⟨(d.tally first).lists, 0⟩ := by rw [lists_tally_sort, moved_tally_sort]

end Document

end ProjectOrder
