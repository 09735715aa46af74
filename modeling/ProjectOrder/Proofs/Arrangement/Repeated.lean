import ProjectOrder.Proofs.Arrangement.Slots
import ProjectOrder.Proofs.Document.Plain

/-!
# Sorting again

Sorting forgets how a document was sorted before: `Node.sortList_sortList`. A document is in order
exactly if sorting it moves no entry, so the tally tells whether there is anything to do:
`Document.tally_changed_iff`. Sorting neither adds nor loses entries: `Document.entries_sort_perm`.
-/

namespace ProjectOrder

namespace Node

variable {order other : CaseOrder} {n : Node} {ns fill : List Node} {f : Node → Node}

/-! ## Nodes changed inside -/

/-- Sorting a node changes nothing about its own entry. -/
theorem key?_sort : (n.sort order).key? = n.key? := by
  cases n <;> rfl

/-- Nodes with the same key are entries alike. -/
theorem isEntry_eq_of_key?_eq {m : Node} (h : m.key? = n.key?) : m.isEntry = n.isEntry := by
  rw [Bool.eq_iff_iff, isEntry_iff_key?, isEntry_iff_key?, h]

/-- Filling places does not look into the nodes. -/
theorem refill_map (hf : ∀ n, (f n).key? = n.key?) :
    refill (ns.map f) (fill.map f) = (refill ns fill).map f := by
  induction ns generalizing fill with
  | nil => rfl
  | cons n ns ih =>
      have hhead : (f n).isEntry = n.isEntry := isEntry_eq_of_key?_eq (hf n)
      unfold refill
      by_cases hn : n.isEntry
      · cases fill with
        | nil =>
            have hrest : refill (ns.map f) [] = (refill ns []).map f := @ih []
            simp [hhead, hn, hrest]
        | cons e fill => simp [hhead, hn, ih]
      · simp [hhead, hn, ih]

/-- Arranging a list does not look into its nodes. -/
theorem arrange_map (hf : ∀ n, (f n).key? = n.key?) :
    arrange order (ns.map f) = (arrange order ns).map f := by
  have hentries : (ns.map f).filter isEntry = (ns.filter isEntry).map f := by
    rw [List.filter_map]
    exact congrArg _ (List.filter_congr fun n _ => isEntry_eq_of_key?_eq (hf n))
  have hsorted : ((ns.filter isEntry).map f).mergeSort (le order) =
      ((ns.filter isEntry).mergeSort (le order)).map f :=
    (List.map_mergeSort fun m _ n _ => by rw [le, le, hf, hf]).symm
  rw [arrange, hentries, hsorted, refill_map hf]
  rfl

/-! ## Arranging again -/

/-- A list arranged under one case order and then under another is placed as if it had been arranged
under the second alone. -/
theorem arrange_arrange : arrange order (arrange other ns) = arrange order ns :=
  shuffled_arrange.arrange_eq

/-- Sorting a node forgets how it was sorted before. -/
theorem sort_sort : (n.sort other).sort order = n.sort order := by
  induction n with
  | leaf kind text => rfl
  | element entry tag ns ih =>
      have hinner : (ns.map (sort other)).map (sort order) = ns.map (sort order) := by
        rw [List.map_map]
        exact List.map_congr_left ih
      simp only [sort, sortInner_eq_map]
      rw [← arrange_map fun _ => key?_sort, hinner, arrange_arrange]

/-- Sorting a child list at every depth forgets how it was sorted before. -/
theorem sortList_sortList : sortList order (sortList other ns) = sortList order ns := by
  have hinner : (ns.map (sort other)).map (sort order) = ns.map (sort order) := by
    rw [List.map_map]
    exact List.map_congr_left fun _ _ => sort_sort
  simp only [sortList, sortInner_eq_map]
  rw [← arrange_map fun _ => key?_sort, hinner, arrange_arrange]

/-- A child list stands as it is when it is sorted exactly if each of its nodes does and its entries
are in order. -/
theorem sortList_eq_self_iff :
    sortList order ns = ns ↔ arrange order ns = ns ∧ ∀ n ∈ ns, n.sort order = n := by
  rw [sortList, sortInner_eq_map, arrange_map fun _ => key?_sort]
  constructor
  · intro h
    -- a list that is arranged already stays so, and the sorted nodes are those of such a list
    have harranged : arrange order ns = ns := by
      have htwice := congrArg (arrange order) h
      rwa [arrange_map fun _ => key?_sort, arrange_arrange, h, eq_comm] at htwice
    rw [harranged] at h
    refine ⟨harranged, fun n hn => ?_⟩
    exact List.map_inj_left.1 (h.trans (List.map_id ns).symm) n hn
  · rintro ⟨harranged, hnodes⟩
    rw [harranged]
    exact (List.map_congr_left hnodes).trans (List.map_id ns)

/-! ## Entries -/

/-- The entries of some nodes are those of each node, one after the other. -/
theorem entriesList_eq_flatMap (ns : List Node) : entriesList ns = ns.flatMap entries := by
  induction ns with
  | nil => rfl
  | cons n ns ih => rw [entriesList, ih, List.flatMap_cons]

/-- Arranging a list moves its entries and nothing else. -/
theorem entriesList_arrange_perm :
    (entriesList (arrange order ns)).Perm (entriesList ns) := by
  rw [entriesList_eq_flatMap, entriesList_eq_flatMap]
  exact arrange_perm.flatMap_right _

mutual

/-- Sorting a node permutes the entries in it. -/
theorem entries_sort_perm (n : Node) : (n.sort order).entries.Perm n.entries := by
  cases n with
  | leaf kind text => exact .refl _
  | element entry tag ns =>
      rw [sort, entries, entries]
      exact (entriesList_arrange_perm.trans (entriesList_sortInner_perm ns)).append_left _

/-- Sorting inside the nodes of a list moves their entries and nothing else. -/
theorem entriesList_sortInner_perm (ns : List Node) :
    (entriesList (sortInner order ns)).Perm (entriesList ns) := by
  cases ns with
  | nil => exact .refl _
  | cons n ns =>
      rw [sortInner, entriesList, entriesList]
      exact (entries_sort_perm n).append (entriesList_sortInner_perm ns)

end

end Node

/-! ## Tallies -/

namespace Tally

variable {order : CaseOrder} {n : Node} {ns : List Node}

/-- Numbered members of a list are the numbered list exactly if each stands at the place of its
number. -/
theorem countP_places_eq_zero_iff {as : List Node} {ps : List (Node × Nat)}
    (hmem : ∀ p ∈ ps, as[p.2]? = some p.1) (hlength : ps.length = as.length) :
    (ps.zipIdx.countP fun ((_, origin), place) => origin ≠ place) = 0 ↔ ps = as.zipIdx := by
  have hplaces : (ps.zipIdx.countP fun ((_, origin), place) => origin ≠ place) = 0 ↔
      ∀ (i : Nat) (p : Node × Nat), ps[i]? = some p → p.2 = i := by
    simp only [List.countP_eq_zero, List.mem_zipIdx_iff_getElem?, Prod.forall]
    simp only [decide_eq_true_eq, Decidable.not_not]
    exact ⟨fun h i n j hi => h n j i hi, fun h n j i hi => h i n j hi⟩
  rw [hplaces]
  constructor
  · intro h
    apply List.ext_getElem?
    intro i
    rw [List.getElem?_zipIdx]
    cases hi : ps[i]? with
    | none =>
        rw [List.getElem?_eq_none_iff, hlength] at hi
        rw [List.getElem?_eq_none hi]
        rfl
    | some p =>
        have hp := hmem p (List.mem_of_getElem? hi)
        rw [h i p hi] at hp
        rw [hp]
        simp [← h i p hi]
  · rintro rfl i p hi
    obtain ⟨n, -, rfl⟩ := Option.map_eq_some_iff.1 (List.getElem?_zipIdx ▸ hi)
    exact Nat.zero_add i

/-- The numbered entries of a list are in order as they stand exactly if the list is arranged. -/
theorem mergeSort_zipIdx_eq_iff :
    ((ns.filter Node.isEntry).zipIdx.mergeSort fun a b => Node.le order a.1 b.1) =
        (ns.filter Node.isEntry).zipIdx ↔ Node.arrange order ns = ns := by
  constructor
  · intro h
    have hsorted : (ns.filter Node.isEntry).mergeSort (Node.le order) = ns.filter Node.isEntry := by
      have hfirst := congrArg (List.map Prod.fst) h
      rw [List.map_mergeSort (s := Node.le order) fun _ _ _ _ => rfl] at hfirst
      rwa [List.zipIdx_map_fst] at hfirst
    rw [Node.arrange, hsorted]
    exact (Node.eq_refill (fun _ => rfl) fun _ _ hi _ => hi).symm
  · intro h
    have hplaced : Node.Placed order ns ns := Node.placed_iff.2 h.symm
    have hsorted := hplaced.sorted
    rw [← List.zipIdx_map_fst 0 (ns.filter Node.isEntry), List.pairwise_map] at hsorted
    exact List.mergeSort_of_pairwise hsorted

/-- No entry of a list moves exactly if the list is arranged. -/
theorem moves_eq_zero_iff : moves order ns = 0 ↔ Node.arrange order ns = ns := by
  rw [← mergeSort_zipIdx_eq_iff]
  refine countP_places_eq_zero_iff (fun p hp => ?_) (by simp)
  exact List.mem_zipIdx_iff_getElem?.1 (List.mem_mergeSort.1 hp)

mutual

/-- Nothing moves inside a node exactly if it is sorted. -/
theorem inside_moved_eq_zero_iff (n : Node) :
    (inside order n).moved = 0 ↔ n.sort order = n := by
  cases n with
  | leaf kind text => simp [inside, zero, Node.sort]
  | element entry tag ns =>
      have hlist : Node.arrange order (Node.sortInner order ns) = ns ↔ _ :=
        Node.sortList_eq_self_iff
      simp only [inside, ofList, add, Node.sort, Node.element.injEq, true_and, hlist,
        Nat.add_eq_zero_iff, moves_eq_zero_iff, insideList_moved_eq_zero_iff ns]

/-- Nothing moves inside some nodes exactly if each of them is sorted. -/
theorem insideList_moved_eq_zero_iff (ns : List Node) :
    (insideList order ns).moved = 0 ↔ ∀ n ∈ ns, n.sort order = n := by
  cases ns with
  | nil => simp [insideList, zero]
  | cons n ns =>
      simp only [insideList, add, Nat.add_eq_zero_iff, inside_moved_eq_zero_iff n,
        insideList_moved_eq_zero_iff ns, List.forall_mem_cons]

end

end Tally

namespace Document

variable {order other : CaseOrder} {d : Document}

/-- Sorting a document moves entries exactly if it changes the document. -/
theorem tally_changed_iff : (d.tally order).changed ↔ d.sort order ≠ d := by
  have hsame : d.sort order = d ↔ Node.sortList order d.root.children = d.root.children := by
    obtain ⟨dialect, encoding, mark, prolog, ⟨tag, children⟩, epilog⟩ := d
    simp [sort]
  have hmoved : (d.tally order).moved = 0 ↔ d.sort order = d := by
    rw [hsame, Node.sortList_eq_self_iff, tally, Tally.add, Tally.ofList]
    rw [Nat.add_eq_zero_iff, Tally.moves_eq_zero_iff, Tally.insideList_moved_eq_zero_iff]
  rw [Tally.changed, decide_eq_true_iff, gt_iff_lt, Nat.pos_iff_ne_zero, Ne, hmoved]

/-- Sorting a document forgets how it was sorted before. -/
theorem sort_sort : (d.sort other).sort order = d.sort order := by
  simp only [sort, Node.sortList_sortList]

/-- A sorted document has the entries of the document, in another order. -/
theorem entries_sort_perm : (d.sort order).entries.Perm d.entries :=
  Node.entriesList_arrange_perm.trans (Node.entriesList_sortInner_perm _)

end Document

end ProjectOrder
