import Mathlib.Data.List.Perm.Basic
import ProjectOrder.Proofs.Arrangement.Rearranged

/-!
# Counting moves

What the tally of a document counts, said without sorting: an entry stands after a stable sort in
the slot whose number is that of the entries before it in the order of keys, and it has moved if it
stood in another slot. `Document.tally_spec` says that the tally counts these moves over all child
lists, and the lists that hold entries.
-/

namespace ProjectOrder

open Std (OrientedCmp LawfulEqCmp)

/-! ## Places in sorted lists -/

/-- In a list without ties a member stands in the place with the number of the members before it. -/
theorem countP_eq_of_getElem? {α : Type} {r : α → α → Bool} {as : List α} {a : α} {i : Nat}
    (hasymm : ∀ a b, r a b → r b a = false) (hsorted : as.Pairwise fun a b => r a b)
    (hi : as[i]? = some a) : as.countP (r · a) = i := by
  have hirrefl : r a a = false := by
    cases h : r a a with
    | false => rfl
    | true => rw [← h, hasymm a a h]
  induction as generalizing i with
  | nil => simp at hi
  | cons b as ih =>
      obtain ⟨hb, hrest⟩ := List.pairwise_cons.1 hsorted
      cases i with
      | zero =>
          obtain rfl : b = a := by simpa using hi
          have hnone : as.countP (r · b) = 0 :=
            List.countP_eq_zero.2 fun c hc => by simp [hasymm b c (hb c hc)]
          rw [List.countP_cons, hnone, hirrefl]
          rfl
      | succ i =>
          have hi : as[i]? = some a := by simpa using hi
          rw [List.countP_cons, ih hrest hi, if_pos (hb a (List.mem_of_getElem? hi))]

/-- Two functions with one sum over a list do not differ in exactly one member. -/
theorem countP_ne_one_of_sum_eq {α : Type} {f g : α → Nat} {as : List α}
    (h : (as.map f).sum = (as.map g).sum) : as.countP (fun a => f a ≠ g a) ≠ 1 := by
  have hsum : (as.countP (fun a => f a ≠ g a) = 0 → (as.map f).sum = (as.map g).sum) ∧
      (as.countP (fun a => f a ≠ g a) = 1 → (as.map f).sum ≠ (as.map g).sum) := by
    clear h
    induction as with
    | nil => simp
    | cons a as ih =>
        obtain ⟨hnone, hone⟩ := ih
        rw [List.countP_cons, List.map_cons, List.map_cons, List.sum_cons, List.sum_cons]
        by_cases ha : f a = g a
        · simp only [ha, ne_eq, not_true_eq_false, decide_false, Bool.false_eq_true, if_false]
          refine ⟨fun h => by rw [hnone h], fun h => ?_⟩
          have := hone h
          omega
        · simp only [ha, ne_eq, not_false_eq_true, decide_true, if_true]
          refine ⟨nofun, fun h => ?_⟩
          have := hnone (Nat.succ.inj h)
          omega
  exact fun hone => hsum.2 hone h

/-- Numbers none of which is 1 do not sum up to 1. -/
theorem sum_map_ne_one {α : Type} {f : α → Nat} {as : List α} (h : ∀ a ∈ as, f a ≠ 1) :
    (as.map f).sum ≠ 1 := by
  induction as with
  | nil => simp
  | cons a as ih =>
      have hhead : f a ≠ 1 := h a List.mem_cons_self
      have hrest : (as.map f).sum ≠ 1 := ih fun b hb => h b (List.mem_cons_of_mem a hb)
      rw [List.map_cons, List.sum_cons]
      omega

/-- The numbers of numbered members ascend. -/
theorem pairwise_zipIdx_snd {α : Type} (as : List α) : as.zipIdx.Pairwise fun a b => a.2 < b.2 := by
  have hnumbers : (as.zipIdx.map Prod.snd).Pairwise (· < ·) := by
    rw [List.zipIdx_map_snd]
    exact List.pairwise_lt_range'
  exact List.pairwise_map.1 hnumbers

namespace Tally

/-! ## Slots -/

/-- The entries of a child list, each with the number of its slot. -/
def numbered (ns : List Node) : List (Node × Nat) :=
  (ns.filter Node.isEntry).zipIdx

/-- Whether one of two numbered entries comes first in a stable sort: by key, and then by number. -/
def precedes (order : CaseOrder) (a b : Node × Nat) : Bool :=
  match a.1.key?, b.1.key? with
  | some j, some k => (Key.compare order j k).then (compare a.2 b.2) = .lt
  | _, _ => false

/-- The number of the slot that a stable sort of a child list puts a numbered entry in. -/
def slot (order : CaseOrder) (ns : List Node) (a : Node × Nat) : Nat :=
  (numbered ns).countP (precedes order · a)

/-- How many entries of a child list a stable sort puts in another slot. -/
def displaced (order : CaseOrder) (ns : List Node) : Nat :=
  (numbered ns).countP fun a => a.2 ≠ slot order ns a

/-- The numbered entries of a child list, sorted. -/
def ranked (order : CaseOrder) (ns : List Node) : List (Node × Nat) :=
  (numbered ns).mergeSort fun a b => Node.le order a.1 b.1

variable {order : CaseOrder} {ns : List Node} {a b : Node × Nat} {i : Nat}

/-- Of two numbered nodes at most one precedes the other. -/
theorem precedes_asymm (a b : Node × Nat) (h : precedes order a b) :
    precedes order b a = false := by
  unfold precedes at h ⊢
  cases ha : a.1.key? with
  | none => cases hb : b.1.key? <;> rfl
  | some j =>
      cases hb : b.1.key? with
      | none => rfl
      | some k =>
          have hswap : (Key.compare order k j).then (compare b.2 a.2) =
              ((Key.compare order j k).then (compare a.2 b.2)).swap := by
            rw [Ordering.swap_then, ← OrientedCmp.eq_swap, ← OrientedCmp.eq_swap]
          simp only [ha, hb, decide_eq_true_eq] at h
          simp only [hswap, h]
          rfl

/-- Only entries are numbered. -/
theorem isEntry_of_mem_numbered (h : a ∈ numbered ns) : a.1.isEntry :=
  (List.mem_filter.1 (List.fst_mem_of_mem_zipIdx h)).2

/-- Ranking the entries of a list moves them and nothing else. -/
theorem ranked_perm : (ranked order ns).Perm (numbered ns) :=
  List.mergeSort_perm _ _

/-- Sorted numbered entries stand one before the other. -/
theorem pairwise_ranked : (ranked order ns).Pairwise fun a b => precedes order a b := by
  have htrans (a b c : Node × Nat) :
      Node.totalLe order a.1 b.1 → Node.totalLe order b.1 c.1 → Node.totalLe order a.1 c.1 :=
    Node.totalLe_trans a.1 b.1 c.1
  have htotal (a b : Node × Nat) :
      (Node.totalLe order a.1 b.1 || Node.totalLe order b.1 a.1) = true :=
    Node.totalLe_total a.1 b.1
  have hranked : ranked order ns = (numbered ns).mergeSort fun a b => Node.totalLe order a.1 b.1 :=
    Node.mergeSort_congr fun a ha b hb =>
      (Node.totalLe_eq_le (isEntry_of_mem_numbered ha) (isEntry_of_mem_numbered hb)).symm
  have hsorted : (ranked order ns).Pairwise fun a b => Node.totalLe order a.1 b.1 := by
    rw [hranked]
    exact List.pairwise_mergeSort htrans htotal _
  rw [List.pairwise_iff_forall_sublist] at hsorted ⊢
  intro a b hsub
  have hkey {c : Node × Nat} (hc : c ∈ [a, b]) : ∃ k, c.1.key? = some k :=
    Node.isEntry_iff_key?.1 (isEntry_of_mem_numbered (ranked_perm.mem_iff.1 (hsub.subset hc)))
  obtain ⟨j, hj⟩ : ∃ j, a.1.key? = some j := hkey (by simp)
  obtain ⟨k, hk⟩ : ∃ k, b.1.key? = some k := hkey (by simp)
  have hle := hsorted hsub
  simp only [Node.totalLe, hj, hk, Key.le] at hle
  simp only [precedes, hj, hk, decide_eq_true_eq]
  cases hcompare : Key.compare order j k with
  | lt => rfl
  | gt => simp [hcompare] at hle
  | eq =>
      -- entries of one key stand in the order of their numbers, as sorting is stable
      obtain rfl := LawfulEqCmp.eq_of_compare hcompare
      have hstable : (ranked order ns).filter (fun a => Node.tiesWith order j a.1) =
          (numbered ns).filter fun a => Node.tiesWith order j a.1 := by
        rw [hranked]
        exact Node.filter_mergeSort htrans htotal fun _ _ => Node.totalLe_of_tiesWith
      have hties := hsub.filter fun a => Node.tiesWith order j a.1
      rw [hstable] at hties
      simp only [List.filter_cons, Node.tiesWith_iff.2 hj, Node.tiesWith_iff.2 hk, if_true,
        List.filter_nil] at hties
      have hlt : a.2 < b.2 :=
        List.pairwise_iff_forall_sublist.1 ((pairwise_zipIdx_snd _).filter _) hties
      exact Nat.compare_eq_lt.2 hlt

/-- Among the sorted numbered entries each stands in its slot. -/
theorem slot_eq (hi : (ranked order ns)[i]? = some a) : slot order ns a = i := by
  rw [slot, ← ranked_perm.countP_eq]
  exact countP_eq_of_getElem? precedes_asymm pairwise_ranked hi

/-- The places of the sorted numbered entries are their slots. -/
theorem zipIdx_ranked :
    (ranked order ns).zipIdx = (ranked order ns).map fun a => (a, slot order ns a) := by
  apply List.ext_getElem?
  intro i
  rw [List.getElem?_zipIdx, List.getElem?_map]
  cases hi : (ranked order ns)[i]? with
  | none => rfl
  | some a => simp [slot_eq hi]

/-- Every entry has a slot of its own. -/
theorem map_slot_perm (order : CaseOrder) (ns : List Node) :
    ((numbered ns).map (slot order ns)).Perm (List.range (numbered ns).length) := by
  have hplaces : (ranked order ns).map (slot order ns) = (ranked order ns).zipIdx.map Prod.snd := by
    rw [zipIdx_ranked, List.map_map]
    rfl
  have hslots : ((ranked order ns).map (slot order ns)).Perm ((numbered ns).map (slot order ns)) :=
    ranked_perm.map _
  rw [hplaces, List.zipIdx_map_snd, ranked_perm.length_eq, ← List.range_eq_range'] at hslots
  exact hslots.symm

/-- Sorting moves the entries that it puts in another slot. -/
theorem moves_eq_displaced : moves order ns = displaced order ns := by
  show (ranked order ns).zipIdx.countP _ = _
  rw [zipIdx_ranked, List.countP_map, ranked_perm.countP_eq]
  rfl

/-- It is never a single entry that is put in another slot. -/
theorem displaced_ne_one : displaced order ns ≠ 1 := by
  refine countP_ne_one_of_sum_eq ?_
  rw [(map_slot_perm order ns).sum_nat, numbered, List.zipIdx_map_snd, List.length_zipIdx,
    List.range_eq_range']

/-- Each slot of a sorted list holds the entry that it is the slot of, sorted inside. -/
theorem map_getElem?_slot (order : CaseOrder) (ns : List Node) :
    (numbered ns).map
        (fun a => ((Node.sortList order ns).filter Node.isEntry)[slot order ns a]?) =
      (numbered ns).map fun a => some (a.1.sort order) := by
  have hsorted : (Node.sortList order ns).filter Node.isEntry =
      (ranked order ns).map fun a => a.1.sort order := by
    have hmarks : Node.isEntry ∘ Node.sort order = Node.isEntry :=
      funext fun n => Node.isEntry_eq_of_key?_eq Node.key?_sort
    have hfirst : (ranked order ns).map Prod.fst =
        (ns.filter Node.isEntry).mergeSort (Node.le order) := by
      rw [ranked, List.map_mergeSort (s := Node.le order) fun _ _ _ _ => rfl, numbered,
        List.zipIdx_map_fst]
    rw [Node.sortList_eq_map, List.filter_map, hmarks, Node.filter_arrange, ← hfirst, List.map_map]
    rfl
  refine List.map_congr_left fun a ha => ?_
  obtain ⟨i, hi⟩ := List.mem_iff_getElem?.1 (ranked_perm.mem_iff.2 ha)
  rw [slot_eq hi, hsorted, List.getElem?_map, hi]
  rfl

end Tally

/-! ## Child lists -/

namespace Node

mutual

/-- All child lists in a node, each before those inside it. -/
def childLists : Node → List (List Node)
  | element _ _ ns => ns :: childListsEach ns
  | leaf .. => []

/-- All child lists in the nodes of a child list. -/
def childListsEach : List Node → List (List Node)
  | [] => []
  | n :: ns => n.childLists ++ childListsEach ns

end

variable {order : CaseOrder} {ns : List Node}

/-- The child lists of some nodes are those of each node, one after the other. -/
theorem childListsEach_eq_flatMap (ns : List Node) : childListsEach ns = ns.flatMap childLists := by
  induction ns with
  | nil => rfl
  | cons n ns ih => rw [childListsEach, ih, List.flatMap_cons]

/-- The child lists of an element are its own and those of its children. -/
theorem childLists_element {entry : Option Entry} {tag : Tag} :
    (element entry tag ns).childLists = ns :: ns.flatMap childLists := by
  rw [childLists, childListsEach_eq_flatMap]

/-- Sorting a node sorts the child lists in it. -/
theorem childLists_sort_perm (n : Node) :
    (n.sort order).childLists.Perm (n.childLists.map (sortList order)) := by
  induction n with
  | leaf kind text => exact .refl _
  | element entry tag ns ih =>
      have hsort : sort order (element entry tag ns) = element entry tag (sortList order ns) := rfl
      rw [hsort, childLists_element, childLists_element, List.map_cons]
      refine .cons _ ?_
      rw [sortList_eq_map, List.flatMap_map, List.map_flatMap]
      exact (arrange_perm.flatMap_right _).trans (List.Perm.flatMap_left _ ih)

end Node

namespace Tally

variable {order : CaseOrder}

mutual

/-- The tally of a node counts the entries put in another slot and the lists with entries. -/
theorem inside_eq (n : Node) : inside order n =
    ⟨n.childLists.countP (·.any Node.isEntry), (n.childLists.map (displaced order)).sum⟩ := by
  cases n with
  | leaf kind text => rfl
  | element entry tag ns =>
      rw [inside, insideList_eq ns, ofList, add, moves_eq_displaced, Node.childLists,
        List.countP_cons, List.map_cons, List.sum_cons, Nat.add_comm]

/-- The tally of what is inside some nodes counts the child lists with entries, and the entries
displaced in them. -/
theorem insideList_eq (ns : List Node) : insideList order ns =
    ⟨(Node.childListsEach ns).countP (·.any Node.isEntry),
      ((Node.childListsEach ns).map (displaced order)).sum⟩ := by
  cases ns with
  | nil => rfl
  | cons n ns =>
      rw [insideList, inside_eq n, insideList_eq ns, add, Node.childListsEach, List.countP_append,
        List.map_append, List.sum_append_nat]

end

end Tally

namespace Document

variable {order : CaseOrder} {d : Document}

/-- All child lists of a document: that of the root, and those below. -/
def childLists (d : Document) : List (List Node) :=
  (Node.element none d.root.tag d.root.children).childLists

/-- The tally of a document counts the child lists with entries, and the entries displaced in
them. -/
theorem tally_eq : d.tally order =
    ⟨d.childLists.countP (·.any Node.isEntry), (d.childLists.map (Tally.displaced order)).sum⟩ :=
  Tally.inside_eq (.element none d.root.tag d.root.children)

/-- Sorting a document sorts its child lists. -/
theorem childLists_sort_perm :
    (d.sort order).childLists.Perm (d.childLists.map (Node.sortList order)) :=
  Node.childLists_sort_perm (.element none d.root.tag d.root.children)

/-- The tally of a document counts the moves of sorting it. It shows a change exactly if sorting
changes the document, and the moves are the entries of all child lists that sorting puts in another
slot: each entry has a slot of its own, and the sorted list holds the entry there. It is never a
single entry that moves, and the lists with entries are as many in the sorted document. -/
theorem tally_spec (order : CaseOrder) (d : Document) :
    ((d.tally order).changed ↔ d.sort order ≠ d) ∧
      (d.tally order).moved = (d.childLists.map (Tally.displaced order)).sum ∧
      (∀ ns : List Node,
        ((Tally.numbered ns).map (Tally.slot order ns)).Perm
            (List.range (Tally.numbered ns).length) ∧
          (Tally.numbered ns).map
              (fun a => ((Node.sortList order ns).filter Node.isEntry)[Tally.slot order ns a]?) =
            (Tally.numbered ns).map fun a => some (a.1.sort order)) ∧
      (d.sort order).childLists.Perm (d.childLists.map (Node.sortList order)) ∧
      (d.tally order).moved ≠ 1 ∧
      (d.tally order).lists = d.childLists.countP (·.any Node.isEntry) ∧
      (d.sort order).childLists.countP (·.any Node.isEntry) = (d.tally order).lists := by
  have hmoved : (d.tally order).moved = (d.childLists.map (Tally.displaced order)).sum := by
    rw [tally_eq]
  have hlists : (d.tally order).lists = d.childLists.countP (·.any Node.isEntry) := by
    rw [tally_eq]
  refine ⟨tally_changed_iff, hmoved, fun ns => ?_, childLists_sort_perm, ?_, hlists, ?_⟩
  · exact ⟨Tally.map_slot_perm order ns, Tally.map_getElem?_slot order ns⟩
  · rw [hmoved]
    exact sum_map_ne_one fun ns _ => Tally.displaced_ne_one
  · have hsorted : ((d.sort order).tally order).lists =
        (d.sort order).childLists.countP (·.any Node.isEntry) := by
      rw [tally_eq]
    rw [← hsorted, lists_tally_sort]

end Document

end ProjectOrder
