import ProjectOrder.Document.Arrangement
import ProjectOrder.Proofs.Collation.KeyOrder

/-!
# One child list in order

`Placed order ns ms` says what it means for `ms` to be the child list `ns` with its entries put in
order among their places. `placed_iff` shows that `arrange` yields the one list that is placed so.
`Shuffled ns ms` says the same without an order, and `arrange` cannot tell a list from a shuffled
one: `Shuffled.arrange_eq`.
-/

namespace ProjectOrder

open Std (ReflCmp OrientedCmp LawfulEqCmp TransCmp)

namespace Node

/-- Whether a node stands for an entry whose key ties with `k`. -/
def tiesWith (order : CaseOrder) (k : Key) (n : Node) : Bool :=
  n.key?.any fun j => Key.compare order j k == .eq

/-- `Placed order ns ms` says that `ms` holds the nodes of `ns`, the entries in order among the
places of entries and every other node in its own place. -/
structure Placed (order : CaseOrder) (ns ms : List Node) : Prop where
  /-- No place is added or lost. -/
  length_eq : ms.length = ns.length
  /-- The places of entries are the same. -/
  slots : ∀ i : Nat, ms[i]?.map isEntry = ns[i]?.map isEntry
  /-- Every node that is no entry stays. -/
  others : ∀ (i : Nat) (n : Node), ns[i]? = some n → n.isEntry = false → ms[i]? = some n
  /-- The entries are those of the list. -/
  perm : (ms.filter isEntry).Perm (ns.filter isEntry)
  /-- The entries do not descend. -/
  sorted : (ms.filter isEntry).Pairwise fun m n => le order m n
  /-- Entries that tie keep their relative order. -/
  stable : ∀ k : Key, ms.filter (tiesWith order k) = ns.filter (tiesWith order k)

/-- `Shuffled ns ms` says that `ms` is the child list `ns` with its entries moved among the places
of entries. -/
structure Shuffled (ns ms : List Node) : Prop where
  /-- The places of entries are the same. -/
  slots : ms.map isEntry = ns.map isEntry
  /-- Every node that is no entry stays. -/
  others : ∀ (i : Nat) (n : Node), ns[i]? = some n → n.isEntry = false → ms[i]? = some n
  /-- The entries are those of the list. -/
  perm : (ms.filter isEntry).Perm (ns.filter isEntry)
  /-- Entries of one kind and one identifier keep their relative order. -/
  stable : ∀ k : Key, ms.filter (·.key? = some k) = ns.filter (·.key? = some k)

variable {order : CaseOrder} {ns ms ls fill : List Node} {m n : Node} {j k : Key}

/-! ## Keys of entries -/

/-- Entries are the nodes with a key. -/
theorem isEntry_iff_key? : n.isEntry ↔ ∃ k, n.key? = some k := by
  cases n with
  | leaf => simp [isEntry, key?, asEntry]
  | element entry => cases entry <;> simp [isEntry, key?, asEntry]

/-- Entries are ordered by their keys. -/
theorem le_of_key? (hm : m.key? = some j) (hn : n.key? = some k) :
    le order m n = (Key.compare order j k).isLE := by
  simp [le, hm, hn, Key.le]

/-- Only equal keys tie, whatever the case order. -/
theorem tiesWith_iff : tiesWith order k n ↔ n.key? = some k := by
  cases h : n.key? with
  | none => simp [tiesWith, h]
  | some j => simp [tiesWith, h, LawfulEqCmp.compare_eq_iff_eq]

/-- The nodes that tie with a key are those with this key. -/
theorem tiesWith_eq (k : Key) : tiesWith order k = fun n : Node => decide (n.key? = some k) := by
  funext n
  rw [Bool.eq_iff_iff, tiesWith_iff, decide_eq_true_iff]

/-- Only entries tie with a key. -/
theorem filter_tiesWith_filter :
    (ns.filter isEntry).filter (tiesWith order k) = ns.filter (tiesWith order k) := by
  rw [List.filter_filter]
  refine List.filter_congr fun n _ => ?_
  by_cases h : tiesWith order k n
  · simp [h, isEntry_iff_key?.2 ⟨k, tiesWith_iff.1 h⟩]
  · simp [h]

/-! ## Sorting entries -/

open scoped List in
/-- Lists are permutations of each other if their members with a property are and the others are the
same. -/
theorem perm_of_filter_perm {α : Type} {p : α → Bool} {as bs : List α}
    (h : (as.filter p).Perm (bs.filter p)) (hothers : as.filter (!p ·) = bs.filter (!p ·)) :
    as.Perm bs :=
  calc as
    _ ~ as.filter p ++ as.filter (!p ·) := (List.filter_append_perm _ _).symm
    _ ~ bs.filter p ++ bs.filter (!p ·) := hothers ▸ h.append_right _
    _ ~ bs := List.filter_append_perm _ _

/-- Sorting looks at the order of members only. -/
theorem mergeSort_congr {α : Type} {r s : α → α → Bool} {as : List α}
    (h : ∀ a ∈ as, ∀ b ∈ as, r a b = s a b) : as.mergeSort r = as.mergeSort s := by
  have hmap : (as.mergeSort r).map id = (as.map id).mergeSort s := List.map_mergeSort h
  simpa using hmap

/-- Sorting keeps members that tie with each other in their order. -/
theorem filter_mergeSort {α : Type} {r : α → α → Bool} {p : α → Bool} {as : List α}
    (htrans : ∀ a b c, r a b → r b c → r a c) (htotal : ∀ a b, r a b || r b a)
    (hties : ∀ a b, p a → p b → r a b) : (as.mergeSort r).filter p = as.filter p := by
  have hpairwise : (as.filter p).Pairwise fun a b => r a b :=
    List.pairwise_of_forall_mem_list fun a ha b hb =>
      hties a b (List.mem_filter.1 ha).2 (List.mem_filter.1 hb).2
  have hsub : ((as.filter p).filter p).Sublist ((as.mergeSort r).filter p) :=
    (List.sublist_mergeSort htrans htotal hpairwise List.filter_sublist).filter p
  have hlength : ((as.mergeSort r).filter p).length = (as.filter p).length :=
    ((List.mergeSort_perm as r).filter p).length_eq
  rw [List.filter_filter] at hsub
  exact (List.Sublist.eq_of_length (by simpa using hsub) (by simpa using hlength.symm)).symm

/-- The order of entries made total: other nodes come before them. -/
def totalLe (order : CaseOrder) (m n : Node) : Bool :=
  match m.key?, n.key? with
  | some j, some k => Key.le order j k
  | none, _ => true
  | some _, none => false

/-- The order of entries, completed to all nodes, is transitive. -/
theorem totalLe_trans (a b c : Node) (hab : totalLe order a b) (hbc : totalLe order b c) :
    totalLe order a c := by
  unfold totalLe at *
  cases ha : a.key? <;> cases hb : b.key? <;> cases hc : c.key? <;> simp_all [Key.le]
  exact TransCmp.isLE_trans hab hbc

/-- The order of entries, completed to all nodes, compares any two. -/
theorem totalLe_total (a b : Node) : (totalLe order a b || totalLe order b a) = true := by
  unfold totalLe
  cases ha : a.key? <;> cases hb : b.key? <;> simp [Key.le]
  rename_i j k
  have htotal : (Key.compare order j k).isLE || (Key.compare order k j).isLE := isLE_total j k
  simpa using htotal

/-- On entries the completed order is the order of entries. -/
theorem totalLe_eq_le (hm : m.isEntry) (hn : n.isEntry) : totalLe order m n = le order m n := by
  obtain ⟨j, hj⟩ := isEntry_iff_key?.1 hm
  obtain ⟨k, hk⟩ := isEntry_iff_key?.1 hn
  simp [totalLe, le, hj, hk]

/-- On entries alone, sorting is sorting by a total order. -/
theorem mergeSort_le_eq (h : ∀ n ∈ ns, n.isEntry) :
    ns.mergeSort (le order) = ns.mergeSort (totalLe order) :=
  mergeSort_congr fun m hm n hn => (totalLe_eq_le (h m hm) (h n hn)).symm

/-- Sorted entries are in order. -/
theorem pairwise_mergeSort_entries (h : ∀ n ∈ ns, n.isEntry) :
    (ns.mergeSort (le order)).Pairwise fun m n => le order m n := by
  have hsorted : (ns.mergeSort (totalLe order)).Pairwise fun m n => totalLe order m n :=
    List.pairwise_mergeSort totalLe_trans totalLe_total ns
  rw [mergeSort_le_eq h]
  refine hsorted.imp_of_mem fun {m n} hm hn hle => ?_
  rwa [← totalLe_eq_le (h m (List.mem_mergeSort.1 hm)) (h n (List.mem_mergeSort.1 hn))]

/-- Entries of one key tie. -/
theorem totalLe_of_tiesWith (hm : tiesWith order k m) (hn : tiesWith order k n) :
    totalLe order m n := by
  simp [totalLe, tiesWith_iff.1 hm, tiesWith_iff.1 hn, Key.le, ReflCmp.compare_self]

/-- Sorting keeps the entries of one key in their order. -/
theorem filter_tiesWith_mergeSort (h : ∀ n ∈ ns, n.isEntry) :
    (ns.mergeSort (le order)).filter (tiesWith order k) = ns.filter (tiesWith order k) := by
  rw [mergeSort_le_eq h]
  exact filter_mergeSort totalLe_trans totalLe_total fun _ _ => totalLe_of_tiesWith

/-- A list of entries in order is determined by its entries of each key, in their order. -/
theorem eq_of_sorted_of_stable {as bs : List Node}
    (has : ∀ n ∈ as, n.isEntry) (hbs : ∀ n ∈ bs, n.isEntry)
    (hsorted : as.Pairwise fun m n => le order m n)
    (hsorted' : bs.Pairwise fun m n => le order m n)
    (hstable : ∀ k, as.filter (tiesWith order k) = bs.filter (tiesWith order k)) : as = bs := by
  -- a member of one list belongs to the other, since it is found among the entries of its key
  have transfer {as bs : List Node} (h : ∀ n ∈ as, n.isEntry)
      (hstable : ∀ k, as.filter (tiesWith order k) = bs.filter (tiesWith order k)) :
      ∀ n ∈ as, n ∈ bs := by
    intro n hn
    obtain ⟨k, hk⟩ := isEntry_iff_key?.1 (h n hn)
    have hmem : n ∈ as.filter (tiesWith order k) :=
      List.mem_filter.2 ⟨hn, tiesWith_iff.2 hk⟩
    rw [hstable k] at hmem
    exact (List.mem_filter.1 hmem).1
  induction as generalizing bs with
  | nil =>
      cases bs with
      | nil => rfl
      | cons b bs => exact absurd (transfer hbs (fun k => (hstable k).symm) b (by simp)) (by simp)
  | cons a as ih =>
      cases bs with
      | nil => exact absurd (transfer has hstable a (by simp)) (by simp)
      | cons b bs =>
          obtain ⟨j, hj⟩ := isEntry_iff_key?.1 (has a (by simp))
          obtain ⟨k, hk⟩ := isEntry_iff_key?.1 (hbs b (by simp))
          rw [List.pairwise_cons] at hsorted hsorted'
          -- each head may stand before the other, so the two have one key
          have hkey : j = k := by
            have hab : (Key.compare order j k).isLE := by
              rcases List.mem_cons.1 (transfer hbs (fun k => (hstable k).symm) b (by simp))
                with rfl | hmem
              · rw [hj] at hk
                simp [Option.some.inj hk, ReflCmp.compare_self]
              · simpa [le_of_key? hj hk] using hsorted.1 b hmem
            have hba : (Key.compare order k j).isLE := by
              rcases List.mem_cons.1 (transfer has hstable a (by simp)) with rfl | hmem
              · rw [hj] at hk
                simp [Option.some.inj hk, ReflCmp.compare_self]
              · simpa [le_of_key? hk hj] using hsorted'.1 a hmem
            exact LawfulEqCmp.eq_of_compare (OrientedCmp.isLE_antisymm hab hba)
          subst hkey
          have hhead := hstable j
          simp only [List.filter_cons, tiesWith_iff.2 hj, tiesWith_iff.2 hk, if_true,
            List.cons.injEq] at hhead
          obtain ⟨rfl, hrest⟩ := hhead
          refine congrArg (a :: ·) (ih (fun n hn => has n (List.mem_cons_of_mem _ hn))
            (fun n hn => hbs n (List.mem_cons_of_mem _ hn)) hsorted.2 hsorted'.2 fun k => ?_)
          have hk := hstable k
          by_cases htie : tiesWith order k a
          · simpa [List.filter_cons, htie] using hk
          · simpa [List.filter_cons, htie] using hk

/-! ## Filling places -/

/-- Filling with entries changes nothing that is the same in all entries. -/
theorem map_refill {α : Type} {f : Node → α} {a : α} (hf : ∀ n, n.isEntry → f n = a)
    (h : ∀ n ∈ fill, n.isEntry) : (refill ns fill).map f = ns.map f := by
  induction ns generalizing fill with
  | nil => rfl
  | cons n ns ih =>
      unfold refill
      by_cases hn : n.isEntry
      · cases fill with
        | nil => simp [hn, ih]
        | cons e fill =>
            have he : f e = f n := (hf e (h e (by simp))).trans (hf n hn).symm
            simp [hn, he, ih fun m hm => h m (List.mem_cons_of_mem _ hm)]
      · simp [hn, ih h]

/-- Filling with entries keeps the other nodes. -/
theorem filter_not_refill (h : ∀ n ∈ fill, n.isEntry) :
    (refill ns fill).filter (!·.isEntry) = ns.filter (!·.isEntry) := by
  induction ns generalizing fill with
  | nil => rfl
  | cons n ns ih =>
      unfold refill
      by_cases hn : n.isEntry
      · cases fill with
        | nil => simp [hn, ih]
        | cons e fill => simp [hn, h e (by simp), ih fun m hm => h m (List.mem_cons_of_mem _ hm)]
      · simp [hn, ih h]

/-- A list without entries has no place to fill. -/
theorem refill_of_not_isEntry (h : ∀ n ∈ ns, n.isEntry = false) : refill ns fill = ns := by
  induction ns with
  | nil => rfl
  | cons n ns ih =>
      unfold refill
      simp [h n (by simp), ih fun m hm => h m (List.mem_cons_of_mem _ hm)]

/-- Filling leaves every other node in its place. -/
theorem getElem?_refill {i : Nat} (hi : ns[i]? = some n) (hn : n.isEntry = false) :
    (refill ns fill)[i]? = some n := by
  induction ns generalizing fill i with
  | nil => simp at hi
  | cons m ns ih =>
      unfold refill
      cases i with
      | zero =>
          obtain rfl : m = n := by simpa using hi
          simp [hn]
      | succ i =>
          have hi : ns[i]? = some n := by simpa using hi
          by_cases hm : m.isEntry
          · cases fill with
            | nil => simpa [hm] using ih hi
            | cons e fill => simpa [hm] using ih hi
          · simpa [hm] using ih hi

/-- The entries of a list filled with as many entries as it has are these. -/
theorem filter_refill (h : ∀ n ∈ fill, n.isEntry)
    (hlength : fill.length = (ns.filter isEntry).length) :
    (refill ns fill).filter isEntry = fill := by
  induction ns generalizing fill with
  | nil => simpa [refill] using hlength
  | cons n ns ih =>
      unfold refill
      by_cases hn : n.isEntry
      · cases fill with
        | nil => simp [hn] at hlength
        | cons e fill =>
            simp only [List.length_cons, List.filter_cons, hn, if_true, Nat.add_right_cancel_iff]
              at hlength
            simp [hn, h e (by simp), ih (fun m hm => h m (List.mem_cons_of_mem _ hm)) hlength]
      · simp only [List.filter_cons, hn] at hlength
        simp [hn, ih h (by simpa using hlength)]

/-- A list that differs from another in its entries only is the other filled with its entries. -/
theorem eq_refill (hslots : ∀ i : Nat, ms[i]?.map isEntry = ns[i]?.map isEntry)
    (hothers : ∀ (i : Nat) (n : Node), ns[i]? = some n → n.isEntry = false → ms[i]? = some n) :
    ms = refill ns (ms.filter isEntry) := by
  induction ns generalizing ms with
  | nil =>
      cases ms with
      | nil => rfl
      | cons m ms => exact absurd (hslots 0) (by simp)
  | cons n ns ih =>
      cases ms with
      | nil => exact absurd (hslots 0) (by simp)
      | cons m ms =>
          have hhead : m.isEntry = n.isEntry := by simpa using hslots 0
          have htail : ms = refill ns (ms.filter isEntry) :=
            ih (fun i => by simpa using hslots (i + 1))
              fun i n hi hn => by simpa using hothers (i + 1) n (by simpa using hi) hn
          unfold refill
          by_cases hn : n.isEntry
          · simpa [hhead, hn] using htail
          · obtain rfl : m = n := by simpa using hothers 0 n (by simp) (by simpa using hn)
            simpa [hn] using htail

/-! ## Arranging a list -/

/-- The sorted entries of a list are entries. -/
theorem isEntry_of_mem_sorted (h : n ∈ (ns.filter isEntry).mergeSort (le order)) : n.isEntry :=
  (List.mem_filter.1 (List.mem_mergeSort.1 h)).2

/-- The entries of an arranged list are those of the list, sorted. -/
theorem filter_arrange :
    (arrange order ns).filter isEntry = (ns.filter isEntry).mergeSort (le order) :=
  filter_refill (fun _ => isEntry_of_mem_sorted) (List.length_mergeSort _)

/-- A function that takes the same value on all entries cannot tell an arranged list from the
list. -/
theorem map_arrange {α : Type} {f : Node → α} {a : α} (hf : ∀ n, n.isEntry → f n = a) :
    (arrange order ns).map f = ns.map f :=
  map_refill hf fun _ => isEntry_of_mem_sorted

/-- The nodes of an arranged list are those of the list. -/
theorem arrange_perm : (arrange order ns).Perm ns := by
  refine perm_of_filter_perm ?_ (filter_not_refill fun _ => isEntry_of_mem_sorted)
  rw [filter_arrange]
  exact List.mergeSort_perm _ _

/-- A list without entries is in order. -/
theorem arrange_of_not_isEntry (h : ∀ n ∈ ns, n.isEntry = false) : arrange order ns = ns :=
  refill_of_not_isEntry h

/-- A single node is in order. -/
theorem arrange_singleton (n : Node) : arrange order [n] = [n] := by
  by_cases hn : n.isEntry
  · simp [arrange, refill, hn]
  · exact arrange_of_not_isEntry (by simpa using hn)

/-- The only two entries of a list change places if they are out of order. -/
theorem arrange_of_two {m : Node} (hentries : ns.filter isEntry = [n, m])
    (hle : le order n m = false) : arrange order ns = refill ns [m, n] := by
  have hmerge : [n, m].mergeSort (le order) = [m, n] := by
    rw [List.mergeSort]
    simp [hle]
  rw [arrange, hentries, hmerge]

/-- Two entries out of order change places. -/
theorem arrange_swap {m : Node} (hm : m.isEntry) (hn : n.isEntry) (hle : le order n m = false) :
    arrange order [n, m] = [m, n] := by
  have hentries : [n, m].filter isEntry = [n, m] := by simp [hm, hn]
  rw [arrange_of_two hentries hle]
  simp [refill, hm, hn]

/-- Arranging a list puts its entries in order among their places, and no other list does. -/
theorem placed_iff : Placed order ns ms ↔ ms = arrange order ns := by
  have hentries : ∀ n ∈ ns.filter isEntry, n.isEntry := fun n hn => (List.mem_filter.1 hn).2
  constructor
  · intro h
    have hsame : ms.filter isEntry = (ns.filter isEntry).mergeSort (le order) := by
      refine eq_of_sorted_of_stable (fun n hn => (List.mem_filter.1 hn).2)
        (fun _ => isEntry_of_mem_sorted) h.sorted (pairwise_mergeSort_entries hentries)
        fun k => ?_
      rw [filter_tiesWith_filter, filter_tiesWith_mergeSort hentries, filter_tiesWith_filter,
        h.stable]
    rw [eq_refill h.slots h.others, hsame, arrange]
  · rintro rfl
    refine ⟨?_, fun i => ?_, fun i n => getElem?_refill, ?_, ?_, fun k => ?_⟩
    · exact arrange_perm.length_eq
    · rw [← List.getElem?_map, ← List.getElem?_map, map_arrange fun _ hn => hn]
    · exact arrange_perm.filter _
    · rw [filter_arrange]
      exact pairwise_mergeSort_entries hentries
    · rw [← filter_tiesWith_filter, filter_arrange, filter_tiesWith_mergeSort hentries,
        filter_tiesWith_filter]

/-! ## Shuffles -/

namespace Shuffled

/-- A shuffle leaves entries in the places of entries. -/
theorem getElem?_map_isEntry (h : Shuffled ns ms) (i : Nat) :
    ms[i]?.map isEntry = ns[i]?.map isEntry := by
  rw [← List.getElem?_map, h.slots, List.getElem?_map]

/-- A shuffle can be undone. -/
theorem symm (h : Shuffled ns ms) : Shuffled ms ns := by
  refine ⟨h.slots.symm, fun i m hm hentry => ?_, h.perm.symm, fun k => (h.stable k).symm⟩
  have hslot : ns[i]?.map isEntry = some false := by
    rw [← h.getElem?_map_isEntry, hm, Option.map_some, hentry]
  obtain ⟨n, hn, hother⟩ := Option.map_eq_some_iff.1 hslot
  have hsame : some n = some m := (h.others i n hn hother).symm.trans hm
  rw [hn, hsame]

/-- Shuffles can follow one another. -/
theorem trans (h : Shuffled ls ns) (h' : Shuffled ns ms) : Shuffled ls ms where
  slots := h'.slots.trans h.slots
  others i n hi hn := h'.others i n (h.others i n hi hn) hn
  perm := h'.perm.trans h.perm
  stable k := (h'.stable k).trans (h.stable k)

/-- A shuffled list has the nodes of the list. -/
theorem perm_nodes (h : Shuffled ns ms) : ms.Perm ns := by
  refine perm_of_filter_perm h.perm ?_
  rw [eq_refill h.getElem?_map_isEntry h.others]
  exact filter_not_refill fun n hn => (List.mem_filter.1 hn).2

end Shuffled

/-- To put the entries of a list in order among their places is to shuffle the list such that its
entries do not descend. -/
theorem placed_iff_shuffled :
    Placed order ns ms ↔
      Shuffled ns ms ∧ (ms.filter isEntry).Pairwise fun m n => le order m n := by
  constructor
  · intro h
    refine ⟨⟨?_, h.others, h.perm, fun k => ?_⟩, h.sorted⟩
    · apply List.ext_getElem?
      intro i
      rw [List.getElem?_map, List.getElem?_map, h.slots]
    · have hstable := h.stable k
      rwa [tiesWith_eq] at hstable
  · rintro ⟨h, hsorted⟩
    refine ⟨?_, h.getElem?_map_isEntry, h.others, h.perm, hsorted, fun k => ?_⟩
    · simpa using congrArg List.length h.slots
    · rw [tiesWith_eq, h.stable]

/-- Arranging a list is a shuffle of it. -/
theorem shuffled_arrange : Shuffled ns (arrange order ns) :=
  (placed_iff_shuffled.1 (placed_iff.2 rfl)).1

/-- Arranging does not tell a list from a shuffled one. -/
theorem Shuffled.arrange_eq (h : Shuffled ns ms) : arrange order ms = arrange order ns := by
  have hplaced : Placed order ms (arrange order ms) := placed_iff.2 rfl
  obtain ⟨hms, hsorted⟩ := placed_iff_shuffled.1 hplaced
  exact placed_iff.1 (placed_iff_shuffled.2 ⟨h.trans hms, hsorted⟩)

end Node

end ProjectOrder
