import Mathlib.Data.Set.Card
import ProjectOrder.Document.Basic
import ProjectOrder.Proofs.Collation.TextOrder

/-!
# How often an entry is there

The entries of a document can be listed, and they can be counted where they stand.
`Entry.inventory_eq_iff` says that two lists have one inventory exactly if one is the other in some
order, and `Node.entriesList_perm_iff` that this is so of the entries of two forests exactly if
every entry stands in as many places of one as of the other.
-/

namespace ProjectOrder

open Std (OrientedCmp TransCmp LawfulEqCmp)

/-! ## Inventories -/

namespace Entry

/-- Entries are compared by kind, then by identifier, then by folder. -/
theorem compare_eq_compareLex :
    compare = compareLex (compareOn fun e => e.kind.rank)
      (compareLex (compareOn identifier) (compareOn folder)) :=
  rfl

instance : TransCmp compare := by
  rw [compare_eq_compareLex]
  infer_instance

/-- Only equal entries tie. -/
instance : LawfulEqCmp compare where
  compare_self := Std.ReflCmp.compare_self
  eq_of_compare {a b} h := by
    simp only [compare, Ordering.then_eq_eq] at h
    obtain ⟨hrank, hidentifier, hfolder⟩ := h
    have hkind : a.kind = b.kind := EntryKind.rank_inj (LawfulEqCmp.eq_of_compare hrank)
    have hidentifier : a.identifier = b.identifier := LawfulEqCmp.eq_of_compare hidentifier
    have hfolder : a.folder = b.folder := LawfulEqCmp.eq_of_compare hfolder
    cases a
    cases b
    simp_all

variable {as bs : List Entry}

/-- An inventory has the entries that it is made from. -/
theorem inventory_perm (es : List Entry) : (inventory es).Perm es :=
  List.mergeSort_perm _ _

/-- An inventory is in the order of entries. -/
theorem pairwise_inventory (es : List Entry) :
    (inventory es).Pairwise fun a b => (compare a b).isLE :=
  List.pairwise_mergeSort (fun _ _ _ => TransCmp.isLE_trans) isLE_total es

/-- Two lists have one inventory exactly if one is the other in some order. -/
theorem inventory_eq_iff : inventory as = inventory bs ↔ as.Perm bs := by
  constructor
  · intro h
    have hbs : (inventory as).Perm bs := h ▸ inventory_perm bs
    exact (inventory_perm as).symm.trans hbs
  · intro h
    have hperm : (inventory as).Perm (inventory bs) :=
      (inventory_perm as).trans (h.trans (inventory_perm bs).symm)
    -- entries that may stand before each other are equal, so there is one way to list them in order
    have hantisymm (a b : Entry) (hab : (compare a b).isLE) (hba : (compare b a).isLE) : a = b :=
      LawfulEqCmp.eq_of_compare (OrientedCmp.isLE_antisymm hab hba)
    exact hperm.eq_of_pairwise (fun a b _ _ => hantisymm a b) (pairwise_inventory as)
      (pairwise_inventory bs)

end Entry

/-! ## Places -/

namespace Node

/-- The node at a place: each number tells which of the nodes inside the one before is meant. -/
def at? (n : Node) : List Nat → Option Node
  | [] => some n
  | i :: is => n.children[i]?.bind fun m => m.at? is

/-- The places in a node where an entry stands. -/
def placesOf (n : Node) (e : Entry) : Set (List Nat) :=
  {p | (n.at? p).bind asEntry = some e}

/-- The places in a child list where an entry stands. -/
def placesIn (ns : List Node) (e : Entry) : Set (List Nat) :=
  {p | ∃ i is n, p = i :: is ∧ ns[i]? = some n ∧ is ∈ n.placesOf e}

/-- A place in a child list, seen from the list with one more node in front. -/
def nextPlace : List Nat → List Nat
  | [] => []
  | i :: is => (i + 1) :: is

variable {e : Entry} {n : Node} {ns : List Node} {entry : Option Entry} {tag : Tag}

/-- Different places lead on to different next places. -/
theorem nextPlace_injective : Function.Injective nextPlace := by
  rintro (_ | ⟨i, is⟩) (_ | ⟨j, js⟩) h <;> simp_all [nextPlace]

/-- The places of an entry inside a node, beginning with the number of a child, are those inside
this child. -/
theorem cons_mem_placesOf {i : Nat} {is : List Nat} :
    i :: is ∈ n.placesOf e ↔ ∃ m, n.children[i]? = some m ∧ is ∈ m.placesOf e := by
  simp only [placesOf, at?, Set.mem_ofPred_eq]
  cases n.children[i]? <;> simp

/-- An entry stands in an element as the element itself or inside it. -/
theorem placesOf_element :
    (element entry tag ns).placesOf e = {p | p = [] ∧ entry = some e} ∪ placesIn ns e := by
  ext p
  cases p with
  | nil => simp [placesOf, placesIn, at?, asEntry]
  | cons i is => simp [cons_mem_placesOf, placesIn, children]

/-- There is no place inside a leaf. -/
theorem placesOf_leaf {kind : Markup.LeafKind} {text : String} :
    (leaf kind text).placesOf e = ∅ := by
  ext p
  cases p with
  | nil => simp [placesOf, at?, asEntry]
  | cons i is => simp [cons_mem_placesOf, children]

/-- There is no place in an empty list. -/
theorem placesIn_nil : placesIn [] e = ∅ := by
  simp [placesIn]

/-- An entry stands in a child list in the first node or in those after it. -/
theorem placesIn_cons :
    placesIn (n :: ns) e = (0 :: ·) '' n.placesOf e ∪ nextPlace '' placesIn ns e := by
  ext p
  rcases p with _ | ⟨_ | i, is⟩
  · simp [placesIn, nextPlace]
  · simp [placesIn, nextPlace]
  · simp [placesIn, nextPlace]

/-- The place of an element itself is no place inside it. -/
theorem self_inter_placesIn (entry : Option Entry) (ns : List Node) (e : Entry) :
    {p | p = [] ∧ entry = some e} ∩ placesIn ns e = ∅ := by
  refine Set.eq_empty_of_forall_notMem fun p hp => ?_
  obtain ⟨hself, i, is, n, hinside, -⟩ := hp
  exact List.cons_ne_nil i is (hinside.symm.trans hself.1)

/-- The places in the first node of a child list are none of those in the nodes after it. -/
theorem first_inter_next (n : Node) (ns : List Node) (e : Entry) :
    (0 :: ·) '' n.placesOf e ∩ nextPlace '' placesIn ns e = ∅ := by
  refine Set.eq_empty_of_forall_notMem fun p hp => ?_
  obtain ⟨⟨is, -, rfl⟩, q, ⟨i, js, m, rfl, -⟩, heq⟩ := hp
  exact Nat.succ_ne_zero i (List.cons.inj heq).1

/-- A node stands for an entry at one place or at none. -/
theorem encard_self (entry : Option Entry) (e : Entry) :
    {p : List Nat | p = [] ∧ entry = some e}.encard = entry.toList.count e := by
  by_cases hentry : entry = some e
  · simp [hentry]
  · have hmem : e ∉ entry.toList := by simpa using hentry
    simp [hentry, List.count_eq_zero_of_not_mem hmem]

mutual

/-- An entry is in the list of a node's entries as often as there are places in the node where it
stands. -/
theorem encard_placesOf (n : Node) (e : Entry) :
    (n.placesOf e).encard = n.entries.count e := by
  cases n with
  | leaf kind text => simp [placesOf_leaf, entries]
  | element entry tag ns =>
      have hapart := Set.disjoint_iff_inter_eq_empty.2 (self_inter_placesIn entry ns e)
      rw [placesOf_element, Set.encard_union_eq hapart, encard_self, encard_placesIn ns e, entries,
        List.count_append, Nat.cast_add]

/-- The places in a child list are as many as the entries of its nodes. -/
theorem encard_placesIn (ns : List Node) (e : Entry) :
    (placesIn ns e).encard = (entriesList ns).count e := by
  cases ns with
  | nil => simp [placesIn_nil, entriesList]
  | cons n ns =>
      have hfirst : Function.Injective (0 :: · : List Nat → List Nat) := List.cons_injective
      have hapart := Set.disjoint_iff_inter_eq_empty.2 (first_inter_next n ns e)
      rw [placesIn_cons, Set.encard_union_eq hapart, hfirst.encard_image,
        nextPlace_injective.encard_image, encard_placesOf n e, encard_placesIn ns e, entriesList,
        List.count_append, Nat.cast_add]

end

/-- Two forests have the same entries in some order exactly if every entry stands in as many places
of one as of the other. -/
theorem entriesList_perm_iff {ms ns : List Node} :
    (entriesList ms).Perm (entriesList ns) ↔
      ∀ e, (placesIn ms e).encard = (placesIn ns e).encard := by
  simp only [List.perm_iff_count, encard_placesIn, Nat.cast_inj]

end Node

/-- The places in the tree of a document where an entry stands. -/
def Document.placesOf (d : Document) (e : Entry) : Set (List Nat) :=
  Node.placesIn d.root.children e

end ProjectOrder
