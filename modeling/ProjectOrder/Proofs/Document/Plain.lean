import ProjectOrder.Document.Forest
import ProjectOrder.Proofs.Arrangement.Slots

/-!
# Documents without their entries

`Node.plain` takes the marks of entries off a node and leaves what is written. Tokens know no
entries, and a node without any is in order as it stands.
-/

namespace ProjectOrder

namespace Node

mutual

/-- A node with no entry marked in it. -/
def plain : Node → Node
  | element _ tag ns => element none tag (plainList ns)
  | leaf kind text => leaf kind text

/-- The nodes of a child list with no entry marked in them. -/
def plainList : List Node → List Node
  | [] => []
  | n :: ns => n.plain :: plainList ns

end

variable {order : CaseOrder} {n : Node} {ns : List Node}

/-- Taking the marks of entries off some nodes takes them off each. -/
theorem plainList_eq_map (ns : List Node) : plainList ns = ns.map plain := by
  induction ns with
  | nil => rfl
  | cons n ns ih => rw [plainList, ih, List.map_cons]

/-- Some nodes have no marks if none of them has any. -/
theorem plainList_eq_self_iff : plainList ns = ns ↔ ∀ n ∈ ns, n.plain = n := by
  induction ns with
  | nil => simp [plainList]
  | cons n ns ih => simp [plainList, ih]

/-- Marks are taken off some nodes and others separately. -/
theorem plainList_append (ms ns : List Node) :
    plainList (ms ++ ns) = plainList ms ++ plainList ns := by
  simp [plainList_eq_map]

/-- Without its marks a node is no entry. -/
theorem isEntry_plain (n : Node) : n.plain.isEntry = false := by
  cases n <;> simp [plain, isEntry, asEntry]

mutual

/-- Taking the marks off again changes nothing. -/
theorem plain_plain (n : Node) : n.plain.plain = n.plain := by
  cases n with
  | leaf kind text => rfl
  | element entry tag ns => rw [plain, plain, plainList_plainList]

/-- Taking the marks off a list again changes nothing. -/
theorem plainList_plainList (ns : List Node) : plainList (plainList ns) = plainList ns := by
  cases ns with
  | nil => rfl
  | cons n ns => rw [plainList, plainList, plain_plain, plainList_plainList]

end

mutual

/-- The tokens of a node do not depend on its entries. -/
theorem tokens_plain (n : Node) : n.plain.tokens = n.tokens := by
  cases n with
  | leaf kind text => rfl
  | element entry tag ns => rw [plain, tokens, tokens, tokensList_plainList]

/-- Tokens do not tell whether nodes are marked. -/
theorem tokensList_plainList (ns : List Node) : tokensList (plainList ns) = tokensList ns := by
  cases ns with
  | nil => rfl
  | cons n ns => rw [plainList, tokensList, tokensList, tokens_plain, tokensList_plainList]

end

mutual

/-- Sorting a node without entries leaves it as it is. -/
theorem sort_plain (n : Node) : n.plain.sort order = n.plain := by
  cases n with
  | leaf kind text => rfl
  | element entry tag ns =>
      rw [plain, sort, sortInner_plainList, arrange_of_not_isEntry]
      rw [plainList_eq_map]
      simp [isEntry_plain]

/-- Sorting does nothing inside nodes without marks. -/
theorem sortInner_plainList (ns : List Node) :
    sortInner order (plainList ns) = plainList ns := by
  cases ns with
  | nil => rfl
  | cons n ns => rw [plainList, sortInner, sort_plain, sortInner_plainList]

end

/-- Sorting inside some nodes sorts each of them. -/
theorem sortInner_eq_map (ns : List Node) : sortInner order ns = ns.map (sort order) := by
  induction ns with
  | nil => rfl
  | cons n ns ih => rw [sortInner, ih, List.map_cons]

/-- A child list without entries is in order. -/
theorem sortList_plainList (ns : List Node) : sortList order (plainList ns) = plainList ns := by
  rw [sortList, sortInner_plainList, arrange_of_not_isEntry]
  rw [plainList_eq_map]
  simp [isEntry_plain]

end Node

end ProjectOrder
