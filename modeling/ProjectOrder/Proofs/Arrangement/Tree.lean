import ProjectOrder.Proofs.Arrangement.Slots

/-!
# Documents in order

`Settled` and `SettledEach` carry `Placed` through a tree, level by level: the nodes of a child list
are settled inside before the list itself is placed. `arranged_iff` says that sorting a document
yields the one document that differs from it in this way and in nothing else.
-/

namespace ProjectOrder

namespace Node

mutual

/-- `Settled order m n` says that `n` is the node `m` with every child list inside it placed. Its
entry and its start tag are those of `m`. -/
inductive Settled (order : CaseOrder) : Node → Node → Prop where
  | leaf (kind : Markup.LeafKind) (text : String) :
      Settled order (.leaf kind text) (.leaf kind text)
  | element (entry : Option Entry) (tag : Tag) (ns inner ms : List Node) :
      SettledEach order ns inner → Placed order inner ms →
      Settled order (.element entry tag ns) (.element entry tag ms)

/-- `SettledEach order ns ms` says that the nodes of `ms` are those of `ns`, each settled. -/
inductive SettledEach (order : CaseOrder) : List Node → List Node → Prop where
  | nil : SettledEach order [] []
  | cons (m n : Node) (ms ns : List Node) :
      Settled order m n → SettledEach order ms ns → SettledEach order (m :: ms) (n :: ns)

end

variable {order : CaseOrder}

mutual

/-- A sorted node is settled. -/
theorem settled_sort (n : Node) : Settled order n (n.sort order) := by
  cases n with
  | leaf kind text => exact .leaf kind text
  | element entry tag ns =>
      exact .element entry tag ns _ _ (settledEach_sortInner ns) (placed_iff.2 rfl)

/-- The nodes of a child list sorted inside are settled. -/
theorem settledEach_sortInner (ns : List Node) : SettledEach order ns (sortInner order ns) := by
  cases ns with
  | nil => exact .nil
  | cons n ns => exact .cons _ _ _ _ (settled_sort n) (settledEach_sortInner ns)

end

mutual

/-- Settling determines a node. -/
theorem Settled.eq_sort {m n : Node} (h : Settled order m n) : n = m.sort order := by
  cases h with
  | leaf => rfl
  | element _ _ _ _ _ heach hplaced => rw [sort, placed_iff.1 hplaced, heach.eq_sortInner]

/-- Settling determines the nodes of a child list. -/
theorem SettledEach.eq_sortInner {ns ms : List Node} (h : SettledEach order ns ms) :
    ms = sortInner order ns := by
  cases h with
  | nil => rfl
  | cons _ _ _ _ hhead htail => rw [sortInner, hhead.eq_sort, htail.eq_sortInner]

end

end Node

namespace Document

/-- `d.Arranged order s` says that `s` is the document `d` with every child list under the root in
order: the nodes of the list are settled inside, and then its entries are placed. -/
structure Arranged (order : CaseOrder) (d s : Document) : Prop where
  dialect : s.dialect = d.dialect
  encoding : s.encoding = d.encoding
  mark : s.mark = d.mark
  prolog : s.prolog = d.prolog
  epilog : s.epilog = d.epilog
  /-- The name, the content, the attributes and the form of the root's tag. -/
  tag : s.root.tag = d.root.tag
  children : ∃ inner, Node.SettledEach order d.root.children inner ∧
    Node.Placed order inner s.root.children

/-- Sorting a document arranges it, and no other document is an arrangement of it. -/
theorem arranged_iff (order : CaseOrder) (d s : Document) :
    d.Arranged order s ↔ s = d.sort order := by
  constructor
  · intro h
    obtain ⟨inner, heach, hplaced⟩ := h.children
    have hchildren : s.root.children = (d.sort order).root.children := by
      rw [Node.placed_iff.1 hplaced, heach.eq_sortInner]
      rfl
    obtain ⟨dialect, encoding, mark, prolog, ⟨tag, children⟩, epilog⟩ := s
    obtain ⟨rfl, rfl, rfl, rfl, rfl, rfl, -⟩ := h
    exact congrArg (fun children => { d with root := { d.root with children } }) hchildren
  · rintro rfl
    exact ⟨rfl, rfl, rfl, rfl, rfl, rfl, _, Node.settledEach_sortInner _, Node.placed_iff.2 rfl⟩

end Document

end ProjectOrder
