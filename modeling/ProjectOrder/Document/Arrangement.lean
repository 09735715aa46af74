import ProjectOrder.Document.Basic
import ProjectOrder.Collation.Key

/-!
# Arranging entries

The entries of each child list are sorted among the places that entries hold in it. Every other node
stays where it is, so white space and comments keep their places and an entry takes on the
indentation of the place it moves to. Sorting one list looks at nothing inside its nodes.
-/

namespace ProjectOrder

namespace Node

/-- The key of a node that stands for an entry. -/
def key? (n : Node) : Option Key :=
  n.asEntry.map Entry.key

/-- Whether one node may stand before another. Only entries have an order. -/
def le (order : CaseOrder) (a b : Node) : Bool :=
  match a.key?, b.key? with
  | some j, some k => Key.le order j k
  | _, _ => true

/-- The nodes with their entries replaced, one after the other, by given nodes. -/
def refill : List Node → List Node → List Node
  | [], _ => []
  | n :: ns, fill =>
    if n.isEntry then
      match fill with
      | e :: fill => e :: refill ns fill
      | [] => n :: refill ns []
    else n :: refill ns fill

/-- One child list with its entries sorted among their places. -/
def arrange (order : CaseOrder) (ns : List Node) : List Node :=
  refill ns ((ns.filter isEntry).mergeSort (le order))

mutual

/-- A node with every child list inside it arranged. -/
def sort (order : CaseOrder) : Node → Node
  | element entry tag ns => element entry tag (arrange order (sortInner order ns))
  | leaf kind text => leaf kind text

/-- The nodes of a child list with every list inside them arranged. -/
def sortInner (order : CaseOrder) : List Node → List Node
  | [] => []
  | n :: ns => n.sort order :: sortInner order ns

end

/-- A child list arranged at every depth. -/
def sortList (order : CaseOrder) (ns : List Node) : List Node :=
  arrange order (sortInner order ns)

end Node

/-- What sorting does to a document, in numbers. -/
structure Tally where
  /-- The child lists that hold entries. -/
  lists : Nat
  /-- The entries that move to another place. -/
  moved : Nat
deriving DecidableEq, Repr

namespace Tally

/-- No lists and no moves. -/
def zero : Tally := ⟨0, 0⟩

/-- The lists and moves of two parts together. -/
def add (s t : Tally) : Tally := ⟨s.lists + t.lists, s.moved + t.moved⟩

/-- Whether anything moves. -/
def changed (t : Tally) : Bool := t.moved > 0

/-- How many entries of a list sorting moves to another place among the entries. -/
def moves (order : CaseOrder) (ns : List Node) : Nat :=
  let entries := ns.filter Node.isEntry
  let sorted := entries.zipIdx.mergeSort fun a b => Node.le order a.1 b.1
  (sorted.zipIdx).countP fun ((_, origin), place) => origin ≠ place

/-- The tally of one child list, without the lists inside its nodes. -/
def ofList (order : CaseOrder) (ns : List Node) : Tally :=
  ⟨if ns.any Node.isEntry then 1 else 0, moves order ns⟩

mutual

/-- The tally of all child lists inside a node. -/
def inside (order : CaseOrder) : Node → Tally
  | .element _ _ ns => (ofList order ns).add (insideList order ns)
  | .leaf .. => zero

/-- The tally of all child lists inside some nodes. -/
def insideList (order : CaseOrder) : List Node → Tally
  | [] => zero
  | n :: ns => (inside order n).add (insideList order ns)

end

end Tally

namespace Document

/-- The document with all its child lists under the root arranged. -/
def sort (order : CaseOrder) (d : Document) : Document :=
  { d with root := { d.root with children := Node.sortList order d.root.children } }

/-- What sorting does to a document. -/
def tally (order : CaseOrder) (d : Document) : Tally :=
  (Tally.ofList order d.root.children).add (Tally.insideList order d.root.children)

end Document

end ProjectOrder
