import ProjectOrder.Document.Entry
import ProjectOrder.Markup.Attribute
import ProjectOrder.Markup.Token
import ProjectOrder.Text.Blank

/-!
# The document tree

Elements, and the leaves between them. An element that stands for a folder or a file of the project
carries the entry it was recognised as; everything else about it is kept as it is written.
-/

namespace ProjectOrder

open Markup (Attribute LeafKind)

/-- The start tag of an element. -/
structure Tag where
  name : String
  /-- All between `<` and `>` or `/>`, as it is written. -/
  content : String
  attributes : List Attribute
  /-- Written as one tag closed in itself. -/
  empty : Bool
deriving DecidableEq, Repr

/-- The value of the first attribute with a key, as it is written. -/
def Tag.value? (tag : Tag) (key : String) : Option String :=
  (tag.attributes.find? (·.key = key)).map (·.value)

/-- A node of the tree. -/
inductive Node where
  /-- An element, with its entry if it has been recognised as one. -/
  | element (entry : Option Entry) (tag : Tag) (children : List Node)
  | leaf (kind : LeafKind) (text : String)
deriving Repr

namespace Node

mutual

/-- Whether two nodes are equal. -/
def decEq : (m n : Node) → Decidable (m = n)
  | element e t ms, element f u ns =>
    if he : e = f then
      if ht : t = u then
        match decEqList ms ns with
        | isTrue h => isTrue (by rw [he, ht, h])
        | isFalse h => isFalse fun heq => h (by injection heq)
      else isFalse fun heq => ht (by injection heq)
    else isFalse fun heq => he (by injection heq)
  | leaf k s, leaf l t =>
    if hk : k = l then
      if hs : s = t then isTrue (by rw [hk, hs])
      else isFalse fun heq => hs (by injection heq)
    else isFalse fun heq => hk (by injection heq)
  | element .., leaf .. => isFalse nofun
  | leaf .., element .. => isFalse nofun

/-- Whether two forests are equal. -/
def decEqList : (ms ns : List Node) → Decidable (ms = ns)
  | [], [] => isTrue rfl
  | m :: ms, n :: ns =>
    match decEq m n with
    | isTrue hm =>
      match decEqList ms ns with
      | isTrue hms => isTrue (by rw [hm, hms])
      | isFalse h => isFalse fun heq => h (by injection heq)
    | isFalse h => isFalse fun heq => h (by injection heq)
  | [], _ :: _ => isFalse nofun
  | _ :: _, [] => isFalse nofun

end

instance : DecidableEq Node := decEq

/-- Induction over nodes: what holds of leaves, and of an element if it holds of the nodes inside
it, holds of every node. -/
@[elab_as_elim, induction_eliminator]
theorem induction {motive : Node → Prop}
    (leaf : ∀ kind text, motive (.leaf kind text))
    (element : ∀ entry tag children, (∀ n ∈ children, motive n) →
      motive (.element entry tag children)) :
    ∀ n, motive n
  | .leaf kind text => leaf kind text
  | .element entry tag children =>
    element entry tag children fun n _ => induction leaf element n

/-- The entry that a node stands for. -/
def asEntry : Node → Option Entry
  | element entry _ _ => entry
  | leaf .. => none

/-- The nodes inside an element. -/
def children : Node → List Node
  | element _ _ ns => ns
  | leaf .. => []

/-- Whether a node stands for an entry. -/
def isEntry (n : Node) : Bool :=
  n.asEntry.isSome

/-- The character data of a leaf; other nodes have none. -/
def characterData : Node → String
  | leaf .text s | leaf .cdata s => s
  | _ => ""

mutual

/-- The entries of a node, an element's own before those inside it. -/
def entries : Node → List Entry
  | element entry _ ns => entry.toList ++ entriesList ns
  | leaf .. => []

/-- The entries of a forest in document order. -/
def entriesList : List Node → List Entry
  | [] => []
  | n :: ns => n.entries ++ entriesList ns

end

end Node

/-- The character data directly among some nodes, without blanks around it. -/
def textOf (ns : List Node) : String :=
  Text.trim (String.join (ns.map Node.characterData))

/-- The text of the first element of a name that is no entry. -/
def textOfChild? (name : String) (ns : List Node) : Option String :=
  ns.findSome? fun
    | .element none tag children => if tag.name = name then some (textOf children) else none
    | _ => none

/-- An element outside any child list: the root of a document. -/
structure Element where
  tag : Tag
  children : List Node
deriving DecidableEq, Repr

end ProjectOrder
