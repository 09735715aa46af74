import ProjectOrder.Document.Node
import ProjectOrder.Markup.Reading

/-!
# Forests from tokens

The tokens of a text are put together to a forest of nodes, with the open elements kept on a stack.
`Node.tokensList` is the way back: the tokens of a forest in document order.
-/

namespace ProjectOrder

open Markup

/-- The width of a character in the bytes of UTF-8, the unit of attribute positions. -/
def byteWidth (c : Char) : Nat := c.utf8Size

/-- Why the tokens of a text make no forest. -/
inductive ForestFault where
  | read (fault : ReadFault)
  | attributes (element : String) (fault : AttributeFault)
  | unexpectedClose (name : String)
  | notClosed (name : String)
deriving DecidableEq, Repr

/-- The wording of the fault. -/
def ForestFault.message : ForestFault → String
  | read fault => fault.message
  | attributes element fault => s!"in <{element}>: {fault.message}"
  | unexpectedClose name => s!"unexpected closing tag </{name}>"
  | notClosed name => s!"unexpected end of input: <{name}> is not closed"

/-- The start tag written by some content, with its attributes read. -/
def Tag.ofContent (empty : Bool) (content : List Char) : Except ForestFault Tag :=
  let name := String.ofList (Token.tagName content)
  let listing := Attribute.ofTag byteWidth true content
  match listing.fault with
  | some fault => .error (.attributes name fault)
  | none => .ok ⟨name, String.ofList content, listing.attributes, empty⟩

/-- A forest under construction. -/
structure Growth where
  /-- The finished nodes of the innermost open element, last first. -/
  nodes : List Node
  /-- The open elements, innermost first, each with the finished nodes before it, last first. -/
  stack : List (Tag × List Node)
deriving Repr

namespace Growth

/-- Nothing read yet. -/
def start : Growth := ⟨[], []⟩

/-- A finished node is added to the innermost open element. -/
def add (g : Growth) (n : Node) : Growth :=
  { g with nodes := n :: g.nodes }

/-- One token is taken in. -/
def step (g : Growth) : Token → Except ForestFault Growth
  | .openTag content => do
    let tag ← Tag.ofContent false content
    return ⟨[], (tag, g.nodes) :: g.stack⟩
  | .emptyTag content => do
    let tag ← Tag.ofContent true content
    return g.add (.element none tag [])
  | .closeTag name =>
    match g.stack with
    | [] => .error (.unexpectedClose (String.ofList name))
    | (tag, before) :: stack => .ok ⟨.element none tag g.nodes.reverse :: before, stack⟩
  | .leaf kind text => .ok (g.add (.leaf kind (String.ofList text)))

/-- The forest, once all tokens are taken in. -/
def finish (g : Growth) : Except ForestFault (List Node) :=
  match g.stack with
  | [] => .ok g.nodes.reverse
  | (tag, _) :: _ => .error (.notClosed tag.name)

end Growth

/-- The forest of a reading. The first fault in the order of the text is the one reported. -/
def Forest.ofReading (r : Reading) : Except ForestFault (List Node) := do
  let g ← r.tokens.foldlM Growth.step Growth.start
  match r.fault with
  | some fault => .error (.read fault)
  | none => g.finish

/-- The forest that a text stands for. -/
def Forest.ofText (cs : List Char) : Except ForestFault (List Node) :=
  Forest.ofReading (Reading.ofText cs)

namespace Node

mutual

/-- The tokens of a node. -/
def tokens : Node → List Token
  | element _ tag ns =>
    if tag.empty then [.emptyTag tag.content.toList]
    else .openTag tag.content.toList :: (tokensList ns ++ [.closeTag tag.name.toList])
  | leaf kind text => [.leaf kind text.toList]

/-- The tokens of a forest in document order. -/
def tokensList : List Node → List Token
  | [] => []
  | n :: ns => n.tokens ++ tokensList ns

end

end Node

end ProjectOrder
