import ProjectOrder.Document.Basic
import ProjectOrder.Encoding.Codec

/-!
# Writing documents

`Document.render` writes the text of a document and `Document.write` its bytes. Tags and character
data are written as they are held, so a document that has been read is written as it was. What could
not be read back as the same node is refused.
-/

namespace ProjectOrder

open Markup

/-- Why a document cannot be written. -/
inductive WriteFault where
  | foreignRoot (name : String) (dialect : Dialect)
  | misplacedEntry (entry : Entry) (element : String) (dialect : Dialect)
  | unnamedTag (content : String)
  | emptyWithChildren (name : String) (children : Nat)
  | textWithTag
  | commentWithHyphens
  | cdataWithEnd
  | notEncodable (encoding : Encoding)
deriving DecidableEq, Repr

/-- The name of a kind of entry in messages. -/
def EntryKind.title : EntryKind → String
  | folder => "Folder"
  | file => "File"

/-- The wording of the fault. -/
def WriteFault.message : WriteFault → String
  | foreignRoot name dialect =>
    s!"root <{name}> does not belong to the {dialect.name} dialect"
  | misplacedEntry entry element dialect =>
    s!"{entry.kind.title} entry <{element}> '{entry.identifier}' cannot be represented in the " ++
      s!"{dialect.name} dialect"
  | unnamedTag content => s!"element tag '{content}' does not start with its name"
  | emptyWithChildren name n => s!"empty element <{name}> has {n} children"
  | textWithTag => "character data contains a raw '<'"
  | commentWithHyphens => "comment contains '--'"
  | cdataWithEnd => "CDATA section contains ']]>'"
  | notEncodable e => s!"output has characters that {e.name} cannot represent"

namespace Markup.LeafKind

/-- What a kind of leaf is written between. -/
def delimiters : LeafKind → List Char × List Char
  | text => ([], [])
  | comment => (['<', '!', '-', '-'], ['-', '-', '>'])
  | cdata => (['<', '!', '[', 'C', 'D', 'A', 'T', 'A', '['], [']', ']', '>'])
  | declaration | instruction => (['<', '?'], ['?', '>'])
  | doctype => (['<', '!', 'D', 'O', 'C', 'T', 'Y', 'P', 'E', ' '], ['>'])

/-- What must not stand in a kind of leaf, and the fault if it does. -/
def forbidden? : LeafKind → Option (List Char × WriteFault)
  | text => some (['<'], .textWithTag)
  | comment => some (['-', '-'], .commentWithHyphens)
  | cdata => some ([']', ']', '>'], .cdataWithEnd)
  | declaration | instruction | doctype => none

/-- The text of a leaf between its delimiters. -/
def render (kind : LeafKind) (text : List Char) : Except WriteFault (List Char) :=
  let (opening, closing) := kind.delimiters
  match kind.forbidden? with
  | some (part, fault) =>
    if (cut? part text).isSome then .error fault else .ok (opening ++ text ++ closing)
  | none => .ok (opening ++ text ++ closing)

end Markup.LeafKind

/-- Whether a dialect reads an element of this start tag as an entry of a kind. -/
def Dialect.fits (dialect : Dialect) (kind : EntryKind) (tag : Tag) : Bool :=
  match dialect, kind with
  | .flat, .folder => tag.name = "Filter" && (tag.value? "Include").isSome
  | .flat, .file => tag.name ≠ "Filter" && (tag.value? "Include").isSome
  | .nested, .folder => tag.name = "Filter" && (tag.value? "Name").isSome
  | .nested, .file => tag.name = "File" && (tag.value? "RelativePath").isSome

/-- A start tag may be written if it begins with its name. -/
def Tag.check (tag : Tag) (children : List Node) : Except WriteFault Unit :=
  if tag.name = "" ∨ (after? tag.name.toList tag.content.toList).isNone then
    .error (.unnamedTag tag.content)
  else if tag.empty ∧ children ≠ [] then .error (.emptyWithChildren tag.name children.length)
  else .ok ()

/-- An entry may be written if its element is read as an entry of its kind. -/
def Entry.check (dialect : Dialect) (tag : Tag) (entry : Entry) : Except WriteFault Unit :=
  if dialect.fits entry.kind tag then .ok ()
  else .error (.misplacedEntry entry tag.name dialect)

/-- The text of an element around that of its children. -/
def Tag.wrap (tag : Tag) (inner : List Char) : List Char :=
  if tag.empty then '<' :: (tag.content.toList ++ ['/', '>'])
  else '<' :: (tag.content.toList ++ '>' :: (inner ++ '<' :: '/' :: (tag.name.toList ++ ['>'])))

namespace Node

mutual

/-- The text of a node. -/
def render (dialect : Dialect) : Node → Except WriteFault (List Char)
  | element entry tag ns => do
    match entry with
    | some entry => entry.check dialect tag
    | none => pure ()
    tag.check ns
    let inner ← renderList dialect ns
    return tag.wrap inner
  | leaf kind text => kind.render text.toList

/-- The text of a forest. -/
def renderList (dialect : Dialect) : List Node → Except WriteFault (List Char)
  | [] => .ok []
  | n :: ns => do
    let first ← n.render dialect
    let rest ← renderList dialect ns
    return first ++ rest

end

end Node

namespace Document

/-- The nodes of a document in their order. -/
def nodes (d : Document) : List Node :=
  d.prolog ++ .element none d.root.tag d.root.children :: d.epilog

/-- The text of a document. -/
def render (d : Document) : Except WriteFault String :=
  if d.root.tag.name = d.dialect.rootElement then do
    let text ← Node.renderList d.dialect d.nodes
    return String.ofList (if d.mark then '\uFEFF' :: text else text)
  else .error (.foreignRoot d.root.tag.name d.dialect)

/-- The bytes of a document in its encoding. -/
def write [Indexes] (d : Document) : Except WriteFault ByteArray := do
  let text ← d.render
  match d.encoding.encode? text.toList with
  | some bytes => return ⟨bytes.toArray⟩
  | none => throw (.notEncodable d.encoding)

end Document

end ProjectOrder
