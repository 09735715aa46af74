import ProjectOrder.Document.Basic
import ProjectOrder.Markup.Reference

/-!
# Recognising entries

Which elements of a document stand for folders and files, by dialect. Recognition marks elements
with their entries and changes nothing else.
-/

namespace ProjectOrder

open Markup (Reference.resolve)

/-- What an element of an item group stands for: one with an `Include` is a file, or a folder if it
is named `Filter`. A file names its folder in a child. -/
def asFlatEntry (tag : Tag) (children : List Node) : Option Entry :=
  (tag.value? "Include").map fun identifier =>
    if tag.name = "Filter" then ⟨.folder, Reference.resolve identifier, none⟩
    else
      ⟨.file, Reference.resolve identifier,
        (textOfChild? "Filter" children).map Reference.resolve⟩

/-- What an element under `Files` stands for: a `Filter` with a `Name` is a folder and a `File` with
a `RelativePath` is a file, in the folder around it. -/
def asNestedEntry (folder : Option String) (tag : Tag) : Option Entry :=
  if tag.name = "Filter" then
    (tag.value? "Name").map fun name => ⟨.folder, Reference.resolve name, folder⟩
  else if tag.name = "File" then
    (tag.value? "RelativePath").map fun path => ⟨.file, Reference.resolve path, folder⟩
  else none

namespace Node

/-- A child of an item group, marked if it is an entry. -/
def markFlat : Node → Node
  | element _ tag ns => element (asFlatEntry tag ns) tag ns
  | leaf kind text => leaf kind text

mutual

/-- A node of the flat dialect with the entries of its item groups marked. Item groups may stand
inside the branches of a choice. -/
def recognizeFlat : Node → Node
  | element entry tag ns =>
    if tag.name = "ItemGroup" then element entry tag (ns.map markFlat)
    else if tag.name ∈ ["Choose", "When", "Otherwise"] then
      element entry tag (recognizeFlatList ns)
    else element entry tag ns
  | leaf kind text => leaf kind text

/-- The nodes of a child list with the entries of their item groups marked. -/
def recognizeFlatList : List Node → List Node
  | [] => []
  | n :: ns => n.recognizeFlat :: recognizeFlatList ns

end

mutual

/-- A node under `Files` with entries marked, inside a folder or none. -/
def markNested (folder : Option String) : Node → Node
  | element _ tag ns =>
    match asNestedEntry folder tag with
    | some entry =>
      match entry.kind with
      | .folder => element (some entry) tag (markNestedList (some entry.identifier) ns)
      | .file => element (some entry) tag ns
    | none => element none tag ns
  | leaf kind text => leaf kind text

/-- The nodes of a child list under `Files` with entries marked. -/
def markNestedList (folder : Option String) : List Node → List Node
  | [] => []
  | n :: ns => n.markNested folder :: markNestedList folder ns

end

/-- A child of the root of the nested dialect: the entries of `Files` are marked. -/
def recognizeNested : Node → Node
  | element entry tag ns =>
    if tag.name = "Files" then element entry tag (markNestedList none ns)
    else element entry tag ns
  | leaf kind text => leaf kind text

end Node

/-- The root element with the entries of the document marked. -/
def Element.recognize (dialect : Dialect) (root : Element) : Element :=
  match dialect with
  | .flat => { root with children := Node.recognizeFlatList root.children }
  | .nested => { root with children := root.children.map Node.recognizeNested }

end ProjectOrder
