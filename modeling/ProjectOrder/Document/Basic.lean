import ProjectOrder.Document.Node
import ProjectOrder.Encoding.Basic

/-!
# Project documents

A document is one root element, what stands before and after it, and how its text was encoded. The
name of the root tells which of two dialects the project is written in.
-/

namespace ProjectOrder

/-- How a project document records folders. -/
inductive Dialect where
  /-- Entries lie side by side in item groups, and a file names its folder. -/
  | flat
  /-- Folders are elements that hold their files and subfolders. -/
  | nested
deriving DecidableEq, Repr

namespace Dialect

/-- The name of a dialect in messages. -/
def name : Dialect → String
  | flat => "flat"
  | nested => "nested"

/-- The name of the root element. -/
def rootElement : Dialect → String
  | flat => "Project"
  | nested => "VisualStudioProject"

/-- The dialect whose root element has a name. -/
def ofRootElement? (s : String) : Option Dialect :=
  if s = flat.rootElement then some flat
  else if s = nested.rootElement then some nested
  else none

end Dialect

/-- A project document. -/
structure Document where
  dialect : Dialect
  /-- The encoding of the bytes it was read from, in which it is written again. -/
  encoding : Encoding
  /-- The text began with a byte order mark. -/
  mark : Bool
  prolog : List Node
  root : Element
  epilog : List Node
deriving DecidableEq, Repr

namespace Document

/-- The entries in document order, each before those inside it. -/
def entries (d : Document) : List Entry :=
  Node.entriesList d.root.children

/-- How many entries are of a kind. -/
def count (d : Document) (kind : EntryKind) : Nat :=
  d.entries.countP (·.kind = kind)

end Document

end ProjectOrder
