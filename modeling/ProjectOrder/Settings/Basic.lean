import ProjectOrder.Collation.CaseOrder

/-!
# Settings

The four settings of the program, and layers that specify some of them. A layer laid over settings
decides the ones that it specifies and leaves the others.
-/

namespace ProjectOrder

/-- The settings of the program. -/
structure Settings where
  /-- What is appended to the path of an item list to find its filters file. -/
  filtersSuffix : String
  /-- How names that differ only in letter case are told apart. -/
  caseOrder : CaseOrder
  /-- Whether projects may be processed side by side. -/
  parallel : Bool
  /-- Whether output is read back before it is written. -/
  verify : Bool
deriving DecidableEq, Repr

/-- A part of the settings; `none` where it specifies nothing. -/
structure Layer where
  filtersSuffix : Option String
  caseOrder : Option CaseOrder
  parallel : Option Bool
  verify : Option Bool
deriving DecidableEq, Repr

namespace Settings

/-- The settings where nothing else is specified. -/
def default : Settings := ⟨".filters", .upperFirst, true, true⟩

/-- Settings with a layer over them. -/
def overlay (s : Settings) (l : Layer) : Settings where
  filtersSuffix := l.filtersSuffix.getD s.filtersSuffix
  caseOrder := l.caseOrder.getD s.caseOrder
  parallel := l.parallel.getD s.parallel
  verify := l.verify.getD s.verify

end Settings

/-- The layer that specifies nothing. -/
def Layer.empty : Layer := ⟨none, none, none, none⟩

end ProjectOrder
